import DTChat.WireCuts
import DTChat.ProtoWeight

namespace DTChat.Transports
open ProtoWire ProtoRecord ClockTime Utf8Text PeerMessages ProtoMessages Base64Text WireCodec
open WireRoundTrip WireFraming WireCuts

-- utils/socket.rs `send`: one datagram, or a stream closed after the last byte.
inductive Transmission where
  | datagram (payload : List UInt8)
  | stream (payload : List UInt8)

def send (endpoint : Endpoint) (data : List UInt8) : Transmission :=
  match endpoint with
  | .bp _ | .udp _ => .datagram data
  | .tcp _ => .stream data

def sendMessage (endpoint : Endpoint) (message : ChatMessage) : Option Transmission :=
  (serializeMessage message).map (send endpoint)

-- A datagram socket hands out a datagram that fits whole. One that does not is
-- cut to the buffer, as UDP does, or refused, as `bp_recvmsg` does.
structure DatagramSocket where
  read : Nat → List UInt8 → Option (List UInt8)
  whole : ∀ size datagram, datagram.length ≤ size → read size datagram = some datagram
  cut : ∀ size datagram, size < datagram.length →
    read size datagram = none ∨ read size datagram = some (datagram.take size)

def udpSocket : DatagramSocket where
  read size datagram := some (datagram.take size)
  whole size datagram fits := by rw [List.take_of_length_le fits]
  cut size datagram _ := .inr rfl

def bpSocket : DatagramSocket where
  read size datagram := if datagram.length ≤ size then some datagram else none
  whole size datagram fits := if_pos fits
  cut size datagram longer := .inl (if_neg (by omega))

def bufferSize : Nat := 1024

def readToEnd : List (List UInt8) → List UInt8 → List UInt8
  | [],buffer => buffer
  | chunk :: later,buffer => if chunk = [] then buffer else readToEnd later (buffer ++ chunk)

inductive Hands (socket : DatagramSocket) : Transmission → Option (List UInt8) → Prop
  | datagram (payload : List UInt8) : Hands socket (.datagram payload) (socket.read bufferSize payload)
  | stream (segments : List (List UInt8)) (nonempty : ∀ segment ∈ segments, segment ≠ []) :
      Hands socket (.stream segments.flatten) (some (readToEnd segments []))

def Arrives (socket : DatagramSocket) (transmission : Transmission) (good : List UInt8 → Prop) : Prop :=
  ∀ handed, Hands socket transmission handed → ∃ bytes, handed = some bytes ∧ good bytes

def SameMessage (message : ChatMessage) (bytes : List UInt8) : Prop :=
  decodeProtoTolerant bytes = some (constructProtoMessage message)

def SameFields (message : ChatMessage) (bytes : List UInt8) : Prop :=
  ∃ proto, decodeProtoTolerant bytes = some proto ∧ proto.uuid = message.uuid ∧
    proto.senderUuid = message.sender.uuid ∧ proto.content = some (.text ⟨message.text,message.response⟩)

def IsTcp : Endpoint → Prop
  | .tcp _ => True
  | _ => False

theorem readToEnd_segments (segments : List (List UInt8)) (buffer : List UInt8)
    (nonempty : ∀ segment ∈ segments, segment ≠ []) : readToEnd segments buffer = buffer ++ segments.flatten := by
  induction segments generalizing buffer with
  | nil => simp [readToEnd]
  | cons segment later ih =>
    rw [readToEnd,if_neg (nonempty segment (by simp)),ih _ fun part member => nonempty part (List.mem_cons_of_mem _ member)]
    simp

theorem same_fields (same : SameMessage message bytes) : SameFields message bytes := ⟨_,same,rfl,rfl,rfl⟩

theorem same_deserialized (encoded : serializeMessage message = some wire) (same : SameMessage message bytes)
    (now : UtcNow) (peers : List Peer) : deserializeMessage now bytes peers = deserializeMessage now wire peers := by
  rw [deserialize_decoded same,deserialize_decoded (decodeTolerant_wire encoded rfl)]

theorem stream_arrives (encoded : serializeMessage message = some wire) :
    Arrives socket (.stream wire) (SameMessage message) := by
  intro handed hands
  generalize target : Transmission.stream wire = transmission at hands
  cases hands with
  | datagram payload => cases target
  | stream segments nonempty =>
    cases target
    refine ⟨_,rfl,?_⟩
    rw [readToEnd_segments segments [] nonempty,List.nil_append]
    exact decodeTolerant_wire encoded rfl

theorem datagram_arrives (encoded : serializeMessage message = some wire) (fits : wire.length ≤ bufferSize) :
    Arrives socket (.datagram wire) (SameMessage message) := by
  intro handed hands
  cases hands
  exact ⟨wire,socket.whole _ _ fits,decodeTolerant_wire encoded rfl⟩

-- A wire that overruns the buffer loses symbols, and what is left holds at most
-- 767 of its more than 768 protobuf bytes.
theorem overrun_core {proto : ProtoMessage} (long : bufferSize < (Base64Text.encode proto.encode).length) :
    (Base64Text.encode proto.encode).take bufferSize = (core proto.encode).take bufferSize ∧
      769 ≤ proto.encode.length ∧ (core proto.encode).drop bufferSize ≠ [] := by
  rw [encode_length] at long
  have counted := core_length proto.encode
  simp only [bufferSize] at long ⊢
  refine ⟨?_,by omega,?_⟩
  · rw [Base64Text.encode,List.take_append_of_le_length (by omega)]
  · intro empty
    have none_left := List.drop_eq_nil_iff.mp empty
    omega

theorem overrun_read {proto msg : ProtoMessage} (content : proto.content = some found) (fits : proto.encode.length < 2^64)
    (long : bufferSize < (Base64Text.encode proto.encode).length)
    (decoded : decodeProtoTolerant ((Base64Text.encode proto.encode).take bufferSize) = some msg) :
    ∃ bytes, bytes <+: advanced proto.encode ∧ bytes.length ≤ 767 ∧ ProtoMessage.decode bytes = some msg := by
  obtain ⟨taken,longer,some_left⟩ := overrun_core long
  have front := (List.take_append_drop bufferSize (core proto.encode)).symm
  have aligned := first_attempt_refused content fits front some_left
  rw [taken,decodeTolerant_second aligned] at decoded
  obtain ⟨bytes,read,parsed,_⟩ := decodeAttempt_inv decoded
  have run := decodeAdu_stops (fun c member => cut_symbols front c (List.mem_of_mem_tail member)) stops_nil
  rw [List.append_nil,read] at run
  split at run
  · cases run
  · have small := readCore_length run.symm
    rw [List.length_tail,List.length_take,bufferSize] at small
    exact ⟨bytes,readCore_tail proto.encode run.symm,by omega,parsed⟩

theorem overrun_altered {proto : ProtoMessage} (text : proto.content = some (.text message)) (fits : proto.encode.length < 2^64)
    (long : bufferSize < (Base64Text.encode proto.encode).length) :
    decodeProtoTolerant ((Base64Text.encode proto.encode).take bufferSize) ≠ some proto := by
  intro decoded
  obtain ⟨bytes,_,small,parsed⟩ := overrun_read text fits long decoded
  obtain ⟨_,longer,_⟩ := overrun_core long
  have weight := ProtoMessage.decode_weight parsed
  have whole := ProtoMessage.encode_weight text
  omega

theorem header_keys {proto : ProtoMessage} (generated : GenerateUuid proto.uuid) :
    ∀ b ∈ (advanced proto.encode).take 37, b.toNat%64 ≠ 10 ∧ b.toNat%64 ≠ 18 ∧ b.toNat%64 ≠ 42 := by
  obtain ⟨rest,opened⟩ := uuid_header generated
  have counted := uuidBytes_length generated
  have front : (10 :: 36 :: (proto.uuid.bytes ++ rest)).take 38 = 10 :: 36 :: proto.uuid.bytes := by
    simp only [List.take_succ_cons]
    rw [List.take_append_of_le_length (by omega),List.take_of_length_le (by omega)]
  intro b member
  rw [opened,advanced_take,front] at member
  obtain ⟨c,inside,low⟩ := advanced_member _ _ member
  rw [low]
  rcases List.mem_cons.mp inside with rfl | inside
  · decide
  · have other := (uuidBytes_member generated c inside).2
    simpa using other

theorem stampWeight_small (message : ChatMessage) : (constructProtoMessage message).stampWeight ≤ 20 := by
  have stamp : ∀ n, (defaultVarint 3 n).length ≤ 11 := by
    intro n
    have short : ∀ count value, (varintBytes count value).length ≤ count := by
      intro count
      induction count with
      | zero => intro value; exact Nat.le_refl _
      | succ count ih =>
        intro value
        rw [varintBytes]
        split
        · simp
        · simp [ih]
    have digits := short 10 n
    have key := key_length (by decide : 3 < 15) .varint
    unfold defaultVarint
    split
    · simp
    · simp only [varintField,List.length_append,key,encodeVarint]
      omega
  have room : (defaultBytes 4 (constructProtoMessage message).roomUuid.bytes).length = 9 := rfl
  have time := stamp (constructProtoMessage message).timestamp.toUInt64.toNat
  rw [ProtoMessage.stampWeight,room]
  omega

-- The misaligned reading passes the uuid without meeting a field of the
-- message, so at most 730 bytes of it can hold the body.
theorem overrun_fields (generated : GenerateUuid message.uuid) (encoded : serializeMessage message = some wire)
    (long : bufferSize < wire.length) : ¬ SameFields message (wire.take bufferSize) := by
  rintro ⟨msg,decoded,uuid,sender,content⟩
  obtain ⟨rfl,fits⟩ := encodeAdu_inv encoded
  obtain ⟨bytes,part,small,parsed⟩ := overrun_read rfl fits long decoded
  obtain ⟨_,longer,_⟩ := overrun_core long
  have same : msg.bodyWeight = (constructProtoMessage message).bodyWeight := by
    rw [ProtoMessage.bodyWeight,uuid,sender,content]
    rfl
  have keys : ∀ b ∈ bytes.take 37, b.toNat%64 ≠ 10 ∧ b.toNat%64 ≠ 18 ∧ b.toNat%64 ≠ 42 := by
    intro b member
    obtain ⟨later,stream⟩ := part
    have wanted := @header_keys (constructProtoMessage message) generated b
    rw [← stream,List.take_append] at wanted
    exact wanted (List.mem_append_left _ member)
  rw [ProtoMessage.decode,← List.take_append_drop 37 bytes] at parsed
  have weight := ProtoMessage.merge_bodyWeight_after _ _ keys parsed
  rw [show ProtoMessage.default.bodyWeight = 0 from rfl,List.length_drop] at weight
  have whole := ProtoMessage.encode_weight (m := constructProtoMessage message) rfl
  have stamp := stampWeight_small message
  omega

theorem overrun_handed (socket : DatagramSocket) (long : bufferSize < wire.length)
    (arrives : Arrives socket (.datagram wire) good) : good (wire.take bufferSize) := by
  obtain ⟨bytes,handed,fine⟩ := arrives _ (.datagram wire)
  rcases socket.cut _ _ long with refused | shorter
  · rw [refused] at handed
    cases handed
  · rw [shorter] at handed
    cases Option.some.inj handed
    exact fine

theorem transports_keep_iff (encoded : serializeMessage message = some wire) (endpoint : Endpoint) (socket : DatagramSocket) :
    sendMessage endpoint message = some (send endpoint wire) ∧
    (Arrives socket (send endpoint wire) (SameMessage message) ↔ IsTcp endpoint ∨ wire.length ≤ bufferSize) ∧
    (IsTcp endpoint ∨ wire.length ≤ bufferSize → Arrives socket (send endpoint wire) fun bytes =>
      SameFields message bytes ∧
      ∀ now peers, deserializeMessage now bytes peers = deserializeMessage now wire peers) ∧
    (GenerateUuid message.uuid →
      (Arrives socket (send endpoint wire) (SameFields message) ↔ IsTcp endpoint ∨ wire.length ≤ bufferSize)) := by
  have kept : IsTcp endpoint ∨ wire.length ≤ bufferSize → Arrives socket (send endpoint wire) (SameMessage message) := by
    intro fine
    cases endpoint with
    | tcp address => exact stream_arrives encoded
    | udp address => exact datagram_arrives encoded (fine.resolve_left id)
    | bp address => exact datagram_arrives encoded (fine.resolve_left id)
  have overrun : ¬(IsTcp endpoint ∨ wire.length ≤ bufferSize) →
      bufferSize < wire.length ∧ send endpoint wire = .datagram wire := by
    intro broken
    refine ⟨by omega,?_⟩
    cases endpoint with
    | tcp address => exact absurd (.inl trivial) broken
    | udp address => rfl
    | bp address => rfl
  refine ⟨by rw [sendMessage,encoded]; rfl,⟨fun arrives => ?_,kept⟩,fun fine handed hands => ?_,fun generated => ⟨fun arrives => ?_,fun fine handed hands => ?_⟩⟩
  · apply Classical.byContradiction
    intro broken
    obtain ⟨long,datagram⟩ := overrun broken
    rw [datagram] at arrives
    have same := overrun_handed socket long arrives
    obtain ⟨rfl,fits⟩ := encodeAdu_inv encoded
    exact overrun_altered rfl fits long same
  · obtain ⟨bytes,given,same⟩ := kept fine handed hands
    exact ⟨bytes,given,same_fields same,same_deserialized encoded same⟩
  · apply Classical.byContradiction
    intro broken
    obtain ⟨long,datagram⟩ := overrun broken
    rw [datagram] at arrives
    exact overrun_fields generated encoded long (overrun_handed socket long arrives)
  · obtain ⟨bytes,given,same⟩ := kept fine handed hands
    exact ⟨bytes,given,same_fields same⟩

theorem transports_keep_iff_check : ∃ wire, serializeMessage checkMessage = some wire ∧
    Arrives bpSocket (.datagram wire) (SameFields checkMessage) := by
  obtain ⟨wire,encoded,fits⟩ : ∃ wire, serializeMessage checkMessage = some wire ∧ wire.length ≤ bufferSize :=
    ⟨(serializeMessage checkMessage).getD [],by decide +kernel⟩
  exact ⟨wire,encoded,((transports_keep_iff encoded (.bp (ascii "ipn:20.1")) bpSocket).2.2.2 (by decide +kernel)).mpr
    (.inr fits)⟩

def longMessage : ChatMessage := {blockingMessage with text := ⟨List.replicate 800 97,by decide +kernel⟩}

theorem long_text_lost : GenerateUuid longMessage.uuid ∧ ∃ wire,
    sendMessage (.udp (ascii "10.0.0.1:7000")) longMessage = some (.datagram wire) ∧ wire.length ≤ 65507 ∧
    Hands udpSocket (.datagram wire) (some (wire.take bufferSize)) ∧
    ∀ now peers, deserializeMessage now (wire.take bufferSize) peers = none := by
  have size : (constructProtoMessage longMessage).encode.length = 864 := by decide +kernel
  have generated : GenerateUuid longMessage.uuid := by decide +kernel
  have encoded : serializeMessage longMessage = some (Base64Text.encode (constructProtoMessage longMessage).encode) :=
    encodeAdu_small (by omega)
  have length := encode_length (constructProtoMessage longMessage).encode
  have long : bufferSize < (Base64Text.encode (constructProtoMessage longMessage).encode).length := by
    rw [length,size]
    decide
  refine ⟨generated,_,by rw [sendMessage,encoded]; rfl,by omega,.datagram _,fun now peers => ?_⟩
  obtain ⟨taken,_,some_left⟩ := overrun_core long
  have front := (List.take_append_drop bufferSize (core (constructProtoMessage longMessage).encode)).symm
  have aligned := first_attempt_refused (show (constructProtoMessage longMessage).content = some _ from rfl)
    (by omega) front some_left
  have misaligned := second_attempt_refused (show GenerateUuid (constructProtoMessage longMessage).uuid from generated)
    ⟨49,by decide +kernel,by decide⟩ front
  rw [taken,deserializeMessage,decodeTolerant_second aligned,misaligned]
  rfl

end DTChat.Transports
