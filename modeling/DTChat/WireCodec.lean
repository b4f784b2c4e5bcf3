import DTChat.ProtoRoundTrip
import DTChat.PeerMessages
import DTChat.Lib.Base64Text

namespace DTChat.WireCodec
open ClockTime Utf8Text PeerMessages ProtoMessages Base64Text

-- utils/proto.rs
inductive DeserializedMessage where
  | chatMessage (message : ChatMessage)
  | ack (messageUuid : Utf8) (isRead : Bool) (ackTime : DateTime) (ackerUuid : Utf8)
  deriving DecidableEq

def constructProtoMessage (message : ChatMessage) : ProtoMessage :=
  ⟨message.uuid,message.sender.uuid,message.shipmentStatus.txTime.timestampMillis,ascii "default",
    some (.text ⟨message.text,message.response⟩)⟩

-- utils/ack.rs. The fresh uuid and the clock reading are arguments.
def createAckMessage (uuid : Utf8) (now : UtcNow) (receivedMsg : ChatMessage) (localPeerUuid : Utf8)
    (isRead : Bool) : ProtoMessage :=
  ⟨uuid,localPeerUuid,now.time.timestampMillis,ascii "default",some (.delivery ⟨receivedMsg.uuid,true,isRead⟩)⟩

-- A buffer above `isize::MAX` bytes is a capacity panic.
def capacityLimit : Nat := 2^63-1

def allocated (bytes : List UInt8) : Option (List UInt8) :=
  if bytes.length ≤ capacityLimit then some bytes else none

def encodeAdu (proto : ProtoMessage) : Option (List UInt8) :=
  (allocated proto.encode).bind fun buf => allocated (Base64Text.encode buf)

def serializeMessage (message : ChatMessage) : Option (List UInt8) := encodeAdu (constructProtoMessage message)

def sendAckMessage (uuid : Utf8) (now : UtcNow) (receivedMsg : ChatMessage) (localPeerUuid : Utf8)
    (isRead : Bool) : Option (List UInt8) :=
  encodeAdu (createAckMessage uuid now receivedMsg localPeerUuid isRead)

def runByte (b : UInt8) : Bool := isSymbol b || b == pad

-- `while normalised.len() % 4 != 0`; three rounds always reach a multiple of four.
def repad : Nat → List UInt8 → List UInt8
  | 0,normalised => normalised
  | rounds+1,normalised => if normalised.length % 4 ≠ 0 then repad rounds (normalised ++ [pad]) else normalised

def decodeAduBase64 (buf : List UInt8) : Option (List UInt8) :=
  let run := buf.takeWhile runByte
  let core := run.takeWhile (· ≠ pad)
  if core.length = 0 ∨ core.length % 4 = 1 then none else Base64Text.decode (repad 3 core)

def decodeAttempt (buf : List UInt8) : Option ProtoMessage :=
  (decodeAduBase64 buf).bind fun bytes =>
    (ProtoMessage.decode bytes).bind fun msg => if msg.content.isSome then some msg else none

def decodeStarts (buf : List UInt8) : List Nat → Option ProtoMessage
  | [] => none
  | start :: later =>
    if buf.length ≤ start then none
    else match decodeAttempt (buf.drop start) with
      | some msg => some msg
      | none => decodeStarts buf later

def decodeProtoTolerant (buf : List UInt8) : Option ProtoMessage := decodeStarts buf [0,1]

def findPeerById (peers : List Peer) (id : Utf8) : Option Peer := peers.find? fun p => p.uuid = id

def extractMessageFromProto (now : UtcNow) (proto : ProtoMessage) (peers : List Peer) : Option DeserializedMessage :=
  let sender := (findPeerById peers proto.senderUuid).getD .default
  let chat (text : Utf8) (replyTo : Option Utf8) : Option DeserializedMessage :=
    (DateTime.timestampMillisOpt proto.timestamp).map fun tx =>
      .chatMessage ⟨proto.uuid,replyTo,sender,text,.received tx now.time⟩
  match proto.content with
  | none => none
  | some (.delivery status) => (DateTime.timestampMillisOpt proto.timestamp).map fun ackTime =>
      .ack status.messageUuid status.read ackTime proto.senderUuid
  | some (.text message) => chat message.content message.replyToUuid
  | some (.file _) => chat (ascii "File transfer (not implemented for display)") none
  | some (.presence _) => chat (ascii "Presence update (not implemented for display)") none

def deserializeMessage (now : UtcNow) (buf : List UInt8) (peers : List Peer) : Option DeserializedMessage :=
  (decodeProtoTolerant buf).bind fun proto => extractMessageFromProto now proto peers

-- Text form of `Uuid::new_v4`: 36 characters, lowercase hex digits with hyphens.
def hexDigit (b : UInt8) : Bool := (48 ≤ b && b ≤ 57) || (97 ≤ b && b ≤ 102)
def uuidByte (index : Nat) (b : UInt8) : Bool := if index ∈ [8,13,18,23] then b == 45 else hexDigit b

def uuidBytes : Nat → List UInt8 → Bool
  | index,[] => index == 36
  | index,b :: rest => uuidByte index b && uuidBytes (index+1) rest

def GenerateUuid (uuid : Utf8) : Prop := uuidBytes 0 uuid.bytes = true

instance (uuid : Utf8) : Decidable (GenerateUuid uuid) := inferInstanceAs (Decidable (_ = true))

theorem repad_padding (normalised : List UInt8) : repad 3 normalised = normalised ++ padding normalised.length := by
  have small := Nat.mod_lt normalised.length (by decide : 0 < 4)
  have residue : normalised.length % 4 = 0 ∨ normalised.length % 4 = 1 ∨ normalised.length % 4 = 2 ∨
    normalised.length % 4 = 3 := by omega
  rcases residue with zero | one | two | three
  · simp [repad,padding,zero]
  · have next : (normalised.length+1) % 4 = 2 ∧ (normalised.length+1+1) % 4 = 3 := by omega
    simp [repad,padding,one,next]
  · have next : (normalised.length+1) % 4 = 3 ∧ (normalised.length+1+1) % 4 = 0 := by omega
    simp [repad,padding,two,next]
  · have next : (normalised.length+1) % 4 = 0 := by omega
    simp [repad,padding,three,next]

def symbolRun (buf : List UInt8) : List UInt8 := buf.takeWhile isSymbol

theorem symbolRun_core (buf : List UInt8) : (buf.takeWhile runByte).takeWhile (· ≠ pad) = symbolRun buf := by
  induction buf with
  | nil => rfl
  | cons b rest ih =>
    rw [symbolRun] at ih ⊢
    by_cases here : b = pad
    · subst here; rfl
    · by_cases member : isSymbol b = true
      · simp only [List.takeWhile_cons,runByte,member,Bool.true_or,↓reduceIte,decide_not] at ih ⊢
        simp [here,ih]
      · simp [runByte,member,here]

theorem symbolRun_symbols (buf : List UInt8) : ∀ b ∈ symbolRun buf, isSymbol b = true :=
  fun _ member => List.all_eq_true.mp (List.all_takeWhile) _ member

theorem decodeAdu_run (buf : List UInt8) : decodeAduBase64 buf =
    if (symbolRun buf).length = 0 ∨ (symbolRun buf).length % 4 = 1 then none else readCore (symbolRun buf) := by
  simp only [decodeAduBase64,symbolRun_core,repad_padding]
  split
  · rfl
  · rename_i usable
    exact decode_padded (symbolRun_symbols buf) (fun one => usable (.inr one))

def Stops (tail : List UInt8) : Prop := ∀ b ∈ tail.head?, isSymbol b = false

theorem stops_nil : Stops [] := by
  intro b member
  cases member

theorem stops_cons (outside : isSymbol b = false) (rest : List UInt8) : Stops (b :: rest) := by
  intro c member
  cases Option.some.inj member
  exact outside

theorem stops_pads (count : Nat) (stop : Stops tail) : Stops (List.replicate count pad ++ tail) := by
  cases count with
  | zero => exact stop
  | succ count => exact stops_cons isSymbol_pad _

theorem symbolRun_append (symbols : ∀ b ∈ body, isSymbol b = true) (rest : List UInt8) :
    symbolRun (body ++ rest) = body ++ symbolRun rest := List.takeWhile_append_of_pos symbols

theorem symbolRun_stops (stop : Stops tail) : symbolRun tail = [] := by
  cases tail with
  | nil => rfl
  | cons b rest => simp [symbolRun,stop b rfl]

theorem decodeAdu_stops (symbols : ∀ b ∈ body, isSymbol b = true) (stop : Stops tail) :
    decodeAduBase64 (body ++ tail) =
      if body.length = 0 ∨ body.length % 4 = 1 then none else readCore body := by
  rw [decodeAdu_run,symbolRun_append symbols,symbolRun_stops stop,List.append_nil]

theorem decodeAdu_core (bytes : List UInt8) (nonempty : bytes ≠ []) (stop : Stops tail) :
    decodeAduBase64 (core bytes ++ tail) = some bytes := by
  have positive := List.length_pos_iff.mpr (core_ne_nil bytes nonempty)
  rw [decodeAdu_stops (core_symbols bytes) stop,if_neg,readCore_core]
  rintro (empty | one)
  · omega
  · exact core_mod bytes one

theorem decodeAdu_outside (outside : isSymbol b = false) (rest : List UInt8) :
    decodeAduBase64 (b :: rest) = none := by
  rw [decodeAdu_run,symbolRun_stops (stops_cons outside rest)]
  rfl

theorem decodeAttempt_some (read : decodeAduBase64 buf = some bytes) (parsed : ProtoMessage.decode bytes = some msg)
    (content : msg.content = some found) : decodeAttempt buf = some msg := by
  simp only [decodeAttempt,read,parsed,content,Option.bind_some,Option.isSome_some,↓reduceIte]

theorem decodeAttempt_inv (attempt : decodeAttempt buf = some msg) :
    ∃ bytes, decodeAduBase64 buf = some bytes ∧ ProtoMessage.decode bytes = some msg ∧ msg.content.isSome := by
  obtain ⟨bytes,read,later⟩ := Option.bind_eq_some_iff.mp attempt
  obtain ⟨found,parsed,kept⟩ := Option.bind_eq_some_iff.mp later
  split at kept
  · rename_i content
    cases Option.some.inj kept
    exact ⟨bytes,read,parsed,content⟩
  · cases kept

theorem decodeTolerant_first (attempt : decodeAttempt buf = some msg) : decodeProtoTolerant buf = some msg := by
  cases buf with
  | nil => cases attempt
  | cons b rest => simp [decodeProtoTolerant,decodeStarts,attempt]

theorem decodeTolerant_second (refused : decodeAttempt buf = none) : decodeProtoTolerant buf = decodeAttempt buf.tail := by
  cases buf with
  | nil => rfl
  | cons b rest =>
    simp only [decodeProtoTolerant,decodeStarts,List.drop_zero,refused,List.length_cons,List.drop_one,List.tail_cons]
    cases rest with
    | nil => rfl
    | cons c more =>
      rw [if_neg (by omega),if_neg (by rw [List.length_cons]; omega)]
      cases decodeAttempt (c :: more) <;> rfl

theorem allocated_inv (given : allocated bytes = some kept) : kept = bytes ∧ bytes.length ≤ capacityLimit := by
  unfold allocated at given
  split at given
  · cases Option.some.inj given; exact ⟨rfl,by assumption⟩
  · cases given

theorem encodeAdu_inv (encoded : encodeAdu proto = some wire) :
    wire = Base64Text.encode proto.encode ∧ proto.encode.length < 2^64 := by
  obtain ⟨buf,first,second⟩ := Option.bind_eq_some_iff.mp encoded
  obtain ⟨rfl,small⟩ := allocated_inv first
  obtain ⟨rfl,_⟩ := allocated_inv second
  exact ⟨rfl,by simp only [capacityLimit] at small; omega⟩

theorem encodeAdu_small {proto : ProtoMessage} (small : proto.encode.length ≤ 2^32) :
    encodeAdu proto = some (Base64Text.encode proto.encode) := by
  have wide := encode_length proto.encode
  have buffer : proto.encode.length ≤ capacityLimit := by simp only [capacityLimit]; omega
  have text : (Base64Text.encode proto.encode).length ≤ capacityLimit := by simp only [capacityLimit]; omega
  simp only [encodeAdu,allocated,if_pos buffer,if_pos text,Option.bind_some]

theorem content_nonempty (content : Content) : content.encode ≠ [] := by
  have key : ∀ tag body, ProtoRecord.bytesField tag body ≠ [] := by
    intro tag body empty
    have counted := congrArg List.length empty
    have positive := ProtoWire.encodeVarint_positive body.length
    simp only [ProtoRecord.bytesField,List.length_append,List.length_nil] at counted
    omega
  cases content <;> exact key _ _

theorem proto_nonempty {proto : ProtoMessage} (content : proto.content = some found) : proto.encode ≠ [] := by
  rw [ProtoMessage.encode,content]
  intro empty
  exact content_nonempty found (List.append_eq_nil_iff.mp empty).2

theorem decodeAttempt_wire {proto : ProtoMessage} (fits : proto.encode.length < 2^64)
    (content : proto.content = some found) (stop : Stops tail) :
    decodeAttempt (core proto.encode ++ tail) = some proto :=
  decodeAttempt_some (decodeAdu_core proto.encode (proto_nonempty content) stop) (ProtoMessage.decode_encode proto fits) content

theorem stops_padding (length : Nat) : Stops (padding length) := by
  have pads := stops_pads ((4 - length % 4) % 4) stops_nil
  rwa [List.append_nil] at pads

theorem decodeTolerant_wire {proto : ProtoMessage} (encoded : encodeAdu proto = some wire)
    (content : proto.content = some found) : decodeProtoTolerant wire = some proto := by
  obtain ⟨rfl,fits⟩ := encodeAdu_inv encoded
  exact decodeTolerant_first (decodeAttempt_wire fits content (stops_padding _))

theorem deserialize_decoded (decoded : decodeProtoTolerant buf = some proto) (now : UtcNow) (peers : List Peer) :
    deserializeMessage now buf peers = extractMessageFromProto now proto peers := by
  rw [deserializeMessage,decoded,Option.bind_some]

end DTChat.WireCodec
