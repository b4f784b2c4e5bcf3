import DTChat.BpPayload
import DTChat.ProtoWeight
import DTChat.AckReplies

namespace DTChat.FrameLengths
open ClockTime Utf8Text ProtoWire ProtoRecord PeerMessages ProtoMessages WireCodec WireFraming ChatModels MessagePrompts
open NodeRun (earth moon)
open AckReplies (sockets)
open BpPayload (Read frame_wire frame_generated core_unpadded core_pads sending_refused made_leg)
open BpStack (nlaString SdrString SelfDelimited bpSendToEid roomySdr roomy_delimited)

-- What a proto3 field of `n` bytes takes, with its key and its length. An empty one is left out.
def fieldBytes (n : Nat) : Nat := if n = 0 then 0 else n+Nat.log 128 n+2

-- A typed text lies in a record of its own. The uuid takes 38 bytes, the clock
-- reading seven, the room nine, and what an ACK says of the message 42.
def promptBytes (sender text : Nat) : Nat := 56+fieldBytes sender+fieldBytes text+Nat.log 128 (fieldBytes text)
def ackBytes (acker : Nat) : Nat := 96+fieldBytes acker

-- Clock readings from 1971 to 2109, whose milliseconds take six bytes.
def Era (now : UtcNow) : Prop := 2^35 ≤ now.time.timestampMillis.toInt ∧ now.time.timestampMillis.toInt < 2^42

instance (now : UtcNow) : Decidable (Era now) := inferInstanceAs (Decidable (_ ∧ _))

-- What becomes of a frame on the sending leg is decided by its number of bytes: over 189 it is not sent,
-- and what is sent is spared from every heap, or from those that begin with no symbol, by the rest modulo 3.
structure Crossing (sdr : SdrString) (frame : SentFrame) (wire : List UInt8) (bytes : Nat) : Prop where
  counted : frame.proto.encode.length = bytes
  refused : 189 < bytes → ∀ behind beyond, bpSendToEid sdr wire behind beyond = none
  always : ∀ behind beyond adu, bpSendToEid sdr wire behind beyond = some adu →
    ((∀ heap, Read frame (nlaString adu heap)) ↔ bytes % 3 = 1)
  clean : ∀ behind beyond adu, bpSendToEid sdr wire behind beyond = some adu →
    ((∀ heap, Stops heap → Read frame (nlaString adu heap)) ↔ bytes % 3 ≠ 0)

theorem bytesField_length (small : tag < 15) (fits : body.length < 2^64) :
    (bytesField tag body).length = body.length+Nat.log 128 body.length+2 := by
  simp only [bytesField,List.length_append,key_length small,encodeVarint_length fits]
  omega

theorem defaultBytes_length (small : tag < 15) (fits : body.length < 2^64) :
    (defaultBytes tag body).length = fieldBytes body.length := by
  rw [defaultBytes,fieldBytes]
  by_cases blank : body = []
  · simp [blank]
  · rw [if_neg blank,if_neg (by simpa using blank),bytesField_length small fits]

theorem stamp_length (era : Era now) : (defaultVarint 3 now.time.timestampMillis.toUInt64.toNat).length = 7 := by
  obtain ⟨late,early⟩ := era
  have positive : 0 ≤ now.time.timestampMillis := Int64.le_iff_toInt_le.mpr (by simp; omega)
  have same : now.time.timestampMillis.toUInt64.toNat = now.time.timestampMillis.toInt.toNat :=
    (Int64.toNat_toUInt64_of_le positive).trans rfl
  have log : Nat.log 128 now.time.timestampMillis.toUInt64.toNat = 5 := by
    rw [same]
    apply Nat.log_eq_of_pow_le_of_lt_pow <;> omega
  rw [defaultVarint,if_neg (by omega),varintField,List.length_append,key_length (by decide),
    encodeVarint_length (UInt64.toNat_lt _),log]

theorem header_length {proto : ProtoMessage} (generated : GenerateUuid proto.uuid) (era : Era now)
    (stamp : proto.timestamp = now.time.timestampMillis) (room : proto.roomUuid = ascii "default")
    (fits : proto.encode.length < 2^64) : proto.header.length = 54+fieldBytes proto.senderUuid.bytes.length := by
  have counted := uuidBytes_length generated
  have stored := defaultBytes_fits 2 proto.senderUuid.bytes
  simp only [ProtoMessage.encode,ProtoMessage.header,List.length_append] at fits
  have uuid : (defaultBytes 1 proto.uuid.bytes).length = 38 := by
    rw [defaultBytes_length (by decide) (by omega),show proto.uuid.bytes.length = 36 by omega]
    simp [fieldBytes,Nat.log_of_lt]
  have sender : (defaultBytes 2 proto.senderUuid.bytes).length = fieldBytes proto.senderUuid.bytes.length :=
    defaultBytes_length (by decide) (by omega)
  have nine : (defaultBytes 4 (ascii "default").bytes).length = 9 := rfl
  simp only [ProtoMessage.header,List.length_append,uuid,sender,stamp,stamp_length era,room,nine]
  omega

theorem prompt_length {message : ChatMessage} (generated : GenerateUuid message.uuid) (bare : message.response = none)
    (taken : message.shipmentStatus.txTime = now.time) (era : Era now)
    (fits : (constructProtoMessage message).encode.length < 2^64) :
    (constructProtoMessage message).encode.length = promptBytes message.sender.uuid.bytes.length message.text.bytes.length := by
  have stamp : (constructProtoMessage message).timestamp = now.time.timestampMillis := congrArg DateTime.timestampMillis taken
  have header : (constructProtoMessage message).header.length = 54+fieldBytes message.sender.uuid.bytes.length :=
    header_length generated era stamp rfl fits
  have inner : (⟨message.text,message.response⟩ : TextMessage).encode = defaultBytes 1 message.text.bytes := by
    rw [bare]
    exact List.append_nil _
  have whole : (constructProtoMessage message).encode =
      (constructProtoMessage message).header ++ bytesField 5 (defaultBytes 1 message.text.bytes) := by
    rw [← inner]
    rfl
  have stored := defaultBytes_fits 1 message.text.bytes
  have nested := bytesField_fits 5 (defaultBytes 1 message.text.bytes)
  rw [whole,List.length_append] at fits ⊢
  have text := defaultBytes_length (by decide : 1 < 15) (by omega : message.text.bytes.length < 2^64)
  rw [header,bytesField_length (by decide) (by omega),text,promptBytes]
  omega

theorem ack_length {received : ChatMessage} (generated : GenerateUuid uuid) (acked : GenerateUuid received.uuid) (era : Era now)
    (fits : (createAckMessage uuid now received acker false).encode.length < 2^64) :
    (createAckMessage uuid now received acker false).encode.length = ackBytes acker.bytes.length := by
  have header : (createAckMessage uuid now received acker false).header.length = 54+fieldBytes acker.bytes.length :=
    header_length generated era rfl rfl fits
  have counted := uuidBytes_length acked
  have inner : (⟨received.uuid,true,false⟩ : DeliveryStatus).encode.length = 40 := by
    have uuid : (defaultBytes 1 received.uuid.bytes).length = 38 := by
      rw [defaultBytes_length (by decide) (by omega),show received.uuid.bytes.length = 36 by omega]
      simp [fieldBytes,Nat.log_of_lt]
    have flags : (defaultVarint 2 true.toNat ++ defaultVarint 3 false.toNat).length = 2 := rfl
    rw [DeliveryStatus.encode,List.length_append,uuid,flags]
  have content : (bytesField 8 (⟨received.uuid,true,false⟩ : DeliveryStatus).encode).length = 42 := by
    rw [bytesField_length (by decide) (by omega),inner]
    simp [Nat.log_of_lt]
  have whole : (createAckMessage uuid now received acker false).encode =
      (createAckMessage uuid now received acker false).header ++ bytesField 8 (⟨received.uuid,true,false⟩ : DeliveryStatus).encode := rfl
  rw [whole,List.length_append,header,content,ackBytes]
  omega

theorem encode_length (bytes : List UInt8) : (Base64Text.encode bytes).length = 4*((bytes.length+2)/3) := by
  have counted := Base64Text.core_length bytes
  by_cases whole : bytes.length % 3 = 0
  · rw [core_unpadded whole]
    omega
  · have residue : bytes.length % 3 = 1 ∨ bytes.length % 3 = 2 := by omega
    rw [core_pads whole,List.length_append,List.length_replicate]
    rcases residue with one | two <;> omega

theorem frame_crossing (delimited : SelfDelimited sdr) (frame : SentFrame) (generated : GenerateUuid frame.uuid)
    (encoded : frame.wire = some wire) (counted : frame.proto.encode.length = bytes) : Crossing sdr frame wire bytes := by
  obtain ⟨content,present⟩ := frame.content
  obtain ⟨rfl,fits⟩ := frame_wire encoded
  subst counted
  refine ⟨rfl,fun long => sending_refused delimited ?_,fun _ _ _ made => ?_,fun _ _ _ made => ?_⟩
  · rw [encode_length]
    omega
  · exact (made_leg delimited (frame_generated generated) fits present made).1
  · exact (made_leg delimited (frame_generated generated) fits present made).2

theorem short_field (positive : 0 < n) (short : n < 128) : fieldBytes n = n+2 := by
  rw [fieldBytes,if_neg (by omega),Nat.log_of_lt short]

theorem short_prompt (positive : 0 < sender) (small : sender < 128) (typed : 0 < text) (short : text < 126) :
    promptBytes sender text = 60+sender+text := by
  rw [promptBytes,short_field positive small,short_field typed (by omega),Nat.log_of_lt (by omega)]
  omega

theorem short_ack (positive : 0 < acker) (small : acker < 128) : ackBytes acker = 98+acker := by
  rw [ackBytes,short_field positive small]
  omega

theorem prompt_crosses {task : ChatTask} (delimited : SelfDelimited sdr) (generated : GenerateUuid uuid) (era : Era now)
    (spawned : task ∈ (manageSend platform predict model ⟨uuid,none,model.localpeer,text,.sent now.time []⟩).2)
    (encoded : serializeMessage task.message = some wire) :
    Crossing sdr (.chat task.message) wire (promptBytes model.localpeer.uuid.bytes.length text.bytes.length) ∧
    ∀ (received : ChatMessage) ackUuid ackNow acker reply, received.uuid = uuid → GenerateUuid ackUuid → Era ackNow →
      sendAckMessage ackUuid ackNow received acker false = some reply →
      Crossing sdr (.ack ackUuid ackNow received acker false) reply (ackBytes acker.bytes.length) := by
  have message := (sendToPeers_tasks _ _ _ _ task spawned).1
  constructor
  · rw [message] at encoded ⊢
    refine frame_crossing delimited (.chat _) generated encoded ?_
    exact prompt_length generated rfl rfl era (encodeAdu_inv encoded).2
  · rintro received ackUuid ackNow acker reply rfl fresh later replied
    refine frame_crossing delimited (.ack _ _ _ _ _) fresh replied ?_
    exact ack_length fresh generated later (encodeAdu_inv replied).2

def bpMoon : Peer := {moon with endpoints := [.bp (ascii "ipn:20.2")]}

def typedAt : UtcNow := ⟨⟨1784556123,456000000,by decide,by decide⟩,by decide⟩

def typedTasks : List ChatTask :=
  (manageSend sockets (fun _ => none) (ChatModel.new [earth,bpMoon] earth)
    ⟨checkMessage.uuid,none,earth,ascii "check",.sent typedAt.time []⟩).2

theorem prompt_crosses_check : ∃ task ∈ typedTasks, ∃ wire adu, serializeMessage task.message = some wire ∧
    bpSendToEid roomySdr wire [] [] = some adu ∧ (∀ heap, Read (.chat task.message) (nlaString adu heap)) ∧
    ∀ (received : ChatMessage) ackUuid ackNow reply behind beyond sent, received.uuid = checkMessage.uuid →
      GenerateUuid ackUuid → Era ackNow → sendAckMessage ackUuid ackNow received moon.uuid false = some reply →
      bpSendToEid roomySdr reply behind beyond = some sent →
      ∀ heap, Read (.ack ackUuid ackNow received moon.uuid false) (nlaString sent heap) := by
  obtain ⟨task,member,sends⟩ : ∃ task ∈ typedTasks,
      ((serializeMessage task.message).bind fun wire => bpSendToEid roomySdr wire [] []).isSome := by decide +kernel
  obtain ⟨adu,whole⟩ := Option.isSome_iff_exists.mp sends
  obtain ⟨wire,encoded,made⟩ := Option.bind_eq_some_iff.mp whole
  have generated : GenerateUuid checkMessage.uuid := by decide +kernel
  have legs := prompt_crosses roomy_delimited generated (by decide) member encoded
  refine ⟨task,member,wire,adu,encoded,made,?_,?_⟩
  · refine (legs.1.always [] [] adu made).mpr ?_
    exact congrArg (· % 3) (short_prompt (by decide) (by decide) (by decide) (by decide))
  · intro received ackUuid ackNow reply behind beyond sent same fresh later replied went
    have ack := legs.2 received ackUuid ackNow moon.uuid reply same fresh later replied
    exact (ack.always behind beyond sent went).mpr (congrArg (· % 3) (short_ack (by decide) (by decide)))

end DTChat.FrameLengths
