import DTChat.WireFraming

namespace DTChat.StrayBytes
open ProtoWire ProtoRecord ClockTime Utf8Text PeerMessages ProtoMessages Base64Text WireCodec WireRoundTrip WireFraming

theorem stop_harmless (encoded : serializeMessage message = some wire) (stop : Stops stray) (now : UtcNow)
    (peers : List Peer) : deserializeMessage now (wire ++ stray) peers = deserializeMessage now wire peers := by
  have whole := deserialize_decoded (decodeTolerant_wire encoded rfl) now peers
  obtain ⟨rfl,fits⟩ := encodeAdu_inv encoded
  rw [whole,Base64Text.encode,List.append_assoc]
  apply deserialize_decoded
  exact decodeTolerant_first (decodeAttempt_wire fits rfl (stops_pads _ stop))

theorem padded_harmless (encoded : serializeMessage message = some wire)
    (padded : (constructProtoMessage message).encode.length % 3 ≠ 0) (stray : List UInt8) (now : UtcNow)
    (peers : List Peer) : deserializeMessage now (wire ++ stray) peers = deserializeMessage now wire peers := by
  have whole := deserialize_decoded (decodeTolerant_wire encoded rfl) now peers
  obtain ⟨rfl,fits⟩ := encodeAdu_inv encoded
  have counted := core_length (constructProtoMessage message).encode
  have pads : ∃ more, padding (core (constructProtoMessage message).encode).length = pad :: more := by
    have some_pad : 0 < (4 - (core (constructProtoMessage message).encode).length % 4) % 4 := by omega
    obtain ⟨more,same⟩ := Nat.exists_eq_succ_of_ne_zero (Nat.ne_of_gt some_pad)
    exact ⟨_,by rw [padding,same,List.replicate_succ]⟩
  obtain ⟨more,pads⟩ := pads
  rw [whole,Base64Text.encode,pads,List.append_assoc,List.cons_append]
  apply deserialize_decoded
  exact decodeTolerant_first (decodeAttempt_wire fits rfl (stops_cons isSymbol_pad _))

-- An unpadded wire is only a stream that may go on: symbols after it are read
-- as more fields of the record.
def overriding : List UInt8 := [10,1,0x78,24,0x80,0]

theorem overriding_merged (m : ProtoMessage) :
    ProtoMessage.reader.merge m overriding = some ⟨ascii "x",m.senderUuid,0,m.roomUuid,m.content⟩ := rfl

theorem epoch_read : DateTime.timestampMillisOpt 0 = some epoch.time := by decide +kernel

theorem extract_overridden (message : ChatMessage) (now : UtcNow) (peers : List Peer) :
    extractMessageFromProto now ⟨ascii "x",message.sender.uuid,0,ascii "default",
      (constructProtoMessage message).content⟩ peers =
    some (.chatMessage ⟨ascii "x",message.response,(findPeerById peers message.sender.uuid).getD .default,
      message.text,.received epoch.time now.time⟩) := by
  simp only [extractMessageFromProto,constructProtoMessage,epoch_read,Option.map_some]

theorem unpadded_joined {proto : ProtoMessage} (fits : proto.encode.length < 2^64)
    (whole : proto.encode.length % 3 = 0) (content : proto.content = some found) :
    decodeProtoTolerant (core proto.encode ++ core overriding) =
      some ⟨ascii "x",proto.senderUuid,0,proto.roomUuid,proto.content⟩ := by
  have counted := core_length proto.encode
  have symbols : ∀ b ∈ core proto.encode ++ core overriding, isSymbol b = true := by
    intro b member
    rcases List.mem_append.mp member with member | member
    · exact core_symbols _ b member
    · exact core_symbols _ b member
  have read : decodeAduBase64 (core proto.encode ++ core overriding) = some (proto.encode ++ overriding) := by
    have run := decodeAdu_stops symbols stops_nil
    rw [List.append_nil] at run
    have eight : (core overriding).length = 8 := rfl
    rw [run,if_neg (by rw [List.length_append]; omega),readCore_append _ _ whole,readCore_core]
    rfl
  apply decodeTolerant_first
  refine decodeAttempt_some read ?_ content
  rw [ProtoMessage.decode_append proto fits,overriding_merged]

theorem unpadded_altered (generated : GenerateUuid message.uuid) (encoded : serializeMessage message = some wire)
    (unpadded : (constructProtoMessage message).encode.length % 3 = 0) (now : UtcNow) (peers : List Peer) :
    deserializeMessage now (wire ++ core overriding) peers ≠ deserializeMessage now wire peers := by
  have plain := deserialize_chat encoded now peers
  obtain ⟨rfl,fits⟩ := encodeAdu_inv encoded
  have counted := core_length (constructProtoMessage message).encode
  have nothing : padding (core (constructProtoMessage message).encode).length = [] := by
    rw [padding,show (4 - (core (constructProtoMessage message).encode).length % 4) % 4 = 0 by omega]
    rfl
  have bare : Base64Text.encode (constructProtoMessage message).encode = core (constructProtoMessage message).encode := by
    rw [Base64Text.encode,nothing,List.append_nil]
  have joined := deserialize_decoded (unpadded_joined fits unpadded rfl) now peers
  rw [bare] at plain ⊢
  rw [joined,plain]
  intro same
  obtain ⟨tx,_,read⟩ := Option.map_eq_some_iff.mp (same.symm.trans (extract_overridden message now peers))
  simp only [DeserializedMessage.chatMessage.injEq,received,ChatMessage.mk.injEq] at read
  have length := uuidBytes_length generated
  rw [read.1] at length
  cases length

theorem stray_harmless_iff (generated : GenerateUuid message.uuid) (encoded : serializeMessage message = some wire) :
    ((∀ stray now peers, deserializeMessage now (wire ++ stray) peers = deserializeMessage now wire peers) ↔
      (constructProtoMessage message).encode.length % 3 ≠ 0) ∧
    ∀ stray, Stops stray → ∀ now peers,
      deserializeMessage now (wire ++ stray) peers = deserializeMessage now wire peers := by
  refine ⟨⟨fun harmless unpadded => ?_,fun padded stray now peers => ?_⟩,fun stray stop now peers => ?_⟩
  · exact unpadded_altered generated encoded unpadded epoch [] (harmless _ epoch [])
  · exact padded_harmless encoded padded stray now peers
  · exact stop_harmless encoded stop now peers

theorem stray_harmless_iff_check : ∃ wire, serializeMessage checkMessage = some wire ∧
    ∀ stray now peers, deserializeMessage now (wire ++ stray) peers = deserializeMessage now wire peers := by
  obtain ⟨wire,encoded⟩ := Option.isSome_iff_exists.mp (by decide +kernel : (serializeMessage checkMessage).isSome)
  exact ⟨wire,encoded,(stray_harmless_iff (by decide +kernel) encoded).1.mpr (by decide +kernel)⟩

def helpMessage : ChatMessage := {checkMessage with text := ascii "help"}

def helpWire : List UInt8 := (serializeMessage helpMessage).getD []

theorem stray_byte_loses_help : GenerateUuid helpMessage.uuid ∧ serializeMessage helpMessage = some helpWire ∧
    (deserializeMessage epoch helpWire [helpMessage.sender]).isSome ∧
    deserializeMessage epoch (helpWire ++ [85,0]) [helpMessage.sender] = none := by decide +kernel

end DTChat.StrayBytes
