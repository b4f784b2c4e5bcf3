import DTChat.WireRoundTrip

namespace DTChat.WireFraming
open PrefixReader ProtoWire ProtoRecord ClockTime Utf8Text PeerMessages ProtoMessages Base64Text WireCodec WireRoundTrip

inductive SentFrame where
  | chat (message : ChatMessage)
  | ack (uuid : Utf8) (now : UtcNow) (receivedMsg : ChatMessage) (localPeerUuid : Utf8) (isRead : Bool)

def SentFrame.uuid : SentFrame → Utf8
  | .chat message => message.uuid
  | .ack uuid _ _ _ _ => uuid

def SentFrame.proto : SentFrame → ProtoMessage
  | .chat message => constructProtoMessage message
  | .ack uuid now receivedMsg localPeerUuid isRead => createAckMessage uuid now receivedMsg localPeerUuid isRead

def SentFrame.wire : SentFrame → Option (List UInt8)
  | .chat message => serializeMessage message
  | .ack uuid now receivedMsg localPeerUuid isRead => sendAckMessage uuid now receivedMsg localPeerUuid isRead

theorem SentFrame.wire_eq (frame : SentFrame) : frame.wire = encodeAdu frame.proto := by cases frame <;> rfl

theorem SentFrame.proto_uuid (frame : SentFrame) : frame.proto.uuid = frame.uuid := by cases frame <;> rfl

theorem SentFrame.content (frame : SentFrame) : ∃ content, frame.proto.content = some content := by
  cases frame with
  | chat message => exact ⟨_,rfl⟩
  | ack uuid now receivedMsg localPeerUuid isRead => exact ⟨_,rfl⟩

theorem uuidByte_table : ∀ n : Fin 256, (∃ index : Fin 36, uuidByte index (UInt8.ofNat n) = true) →
    32 ≤ (UInt8.ofNat n).toNat%64 ∧ (UInt8.ofNat n).toNat/4 ∉ [10,18,42] := by decide +kernel

theorem uuidBytes_length (shaped : uuidBytes index bytes = true) : index + bytes.length = 36 := by
  induction bytes generalizing index with
  | nil => simpa [uuidBytes] using shaped
  | cons b rest ih =>
    simp only [uuidBytes,Bool.and_eq_true] at shaped
    have later := ih shaped.2
    rw [List.length_cons]
    omega

theorem uuidBytes_member (shaped : uuidBytes index bytes = true) :
    ∀ b ∈ bytes, 32 ≤ b.toNat%64 ∧ b.toNat/4 ∉ [10,18,42] := by
  induction bytes generalizing index with
  | nil => simp
  | cons b rest ih =>
    have counted := uuidBytes_length shaped
    simp only [uuidBytes,Bool.and_eq_true,List.length_cons] at shaped counted
    intro c member
    rcases List.mem_cons.mp member with rfl | member
    · have facts := uuidByte_table ⟨c.toNat,c.toNat_lt⟩
      simp only [UInt8.ofNat_toNat] at facts
      exact facts ⟨⟨index,by omega⟩,shaped.1⟩
    · exact ih shaped.2 c member

theorem uuid_header {proto : ProtoMessage} (generated : GenerateUuid proto.uuid) :
    ∃ rest, proto.encode = 10 :: 36 :: (proto.uuid.bytes ++ rest) := by
  have length : proto.uuid.bytes.length = 36 := by simpa using uuidBytes_length generated
  have nonempty : proto.uuid.bytes ≠ [] := by
    intro empty
    rw [empty] at length
    cases length
  refine ⟨defaultBytes 2 proto.senderUuid.bytes ++ (defaultVarint 3 proto.timestamp.toUInt64.toNat ++
    (defaultBytes 4 proto.roomUuid.bytes ++ encodeContent proto.content)),?_⟩
  have opened : defaultBytes 1 proto.uuid.bytes = 10 :: 36 :: proto.uuid.bytes := by
    rw [defaultBytes,if_neg nonempty,bytesField,length]
    rfl
  simp only [ProtoMessage.encode,ProtoMessage.header,opened,List.append_assoc,List.cons_append]

theorem ProtoMessage.mergeField_varint {m next : ProtoMessage}
    (read : m.mergeField tag .varint bytes = some (next,rest)) : ∃ n, decodeVarint bytes = some (n,rest) := by
  have strings : ∀ text : Utf8, stringValue .varint bytes ≠ some (text,rest) := by
    intro text read
    cases stringValue_inv read
  unfold ProtoMessage.mergeField at read
  split at read
  all_goals obtain ⟨found,value,_⟩ := onRead_inv read
  · exact absurd value (strings found)
  · exact absurd value (strings found)
  · exact ⟨found,value⟩
  · exact absurd value (strings found)
  · obtain ⟨_,body,_⟩ := messageValue_inv value; cases body
  · obtain ⟨_,body,_⟩ := messageValue_inv value; cases body
  · obtain ⟨_,body,_⟩ := messageValue_inv value; cases body
  · obtain ⟨_,body,_⟩ := messageValue_inv value; cases body
  · obtain ⟨⟨n,later⟩,varint,same⟩ := Option.bind_eq_some_iff.mp (show skipValue .varint bytes = some (found,rest) from value)
    cases Option.some.inj same
    exact ⟨n,varint⟩

theorem ProtoMessage.mergeField_endGroup (m : ProtoMessage) (tag : Nat) (bytes : List UInt8) :
    m.mergeField tag .endGroup bytes = none := by
  unfold ProtoMessage.mergeField
  split <;> rfl

def Unended (bytes : List UInt8) : Prop := 10 ≤ bytes.length ∧ ∀ b ∈ bytes.take 10, 128 ≤ b.toNat

theorem Unended.decodeVarint (unended : Unended bytes) : decodeVarint bytes = none :=
  varintFrom_open 10 bytes unended.2

theorem Unended.refused (unended : Unended bytes) (m : ProtoMessage) : ProtoMessage.reader.merge m bytes = none := by
  apply ProtoMessage.reader.merge_refused
  · rintro rfl
    exact absurd unended.1 (by decide)
  · exact record_unkeyed (andThen_none unended.decodeVarint)

-- The six-bit shift turns the two header bytes into `4*first` and 40, and the
-- uuid into bytes with the high bit set. A record cannot start so: its first
-- field is a varint or an end of group, and no further varint ends in the uuid.
theorem shifted_refused (small : first < 64) (unended : Unended bytes) (m : ProtoMessage) :
    ProtoMessage.reader.merge m (UInt8.ofNat (first*4) :: 40 :: bytes) = none := by
  cases merged : ProtoMessage.reader.merge m (UInt8.ofNat (first*4) :: 40 :: bytes) with
  | none => rfl
  | some last =>
    have value : (UInt8.ofNat (first*4)).toNat = first*4 := UInt8.toNat_ofNat_of_lt' (by simp only [UInt8.size]; omega)
    obtain ⟨next,rest,read,_,later⟩ := ProtoMessage.reader.merge_cases (by simp) merged
    obtain ⟨tag,wire,middle,key,field⟩ := record_inv read
    obtain ⟨n,varint,number,_⟩ := decodeKey_inv key
    have quarter : n%8%4 = 0 ∧ (middle = 40 :: bytes ∨ middle = bytes) := by
      rw [decodeVarint,varintFrom] at varint
      split at varint
      · rename_i short
        cases Option.some.inj varint
        exact ⟨by omega,.inl rfl⟩
      · cases Option.some.inj varint
        refine ⟨?_,.inr rfl⟩
        rw [value,show (40 : UInt8).toNat = 40 from rfl]
        omega
    rcases WireType.quarter number quarter.1 with rfl | rfl
    · obtain ⟨count,payload⟩ := ProtoMessage.mergeField_varint field
      rcases quarter.2 with rfl | rfl
      · cases Option.some.inj payload
        rw [unended.refused] at later
        cases later
      · rw [unended.decodeVarint] at payload
        cases payload
    · rw [ProtoMessage.mergeField_endGroup] at field
      cases field

theorem shifted_header (carry : Nat) (rest : List UInt8) :
    shifted carry (10 :: 36 :: rest) = UInt8.ofNat (carry*4) :: 40 :: shifted 36 rest := rfl

theorem uuid_unended {proto : ProtoMessage} (generated : GenerateUuid proto.uuid) (rest : List UInt8) :
    Unended (shifted 36 proto.uuid.bytes ++ rest) := by
  have counted := uuidBytes_length generated
  have length := shifted_length 36 proto.uuid.bytes
  have high := @shifted_high 36 (by decide) (by decide) proto.uuid.bytes
    (fun b member => (uuidBytes_member generated b member).1)
  refine ⟨by rw [List.length_append]; omega,fun b member => ?_⟩
  rw [List.take_append_of_le_length (by omega)] at member
  exact high b (List.mem_of_mem_take member)

theorem decodeAttempt_shifted {proto : ProtoMessage} (generated : GenerateUuid proto.uuid) (first : UInt8)
    (stop : Stops tail) : decodeAttempt (first :: (core proto.encode ++ tail)) = none := by
  cases attempt : decodeAttempt (first :: (core proto.encode ++ tail)) with
  | none => rfl
  | some msg =>
    obtain ⟨bytes,read,parsed,_⟩ := decodeAttempt_inv attempt
    cases member : isSymbol first with
    | false => rw [decodeAdu_outside member] at read; cases read
    | true =>
      have symbols : ∀ b ∈ first :: core proto.encode, isSymbol b = true := by
        intro b inside
        rcases List.mem_cons.mp inside with rfl | inside
        · exact member
        · exact core_symbols _ b inside
      rw [← List.cons_append,decodeAdu_stops symbols stop] at read
      split at read
      · cases read
      · obtain ⟨more,rfl⟩ := readCore_shift member _ read
        obtain ⟨rest,opened⟩ := uuid_header generated
        have small := sextet_lt member
        rw [opened,shifted_header,shifted_append,List.cons_append,List.cons_append,List.append_assoc] at parsed
        have refused := shifted_refused small (uuid_unended generated
          (shifted (carried 36 proto.uuid.bytes) rest ++ more)) .default
        exact absurd (parsed.symm.trans refused) (by simp)

theorem stripped_core (same : core bytes ++ padding length = stripped ++ List.replicate removed pad) :
    ∃ left, stripped = core bytes ++ List.replicate left pad := by
  rcases List.append_eq_append_iff.mp same with ⟨pads,front,back⟩ | ⟨cut,front,back⟩
  · refine ⟨pads.length,?_⟩
    have only : pads = List.replicate pads.length pad := by
      apply List.eq_replicate_of_mem
      intro b member
      apply List.eq_of_mem_replicate
      rw [← padding,back]
      exact List.mem_append_left _ member
    rw [front,← only]
  · refine ⟨0,?_⟩
    have empty : cut = [] := by
      apply List.eq_nil_iff_forall_not_mem.mpr
      intro b member
      have symbol := core_symbols bytes b (by rw [front]; exact List.mem_append_right _ member)
      have padded : b = pad := List.eq_of_mem_replicate (back ▸ List.mem_append_left _ member)
      rw [padded,isSymbol_pad] at symbol
      cases symbol
    rw [front,empty]
    simp

theorem framing_undone (frame : SentFrame) (generated : GenerateUuid frame.uuid) (encoded : frame.wire = some wire)
    (removed : Nat) (kept : wire = stripped ++ List.replicate removed pad) (stop : Stops tail)
    (now : UtcNow) (peers : List Peer) :
    (∀ first : Option UInt8,
      deserializeMessage now (first.toList ++ stripped ++ tail) peers = deserializeMessage now wire peers) ∧
    ∀ symbol, decodeAttempt (symbol :: (stripped ++ tail)) = none := by
  rw [frame.wire_eq] at encoded
  rw [← frame.proto_uuid] at generated
  obtain ⟨content,present⟩ := frame.content
  have whole := deserialize_decoded (decodeTolerant_wire encoded present) now peers
  obtain ⟨same,fits⟩ := encodeAdu_inv encoded
  obtain ⟨left,rfl⟩ := stripped_core (same.symm.trans kept)
  simp only [List.append_assoc]
  have stopped := stops_pads left stop
  have plain := decodeAttempt_wire fits present stopped
  have refused := fun symbol => decodeAttempt_shifted generated symbol stopped
  refine ⟨fun first => ?_,refused⟩
  rw [whole]
  apply deserialize_decoded
  cases first with
  | none => exact decodeTolerant_first plain
  | some first => exact (decodeTolerant_second (refused first)).trans plain

def checkMessage : ChatMessage :=
  ⟨ascii "4a3bf47e-401b-45d1-8b1b-a23e44321065",none,⟨ascii "10",ascii "earth",[],2⟩,ascii "check",
    .sent ⟨1784556001,959000000,by decide,by decide⟩ []⟩

theorem framing_undone_check : ∃ stripped,
    (SentFrame.chat checkMessage).wire = some (stripped ++ List.replicate 1 pad) ∧
    deserializeMessage epoch ([0x5c] ++ stripped ++ [10,0]) [checkMessage.sender] =
      deserializeMessage epoch (stripped ++ List.replicate 1 pad) [checkMessage.sender] := by
  have encoded : (SentFrame.chat checkMessage).wire =
    some (((serializeMessage checkMessage).getD []).dropLast ++ List.replicate 1 pad) := by decide +kernel
  refine ⟨_,encoded,?_⟩
  exact (framing_undone (.chat checkMessage) (by decide +kernel) encoded 1 rfl (stops_cons rfl _) epoch
    [checkMessage.sender]).1 (some 0x5c)

end DTChat.WireFraming
