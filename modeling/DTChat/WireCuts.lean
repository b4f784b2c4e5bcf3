import DTChat.WireFraming

namespace DTChat.WireCuts
open PrefixReader ProtoWire ProtoRecord ClockTime Utf8Text PeerMessages ProtoMessages Base64Text WireCodec
open WireRoundTrip WireFraming

theorem content_kept {m next : ProtoMessage} (present : m.content.isSome)
    (read : ProtoMessage.reader.read m bytes = some (next,rest)) : next.content.isSome := by
  obtain ⟨tag,wire,middle,_,field⟩ := record_inv read
  unfold ProtoMessage.mergeField at field
  split at field
  all_goals obtain ⟨found,_,rfl⟩ := onRead_inv field
  · exact present
  · exact present
  · exact present
  · exact present
  · rfl
  · rfl
  · rfl
  · rfl
  · exact present

theorem content_persists {m last : ProtoMessage} (present : m.content.isSome)
    (merged : ProtoMessage.reader.merge m bytes = some last) : last.content.isSome :=
  ProtoMessage.reader.merge_preserves (fun s => s.content.isSome) (fun _ _ _ _ => content_kept) present merged

theorem front_contentless {m msg last : ProtoMessage} (whole : ProtoMessage.reader.merge m (front ++ back) = some last)
    (blank : last.content = none) (merged : ProtoMessage.reader.merge m front = some msg) : msg.content = none := by
  cases present : msg.content with
  | none => rfl
  | some found =>
    rw [ProtoMessage.reader.merge_append merged] at whole
    have stays := content_persists (by rw [present]; rfl) whole
    rw [blank] at stays
    cases stays

-- The content is the last field, so a protobuf that lost bytes at its end has none.
theorem decode_cut {proto : ProtoMessage} (content : proto.content = some found) (fits : proto.encode.length < 2^64)
    (cut : proto.encode = kept ++ lost) (some_lost : lost ≠ []) (decoded : ProtoMessage.decode kept = some msg) :
    msg.content = none := by
  have header : proto.header.length < 2^64 := by
    rw [ProtoMessage.encode,List.length_append] at fits
    omega
  have opened := ProtoMessage.merge_header proto header
  rw [ProtoMessage.encode,content] at cut fits
  rcases List.append_eq_append_iff.mp cut with ⟨part,front,back⟩ | ⟨part,front,back⟩
  · rw [front,ProtoMessage.decode,opened] at decoded
    by_cases empty : part = []
    · subst empty
      cases Option.some.inj decoded
      rfl
    · have read := Content.read_encode {proto with content := none} found rfl
        (by simp only [encodeContent,List.length_append] at fits; omega) []
      rw [List.append_nil,show found.encode = part ++ lost from back] at read
      rw [ProtoMessage.reader.merge_cut read empty some_lost] at decoded
      cases decoded
  · have whole := opened []
    rw [List.append_nil,front] at whole
    exact front_contentless whole rfl decoded

theorem cut_core (cut : core bytes ++ padding length = kept ++ lost) (symbol : lost.any (· ≠ pad) = true) :
    ∃ part, core bytes = kept ++ part ∧ part ≠ [] := by
  obtain ⟨b,member,other⟩ := List.any_eq_true.mp symbol
  have other : b ≠ pad := of_decide_eq_true other
  rcases List.append_eq_append_iff.mp cut with ⟨part,front,back⟩ | ⟨part,front,back⟩
  · have padded : b ∈ padding length := by rw [back]; exact List.mem_append_right _ member
    exact absurd (List.eq_of_mem_replicate padded) other
  · refine ⟨part,front,?_⟩
    rintro rfl
    rw [List.nil_append] at back
    rw [back] at member
    exact absurd (List.eq_of_mem_replicate member) other

theorem cut_symbols (front : core bytes = kept ++ part) : ∀ b ∈ kept, isSymbol b = true := by
  intro b member
  exact core_symbols bytes b (by rw [front]; exact List.mem_append_left _ member)

theorem cut_taken (front : core bytes = kept ++ part) : kept = (core bytes).take kept.length := by
  rw [front,List.take_left]

theorem first_attempt_refused {proto : ProtoMessage} (content : proto.content = some found)
    (fits : proto.encode.length < 2^64) (front : core proto.encode = kept ++ part) (some_part : part ≠ []) :
    decodeAttempt kept = none := by
  cases attempt : decodeAttempt kept with
  | none => rfl
  | some msg =>
    obtain ⟨bytes,read,parsed,present⟩ := decodeAttempt_inv attempt
    have run := decodeAdu_stops (cut_symbols front) stops_nil
    rw [List.append_nil,read] at run
    split at run
    · cases run
    · have shorter : kept.length < (core proto.encode).length := by
        have := List.length_pos_iff.mpr some_part
        rw [front,List.length_append]
        omega
      rw [cut_taken front] at run
      obtain ⟨lost,some_lost,same⟩ := readCore_cut proto.encode shorter run.symm
      rw [decode_cut content fits same some_lost parsed] at present
      cases present

theorem uuidBytes_get (shaped : uuidBytes index bytes = true) (here : bytes[k]? = some b) :
    uuidByte (index+k) b = true := by
  induction bytes generalizing index k with
  | nil => cases here
  | cons c rest ih =>
    simp only [uuidBytes,Bool.and_eq_true] at shaped
    cases k with
    | zero => cases Option.some.inj here; exact shaped.1
    | succ k =>
      have later := ih shaped.2 here
      rwa [Nat.add_right_comm] at later

-- Two characters of a uuid decide the misaligned reading: the first, a hex
-- digit, and the one after the hyphen.
theorem uuid_split {uuid : Utf8} (generated : GenerateUuid uuid) (read : uuid.bytes[9]? = some tenth) :
    ∃ first front back, uuid.bytes = first :: (front ++ 45 :: tenth :: back) ∧ front.length = 7 ∧ hexDigit first = true := by
  have counted := uuidBytes_length generated
  have hyphen : uuid.bytes[8]? = some 45 := by
    rw [List.getElem?_eq_getElem (by omega)]
    have shaped := uuidBytes_get generated (List.getElem?_eq_getElem (by omega : 8 < uuid.bytes.length))
    simpa [uuidByte] using shaped
  cases bytes : uuid.bytes with
  | nil => rw [bytes] at counted; cases counted
  | cons first rest =>
    rw [bytes] at hyphen read counted
    simp only [List.getElem?_cons_succ,List.length_cons] at hyphen read counted
    have shaped := uuidBytes_get generated (show uuid.bytes[0]? = some first by rw [bytes]; rfl)
    refine ⟨first,rest.take 7,rest.drop 9,?_,by simp; omega,by simpa [uuidByte] using shaped⟩
    obtain ⟨inside,eight⟩ := List.getElem?_eq_some_iff.mp hyphen
    obtain ⟨within,nine⟩ := List.getElem?_eq_some_iff.mp read
    rw [← eight,← nine,← List.drop_eq_getElem_cons within,← List.drop_eq_getElem_cons inside,List.take_append_drop]

theorem hexDigit_table : ∀ n : Fin 256, hexDigit (UInt8.ofNat n) = true →
    12 ≤ (UInt8.ofNat n).toNat/4 ∧ (UInt8.ofNat n).toNat/4 < 128 := by decide +kernel

theorem mergeField_unknown (m : ProtoMessage) (unknown : 8 < tag) (wire : WireType) :
    m.mergeField tag wire = onRead (fun _ => m) (skipField recursionLimit tag wire) := by
  unfold ProtoMessage.mergeField
  split
  all_goals first | omega | rfl

theorem advanced_first (m : ProtoMessage) (low : 12 ≤ second.toNat) (high : second.toNat < 128)
    (eight : body.length = 8) (rest : List UInt8) :
    ProtoMessage.reader.read m (0x89 :: second :: (body ++ rest)) = some (m,rest) := by
  have key : decodeKey (0x89 :: second :: (body ++ rest)) =
      some ((16*second.toNat+1,.sixtyFourBit),body ++ rest) := by
    have varint : decodeVarint (0x89 :: second :: (body ++ rest)) = some (9+128*second.toNat,body ++ rest) := by
      simp [decodeVarint,varintFrom,high]
    rw [decodeKey,andThen_some varint,keyOf,if_neg (by omega),show (9+128*second.toNat)%8 = 1 by omega,
      show (9+128*second.toNat)/8 = 16*second.toNat+1 by omega]
    rfl
  have skipped : skipField recursionLimit (16*second.toNat+1) .sixtyFourBit (body ++ rest) = some ((),rest) := by
    have taken := takeBytes_append body rest
    rw [eight] at taken
    change andThen (takeBytes 8) (fun _ => accept ()) (body ++ rest) = some ((),rest)
    rw [andThen_some taken]
    rfl
  change andThen decodeKey (fun key => m.mergeField key.1 key.2) _ = _
  rw [andThen_some key,mergeField_unknown m (by simp only; omega)]
  exact onRead_some skipped

-- The tenth characters after which the misaligned stream has no second key.
def BlocksShift (uuid : Utf8) : Prop := ∃ tenth, uuid.bytes[9]? = some tenth ∧ tenth ∈ [48,49,50,51,56,57]

theorem advanced_second (tenth : UInt8) (blocked : tenth ∈ [48,49,50,51,56,57]) (m : ProtoMessage) (rest : List UInt8) :
    ProtoMessage.reader.merge m (UInt8.ofNat ((45 : UInt8).toNat%4*64+tenth.toNat/4) :: rest) = none := by
  apply ProtoMessage.reader.merge_refused (by simp)
  have endGroup : ProtoMessage.reader.read m (encodeKey 9 .endGroup ++ rest) = none := by
    rw [ProtoMessage.reader,record_read (by decide) (by decide)]
    exact ProtoMessage.mergeField_endGroup m 9 rest
  have noType : ProtoMessage.reader.read m (0x4E :: rest) = none := by
    have varint : decodeVarint (0x4E :: rest) = some (78,rest) := by simp [decodeVarint,varintFrom]
    apply record_unkeyed
    rw [decodeKey,andThen_some varint,keyOf,if_neg (by decide)]
    rfl
  simp only [List.mem_cons,List.not_mem_nil,or_false] at blocked
  rcases blocked with rfl | rfl | rfl | rfl | rfl | rfl
  · exact endGroup
  · exact endGroup
  · exact endGroup
  · exact endGroup
  · exact noType
  · exact noType

theorem advanced_contentless {proto msg : ProtoMessage} (generated : GenerateUuid proto.uuid)
    (blocked : BlocksShift proto.uuid) (part : bytes <+: advanced proto.encode)
    (decoded : ProtoMessage.decode bytes = some msg) : msg.content = none := by
  obtain ⟨tenth,read,blocked⟩ := blocked
  obtain ⟨first,front,back,uuid,seven,hex⟩ := uuid_split generated read
  obtain ⟨rest,opened⟩ := uuid_header generated
  obtain ⟨more,whole⟩ := part
  have digit := hexDigit_table ⟨first.toNat,first.toNat_lt⟩
  simp only [UInt8.ofNat_toNat] at digit
  obtain ⟨low,high⟩ := digit hex
  have second : (UInt8.ofNat (first.toNat/4)).toNat = first.toNat/4 := UInt8.toNat_ofNat_of_lt' (by
    simp only [UInt8.size]; omega)
  have eight : (advanced (first :: (front ++ [45]))).length = 8 := by
    have counted := advanced_length (first :: front) 45
    rwa [List.length_cons,seven,List.cons_append] at counted
  have stream : advanced proto.encode = (0x89 :: UInt8.ofNat (first.toNat/4) :: advanced (first :: (front ++ [45]))) ++
      UInt8.ofNat ((45 : UInt8).toNat%4*64+tenth.toNat/4) :: advanced (tenth :: (back ++ rest)) := by
    have split := advanced_append (10 :: 36 :: first :: front) 45 (tenth :: (back ++ rest))
    rw [opened,uuid]
    simp only [List.cons_append,List.append_assoc] at split ⊢
    rw [split]
    simp [advanced]
  have field := fun m => advanced_first m (by rw [second]; exact low) (by rw [second]; exact high) eight []
  rw [List.append_nil] at field
  have merged := (ProtoMessage.reader.merge_step (field .default)).trans (FieldReader.merge_nil _ _)
  rw [stream] at whole
  rcases List.append_eq_append_iff.mp whole with ⟨tail,front,_⟩ | ⟨tail,front,behind⟩
  · rw [front] at merged
    exact front_contentless merged rfl decoded
  · rw [front,ProtoMessage.decode,ProtoMessage.reader.merge_append merged] at decoded
    cases tail with
    | nil => cases Option.some.inj decoded; rfl
    | cons b later =>
      cases (List.cons.inj behind).1
      rw [advanced_second tenth blocked] at decoded
      cases decoded

theorem second_attempt_refused {proto : ProtoMessage} (generated : GenerateUuid proto.uuid)
    (blocked : BlocksShift proto.uuid) (front : core proto.encode = kept ++ part) : decodeAttempt kept.tail = none := by
  cases attempt : decodeAttempt kept.tail with
  | none => rfl
  | some msg =>
    obtain ⟨bytes,read,parsed,present⟩ := decodeAttempt_inv attempt
    have run := decodeAdu_stops (fun b member => cut_symbols front b (List.mem_of_mem_tail member)) stops_nil
    rw [List.append_nil,read] at run
    split at run
    · cases run
    · rw [cut_taken front] at run
      have piece := readCore_tail proto.encode run.symm
      rw [advanced_contentless generated blocked piece parsed] at present
      cases present

-- A frame that lost a symbol at its end: the aligned reading always refuses it,
-- so nothing is delivered but what the reading from the second character parses as.
theorem cut_frame_refused (frame : SentFrame) (generated : GenerateUuid frame.uuid)
    (encoded : frame.wire = some (kept ++ lost)) (symbol : lost.any (· ≠ pad) = true) (now : UtcNow) (peers : List Peer) :
    decodeAttempt kept = none ∧
    deserializeMessage now kept peers =
      ((decodeAttempt kept.tail).bind fun proto => extractMessageFromProto now proto peers) ∧
    (BlocksShift frame.uuid → deserializeMessage now kept peers = none) := by
  rw [frame.wire_eq] at encoded
  rw [← frame.proto_uuid] at generated ⊢
  obtain ⟨content,present⟩ := frame.content
  obtain ⟨same,fits⟩ := encodeAdu_inv encoded
  obtain ⟨part,front,some_part⟩ := cut_core same.symm symbol
  have aligned := first_attempt_refused present fits front some_part
  have only : deserializeMessage now kept peers =
      (decodeAttempt kept.tail).bind fun proto => extractMessageFromProto now proto peers := by
    rw [deserializeMessage,decodeTolerant_second aligned]
  refine ⟨aligned,only,fun blocked => ?_⟩
  rw [only,second_attempt_refused generated blocked front]
  rfl

def blockingMessage : ChatMessage := {checkMessage with uuid := ascii "4a3bf47e-101b-45d1-8b1b-a23e44321065"}
def blockingWire : List UInt8 := (serializeMessage blockingMessage).getD []

theorem cut_frame_refused_check : deserializeMessage epoch (blockingWire.take 60) [] = none := by
  have encoded : (SentFrame.chat blockingMessage).wire = some (blockingWire.take 60 ++ blockingWire.drop 60) := by
    decide +kernel
  exact (cut_frame_refused (.chat blockingMessage) (by decide +kernel) encoded (by decide +kernel) epoch []).2.2
    ⟨49,by decide +kernel,by decide⟩

def antennaMessage : ChatMessage :=
  ⟨ascii "75a289e1-7dbd-44c2-a9eb-38f5e949335a",none,⟨ascii "10",ascii "earth",[],2⟩,
    ascii "antenna a what time is it",.sent ⟨1799656934,184000000,by decide,by decide⟩ []⟩

def antennaWire : List UInt8 := (serializeMessage antennaMessage).getD []

theorem cut_frame_taken : GenerateUuid antennaMessage.uuid ∧
    (SentFrame.chat antennaMessage).wire = some (antennaWire.take 109 ++ antennaWire.drop 109) ∧
    (antennaWire.drop 109).any (· ≠ pad) = true ∧
    deserializeMessage epoch (antennaWire.take 109) [antennaMessage.sender] =
      some (.chatMessage ⟨.empty,none,.default,.empty,.received epoch.time epoch.time⟩) := by decide +kernel

end DTChat.WireCuts
