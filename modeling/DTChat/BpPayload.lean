import DTChat.BpStack
import DTChat.WireCuts
import DTChat.StrayBytes

namespace DTChat.BpPayload
open BitGroups ProtoMessages Base64Text WireCodec WireFraming WireCuts
open BpStack (nlaString cString cString_clean SelfDelimited bpSendToEid made_string roomySdr roomy_delimited)
open StrayBytes (overriding overriding_merged)

def Read (frame : SentFrame) (bytes : List UInt8) : Prop := decodeProtoTolerant bytes = some frame.proto

theorem frame_wire {frame : SentFrame} (encoded : frame.wire = some wire) :
    wire = Base64Text.encode frame.proto.encode ∧ frame.proto.encode.length < 2^64 :=
  encodeAdu_inv (frame.wire_eq.symm.trans encoded)

theorem frame_generated {frame : SentFrame} (generated : GenerateUuid frame.uuid) : GenerateUuid frame.proto.uuid :=
  frame.proto_uuid.symm ▸ generated

theorem attempt_stops (symbols : ∀ b ∈ body, isSymbol b = true) (stop : Stops tail) :
    decodeAttempt (body ++ tail) = decodeAttempt body := by
  have bare := decodeAdu_stops symbols stops_nil
  rw [List.append_nil] at bare
  rw [decodeAttempt,decodeAttempt,decodeAdu_stops symbols stop,bare]

theorem readCore_zero (bytes : List UInt8) (two : bytes.length % 3 = 2) :
    readCore (core bytes ++ [65]) = some (bytes ++ [0]) := by
  obtain ⟨zeros,few,filled⟩ := sextets_spread bytes
  have counted := sextets_length bytes filled
  obtain rfl : zeros = 2 := by omega
  have joined : spread 6 ((core bytes ++ [65]).map sextet) = bits (bytes ++ [0]) ++ List.replicate 0 false := by
    have eight : List.replicate 2 false ++ spread 6 ([65].map sextet) = spread 8 (([0] : List UInt8).map UInt8.toNat) := rfl
    rw [List.map_append,spread_append,core_sextets,filled,List.append_assoc,eight,bits,bits,List.map_append,spread_append]
    exact (List.append_nil _).symm
  simp only [readCore,joined,regroup_filled (bytes ++ [0]) (by decide : 0 < 8),map_ofNat_toNat]
  rfl

theorem core_unpadded (whole : bytes.length % 3 = 0) : Base64Text.encode bytes = core bytes := by
  have counted := core_length bytes
  rw [Base64Text.encode,padding,show (4 - (core bytes).length % 4) % 4 = 0 by omega]
  exact List.append_nil _

theorem core_pads (padded : bytes.length % 3 ≠ 0) :
    Base64Text.encode bytes = core bytes ++ List.replicate (3-bytes.length%3) pad := by
  have counted := core_length bytes
  have residue : bytes.length % 3 = 1 ∨ bytes.length % 3 = 2 := by omega
  have pads : (4 - (core bytes).length % 4) % 4 = 3-bytes.length%3 := by
    rcases residue with one | two <;> omega
  rw [Base64Text.encode,padding,pads]

theorem text_nonzero (bytes : List UInt8) : ∀ b ∈ Base64Text.encode bytes, b ≠ 0 := by
  intro b member zero
  subst zero
  rcases List.mem_append.mp member with symbol | padded
  · have inside := core_symbols bytes 0 symbol
    exact absurd inside (by decide)
  · exact absurd (List.eq_of_mem_replicate padded) (by decide)

theorem string_parts (clean : ∀ b ∈ payload, b ≠ 0) (heap : List UInt8) :
    nlaString payload heap = payload ++ (cString heap ++ [0]) := by
  rw [nlaString,cString_clean clean,List.append_assoc]

theorem stray_stops (stop : Stops heap) : Stops (cString heap ++ [0]) := by
  cases heap with
  | nil => exact stops_cons (by decide) []
  | cons b rest =>
    unfold cString
    by_cases zero : b = 0
    · subst zero
      exact stops_cons (by decide) []
    · rw [List.takeWhile_cons_of_pos (by simpa using zero),List.cons_append]
      exact stops_cons (stop b rfl) _

theorem drop_pad (padded : bytes.length % 3 ≠ 0) :
    (Base64Text.encode bytes).dropLast = core bytes ++ List.replicate (2-bytes.length%3) pad := by
  have few : 3-bytes.length%3 = (2-bytes.length%3)+1 := by omega
  rw [core_pads padded,few,List.replicate_succ',← List.append_assoc,List.dropLast_concat]

theorem sent_string (nonzero : length ≠ 0) (bytes heap : List UInt8) :
    nlaString (length :: (Base64Text.encode bytes).dropLast) heap =
      length :: ((Base64Text.encode bytes).dropLast ++ (cString heap ++ [0])) := by
  rw [string_parts,List.cons_append]
  intro b member
  rcases List.mem_cons.mp member with rfl | inside
  · exact nonzero
  · exact text_nonzero bytes b (List.mem_of_mem_dropLast inside)

theorem sent_bytes (delimited : SelfDelimited sdr) (filled : bytes ≠ [])
    (made : bpSendToEid sdr (Base64Text.encode bytes) behind beyond = some adu) :
    ∃ length, length ≠ 0 ∧ adu = length :: (Base64Text.encode bytes).dropLast := by
  have some_text : Base64Text.encode bytes ≠ [] := List.append_ne_nil_of_left_ne_nil (core_ne_nil _ filled) _
  obtain ⟨count,least,most,rfl⟩ := made_string delimited (text_nonzero bytes) some_text made
  refine ⟨_,fun zero => ?_,rfl⟩
  have positive := List.length_pos_iff.mpr some_text
  have same := congrArg UInt8.toNat zero
  rw [UInt8.toNat_ofNat_of_lt' (by simp only [UInt8.size]; omega)] at same
  exact absurd same (by simp; omega)

section legs

variable {proto : ProtoMessage}

theorem framed_read (generated : GenerateUuid proto.uuid) (fits : proto.encode.length < 2^64) (content : proto.content = some found)
    (first : UInt8) (stop : Stops tail) : decodeProtoTolerant (first :: (core proto.encode ++ tail)) = some proto :=
  (decodeTolerant_second (decodeAttempt_shifted generated first stop)).trans (decodeAttempt_wire fits content stop)

theorem pads_stop (positive : 0 < count) (rest : List UInt8) : Stops (List.replicate count pad ++ rest) := by
  obtain ⟨more,rfl⟩ := Nat.exists_eq_succ_of_ne_zero (Nat.ne_of_gt positive)
  rw [List.replicate_succ,List.cons_append]
  exact stops_cons isSymbol_pad _

theorem opened_core (generated : GenerateUuid proto.uuid) (front : core proto.encode = kept ++ part)
    (long : 16 ≤ kept.length) : ∃ more, kept = core (10 :: 36 :: proto.uuid.bytes.take 10) ++ more := by
  have counted := uuidBytes_length generated
  obtain ⟨rest,opened⟩ := uuid_header generated
  have ten : (10 :: 36 :: proto.uuid.bytes.take 10).length = 12 := by
    simp only [List.length_cons,List.length_take]
    omega
  have split : proto.encode = (10 :: 36 :: proto.uuid.bytes.take 10) ++ (proto.uuid.bytes.drop 10 ++ rest) := by
    rw [opened,List.cons_append,List.cons_append,← List.append_assoc,List.take_append_drop]
  have whole := core_append (by rw [ten] : (10 :: 36 :: proto.uuid.bytes.take 10).length % 3 = 0) (proto.uuid.bytes.drop 10 ++ rest)
  have sixteen := core_length (10 :: 36 :: proto.uuid.bytes.take 10)
  rw [← split] at whole
  rw [ten] at sixteen
  have inside := List.prefix_of_prefix_length_le ⟨_,whole.symm⟩ ⟨_,front.symm⟩ (by rw [sixteen]; exact long)
  obtain ⟨more,same⟩ := inside
  exact ⟨more,same.symm⟩

theorem attempt_behind (generated : GenerateUuid proto.uuid) (front : core proto.encode = kept ++ part)
    (long : 16 ≤ kept.length) (first : UInt8) (symbols : ∀ b ∈ text, isSymbol b = true) (stop : Stops tail) :
    decodeAttempt (first :: (kept ++ text ++ tail)) = none := by
  cases attempt : decodeAttempt (first :: (kept ++ text ++ tail)) with
  | none => rfl
  | some msg =>
    obtain ⟨bytes,read,parsed,_⟩ := decodeAttempt_inv attempt
    cases member : isSymbol first with
    | false => rw [decodeAdu_outside member] at read; cases read
    | true =>
      have body : ∀ b ∈ first :: (kept ++ text), isSymbol b = true := by
        intro b inside
        rcases List.mem_cons.mp inside with rfl | inside
        · exact member
        · rcases List.mem_append.mp inside with inside | inside
          · exact cut_symbols front b inside
          · exact symbols b inside
      rw [← List.cons_append,decodeAdu_stops body stop] at read
      split at read
      · cases read
      · obtain ⟨more,rfl⟩ := opened_core generated front long
        have counted := uuidBytes_length generated
        rw [List.append_assoc] at read
        have groups : (10 :: 36 :: proto.uuid.bytes.take 10).length % 3 = 0 := by
          simp only [List.length_cons,List.length_take]
          omega
        obtain ⟨after,rfl⟩ := readCore_shift_append member groups read
        have high := @shifted_high 36 (by decide) (by decide) (proto.uuid.bytes.take 10)
          fun b inside => (uuidBytes_member generated b (List.mem_of_mem_take inside)).1
        have width := shifted_length 36 (proto.uuid.bytes.take 10)
        rw [List.length_take] at width
        have unended : Unended (shifted 36 (proto.uuid.bytes.take 10) ++ after) := by
          refine ⟨by rw [List.length_append]; omega,fun b inside => ?_⟩
          rw [List.take_append_of_le_length (by omega)] at inside
          exact high b (List.mem_of_mem_take inside)
        rw [shifted_header,List.cons_append,List.cons_append] at parsed
        exact absurd (parsed.symm.trans (shifted_refused (sextet_lt member) unended .default)) (by simp)

theorem core_long (generated : GenerateUuid proto.uuid) : 17 ≤ (core proto.encode).length := by
  have counted := uuidBytes_length generated
  obtain ⟨rest,opened⟩ := uuid_header generated
  have length := core_length proto.encode
  simp only [opened,List.length_cons,List.length_append] at length ⊢
  omega

theorem unpadded_lost (generated : GenerateUuid proto.uuid) (fits : proto.encode.length < 2^64)
    (content : proto.content = some found) (whole : proto.encode.length % 3 = 0) (nonzero : length ≠ 0)
    (stop : Stops heap) : decodeProtoTolerant (nlaString (length :: (Base64Text.encode proto.encode).dropLast) heap) = none := by
  have some_core := core_ne_nil _ (proto_nonempty content)
  have front := (List.dropLast_append_getLast some_core).symm
  have refused := first_attempt_refused content fits front (List.cons_ne_nil _ _)
  have long : 16 ≤ (core proto.encode).dropLast.length := by
    have counted := core_long generated
    rw [List.length_dropLast]
    omega
  have behind := attempt_behind generated front long length (List.forall_mem_nil _) (stray_stops stop)
  rw [List.append_nil] at behind
  rw [sent_string nonzero,core_unpadded whole,decodeTolerant_second behind,List.tail_cons,
    attempt_stops (cut_symbols front) (stray_stops stop),refused]

-- With one pad the core is all that goes out, and a symbol in the heap joins it.
theorem single_pad_lost (generated : GenerateUuid proto.uuid) (fits : proto.encode.length < 2^64)
    (two : proto.encode.length % 3 = 2) (nonzero : length ≠ 0) :
    decodeProtoTolerant (nlaString (length :: (Base64Text.encode proto.encode).dropLast) [65]) = none := by
  have dropped : (Base64Text.encode proto.encode).dropLast = core proto.encode := by
    rw [drop_pad (by omega),two]
    exact List.append_nil _
  have letter : ∀ b ∈ ([65] : List UInt8), isSymbol b = true := List.forall_mem_singleton.mpr rfl
  have symbols : ∀ b ∈ core proto.encode ++ [65], isSymbol b = true := by
    intro b member
    rcases List.mem_append.mp member with inside | last
    · exact core_symbols _ b inside
    · exact letter b last
  have counted := core_length proto.encode
  have read := decodeAdu_stops symbols stops_nil
  rw [List.append_nil,if_neg (by rw [List.length_append,List.length_singleton]; omega),readCore_zero _ two] at read
  have refused : ProtoMessage.decode (proto.encode ++ [0]) = none := by
    rw [ProtoMessage.decode_append proto fits]
    rfl
  have behind := attempt_behind generated (List.append_nil _).symm (Nat.le_of_succ_le (core_long generated)) length
    letter (stops_cons (by decide) [] : Stops [0])
  have stray : cString [65] ++ [0] = [65] ++ [0] := rfl
  rw [sent_string nonzero,dropped,stray,← List.append_assoc,decodeTolerant_second behind,List.tail_cons,
    attempt_stops symbols (stops_cons (by decide) []),decodeAttempt,read,Option.bind_some,refused]
  rfl

-- With no pad at all, symbols in the heap are more fields of the record.
theorem unpadded_overridden (generated : GenerateUuid proto.uuid) (fits : proto.encode.length < 2^64)
    (content : proto.content = some found) (whole : proto.encode.length % 3 = 0) :
    decodeProtoTolerant (nlaString (Base64Text.encode proto.encode) (core overriding)) ≠ some proto := by
  have symbols : ∀ b ∈ core proto.encode ++ core overriding, isSymbol b = true := by
    intro b member
    rcases List.mem_append.mp member with inside | behind
    · exact core_symbols _ b inside
    · exact core_symbols _ b behind
  have read : decodeAduBase64 (core proto.encode ++ core overriding) = some (proto.encode ++ overriding) := by
    have counted := core_length proto.encode
    have run := decodeAdu_stops symbols stops_nil
    have eight : (core overriding).length = 8 := rfl
    rw [List.append_nil] at run
    rw [run,if_neg (by rw [List.length_append]; omega),readCore_append _ _ whole,readCore_core]
    rfl
  have parsed : ProtoMessage.decode (proto.encode ++ overriding) = _ :=
    (ProtoMessage.decode_append proto fits overriding).trans (overriding_merged proto)
  have taken := decodeAttempt_some read parsed content
  rw [← attempt_stops symbols (stops_cons (by decide) [] : Stops [0])] at taken
  have stray : cString (core overriding) ++ [0] = core overriding ++ [0] := rfl
  rw [string_parts (text_nonzero _),core_unpadded whole,stray,← List.append_assoc,decodeTolerant_first taken]
  intro same
  have length := uuidBytes_length generated
  rw [← Option.some.inj same] at length
  cases length

theorem padded_read (fits : proto.encode.length < 2^64) (content : proto.content = some found)
    (padded : proto.encode.length % 3 ≠ 0) (heap : List UInt8) :
    decodeProtoTolerant (nlaString (Base64Text.encode proto.encode) heap) = some proto := by
  rw [string_parts (text_nonzero _),core_pads padded,List.append_assoc]
  exact decodeTolerant_first (decodeAttempt_wire fits content (pads_stop (by omega) _))

theorem bare_read (fits : proto.encode.length < 2^64) (content : proto.content = some found) (stop : Stops heap) :
    decodeProtoTolerant (nlaString (Base64Text.encode proto.encode) heap) = some proto := by
  rw [string_parts (text_nonzero _),Base64Text.encode,List.append_assoc]
  exact decodeTolerant_first (decodeAttempt_wire fits content (stops_pads _ (stray_stops stop)))

theorem sent_read (generated : GenerateUuid proto.uuid) (fits : proto.encode.length < 2^64)
    (content : proto.content = some found) (padded : proto.encode.length % 3 ≠ 0) (nonzero : length ≠ 0)
    (stop : Stops (List.replicate (2-proto.encode.length%3) pad ++ (cString heap ++ [0]))) :
    decodeProtoTolerant (nlaString (length :: (Base64Text.encode proto.encode).dropLast) heap) = some proto := by
  rw [sent_string nonzero,drop_pad padded,List.append_assoc]
  exact framed_read generated fits content length stop

theorem sending_refused (delimited : SelfDelimited sdr) (long : 255 < (Base64Text.encode bytes).length)
    (behind beyond : List UInt8) : bpSendToEid sdr (Base64Text.encode bytes) behind beyond = none := by
  cases made : bpSendToEid sdr (Base64Text.encode bytes) behind beyond with
  | none => rfl
  | some adu =>
    have filled : Base64Text.encode bytes ≠ [] := List.ne_nil_of_length_pos (by omega)
    obtain ⟨count,least,most,_⟩ := made_string delimited (text_nonzero bytes) filled made
    omega

theorem sending_leg (generated : GenerateUuid proto.uuid) (fits : proto.encode.length < 2^64)
    (content : proto.content = some found) (nonzero : length ≠ 0) :
    ((∀ heap, decodeProtoTolerant (nlaString (length :: (Base64Text.encode proto.encode).dropLast) heap) = some proto) ↔
      proto.encode.length % 3 = 1) ∧
    ((∀ heap, Stops heap →
      decodeProtoTolerant (nlaString (length :: (Base64Text.encode proto.encode).dropLast) heap) = some proto) ↔
      proto.encode.length % 3 ≠ 0) := by
  have unread : proto.encode.length % 3 = 0 →
      decodeProtoTolerant (nlaString (length :: (Base64Text.encode proto.encode).dropLast) []) ≠ some proto := by
    intro whole
    simp [unpadded_lost generated fits content whole nonzero stops_nil]
  refine ⟨⟨fun always => ?_,fun one heap => ?_⟩,fun always whole => ?_,fun padded heap stop => ?_⟩
  · have padded : proto.encode.length % 3 ≠ 0 := fun whole => unread whole (always [])
    have single : proto.encode.length % 3 ≠ 2 := by
      intro two
      have lost := single_pad_lost generated fits two nonzero
      exact absurd (lost.symm.trans (always [65])) (by simp)
    omega
  · exact sent_read generated fits content (by omega) nonzero (pads_stop (by omega) _)
  · exact unread whole (always [] stops_nil)
  · exact sent_read generated fits content padded nonzero (stops_pads _ (stray_stops stop))

theorem made_leg (delimited : SelfDelimited sdr) (generated : GenerateUuid proto.uuid) (fits : proto.encode.length < 2^64)
    (content : proto.content = some found) (made : bpSendToEid sdr (Base64Text.encode proto.encode) behind beyond = some adu) :
    ((∀ heap, decodeProtoTolerant (nlaString adu heap) = some proto) ↔ proto.encode.length % 3 = 1) ∧
    ((∀ heap, Stops heap → decodeProtoTolerant (nlaString adu heap) = some proto) ↔ proto.encode.length % 3 ≠ 0) := by
  obtain ⟨length,nonzero,rfl⟩ := sent_bytes delimited (proto_nonempty content) made
  exact sending_leg generated fits content nonzero

end legs

-- The two AF_BP legs, whatever lies behind the daemon's buffer: the receiving leg spares every
-- frame whose text ends in a pad, the sending leg takes one byte of it and spares only two pads. With
-- no symbol in the heap the receiving leg spares all, the sending leg all that have a pad to lose. A
-- text that the SDR's string cannot hold is not sent.
theorem bundle_legs (delimited : SelfDelimited sdr) (frame : SentFrame) (generated : GenerateUuid frame.uuid)
    (encoded : frame.wire = some wire) :
    ((∀ heap, Read frame (nlaString wire heap)) ↔ frame.proto.encode.length % 3 ≠ 0) ∧
    (∀ heap, Stops heap → Read frame (nlaString wire heap)) ∧
    (255 < wire.length → ∀ behind beyond, bpSendToEid sdr wire behind beyond = none) ∧
    ∀ behind beyond adu, bpSendToEid sdr wire behind beyond = some adu →
      ((∀ heap, Read frame (nlaString adu heap)) ↔ frame.proto.encode.length % 3 = 1) ∧
      ((∀ heap, Stops heap → Read frame (nlaString adu heap)) ↔ frame.proto.encode.length % 3 ≠ 0) := by
  have generated := frame_generated generated
  obtain ⟨content,present⟩ := frame.content
  obtain ⟨rfl,fits⟩ := frame_wire encoded
  refine ⟨⟨fun always whole => ?_,padded_read fits present⟩,fun heap => bare_read fits present,fun long behind beyond => ?_,
    fun behind beyond adu made => ?_⟩
  · exact unpadded_overridden generated fits present whole (always _)
  · exact sending_refused delimited long behind beyond
  · exact made_leg delimited generated fits present made

theorem bundle_legs_check : ∃ wire adu, (SentFrame.chat checkMessage).wire = some wire ∧
    bpSendToEid roomySdr wire [] [] = some adu ∧ (∀ heap, Read (.chat checkMessage) (nlaString wire heap)) ∧
    ∀ heap, Read (.chat checkMessage) (nlaString adu heap) := by
  obtain ⟨adu,made⟩ := Option.isSome_iff_exists.mp (by decide +kernel :
    ((SentFrame.chat checkMessage).wire.bind fun wire => bpSendToEid roomySdr wire [] []).isSome)
  obtain ⟨wire,encoded,sent⟩ := Option.bind_eq_some_iff.mp made
  have legs := bundle_legs roomy_delimited (.chat checkMessage) (by decide +kernel) encoded
  refine ⟨wire,adu,encoded,sent,legs.1.mpr (by decide +kernel),?_⟩
  exact (legs.2.2.2 [] [] adu sent).1.mpr (by decide +kernel)

end DTChat.BpPayload
