import DTChat.WireCodec

namespace DTChat.AduBase64
open BitGroups Base64Text WireCodec

-- The loop `while normalised.len() % 4 != 0`, with the number of its pushes.
inductive Repads : List UInt8 → Nat → List UInt8 → Prop where
  | done : normalised.length % 4 = 0 → Repads normalised 0 normalised
  | push : normalised.length % 4 ≠ 0 → Repads (normalised ++ [pad]) pushes result → Repads normalised (pushes+1) result

theorem repads_pads (few : pushes < 4) (whole : (normalised.length+pushes) % 4 = 0) :
    Repads normalised pushes (normalised ++ List.replicate pushes pad) := by
  induction pushes generalizing normalised with
  | zero => simpa using Repads.done whole
  | succ pushes ih =>
    have more : ((normalised ++ [pad]).length+pushes) % 4 = 0 := by
      rw [List.length_append,List.length_singleton]
      omega
    have later := ih (by omega) more
    rw [List.append_assoc,List.singleton_append,← List.replicate_succ] at later
    exact .push (by omega) later

def unpadded (bytes : List UInt8) : List UInt8 := (encode bytes).filter (· ≠ pad)

-- The grammar: the text of the bytes, then nothing or something outside the alphabet.
def Framed (bytes buf : List UInt8) : Prop := ∃ tail, buf = unpadded bytes ++ tail ∧ Stops tail

def trailing (text : List UInt8) : List Bool := (regroup 8 [] (spread 6 (text.map sextet))).2

theorem unpadded_core (bytes : List UInt8) : unpadded bytes = core bytes := by
  have kept : (core bytes).filter (· ≠ pad) = core bytes := by
    refine List.filter_eq_self.mpr fun b member => ?_
    have symbol := core_symbols bytes b member
    simp only [decide_eq_true_eq]
    rintro rfl
    cases symbol
  rw [unpadded,encode,List.filter_append,kept,padding]
  simp

theorem symbolRun_split (buf : List UInt8) : ∃ tail, buf = symbolRun buf ++ tail ∧ Stops tail := by
  refine ⟨buf.dropWhile isSymbol,List.takeWhile_append_dropWhile.symm,fun b member => ?_⟩
  have stopped := List.head?_dropWhile_not isSymbol buf
  rw [Option.mem_def.mp member] at stopped
  simpa using stopped

theorem framed_iff : Framed bytes buf ↔ symbolRun buf = core bytes := by
  rw [Framed,unpadded_core]
  constructor
  · rintro ⟨tail,rfl,stop⟩
    rw [symbolRun_append (core_symbols bytes),symbolRun_stops stop,List.append_nil]
  · intro same
    obtain ⟨tail,split,stop⟩ := symbolRun_split buf
    exact ⟨tail,by rw [← same]; exact split,stop⟩

theorem decodeAdu_normalised (nonempty : symbolRun buf ≠ []) (length : (symbolRun buf).length % 4 ≠ 1) :
    decodeAduBase64 buf = Base64Text.decode (repad 3 (symbolRun buf)) := by
  have usable : ¬((symbolRun buf).length = 0 ∨ (symbolRun buf).length % 4 = 1) := by
    rintro (empty | one)
    · exact nonempty (List.length_eq_zero_iff.mp empty)
    · exact length one
  simp only [decodeAduBase64,symbolRun_core,if_neg usable]

theorem repads_twice (length : (symbolRun buf).length % 4 ≠ 1) :
    ∃ pushes, pushes ≤ 2 ∧ Repads (symbolRun buf) pushes (repad 3 (symbolRun buf)) := by
  refine ⟨(4-(symbolRun buf).length%4)%4,by omega,?_⟩
  rw [repad_padding]
  exact repads_pads (by omega) (by omega)

theorem decodeAdu_usable (nonempty : symbolRun buf ≠ []) (length : (symbolRun buf).length % 4 ≠ 1) :
    decodeAduBase64 buf = some bytes ↔ symbolRun buf = core bytes := by
  rw [decodeAdu_normalised nonempty length,repad_padding,decode_iff]
  constructor
  · intro text
    have runs := congrArg symbolRun text
    rwa [encode,symbolRun_append (symbolRun_symbols buf),symbolRun_append (core_symbols bytes),
      symbolRun_stops (stops_padding _),symbolRun_stops (stops_padding _),List.append_nil,List.append_nil] at runs
  · intro same
    rw [same,encode]

theorem decodeAdu_refused (refused : symbolRun buf = [] ∨ (symbolRun buf).length % 4 = 1) : decodeAduBase64 buf = none := by
  rw [decodeAdu_run,if_pos (refused.imp_left List.length_eq_zero_iff.mpr)]

theorem decodeAdu_some : decodeAduBase64 buf = some bytes ↔ bytes ≠ [] ∧ symbolRun buf = core bytes := by
  by_cases empty : symbolRun buf = []
  · rw [decodeAdu_refused (.inl empty),empty]
    refine ⟨fun read => (by cases read),fun ⟨nonempty,same⟩ => ?_⟩
    exact absurd same.symm (core_ne_nil bytes nonempty)
  · by_cases one : (symbolRun buf).length % 4 = 1
    · rw [decodeAdu_refused (.inr one)]
      refine ⟨fun read => (by cases read),fun ⟨_,same⟩ => ?_⟩
      exact absurd (same ▸ one) (core_mod bytes)
    · rw [decodeAdu_usable empty one]
      refine ⟨fun same => ⟨?_,same⟩,And.right⟩
      rintro rfl
      exact empty same

theorem decodeAdu_none : decodeAduBase64 buf = none ↔
    symbolRun buf = [] ∨ (symbolRun buf).length % 4 = 1 ∨ true ∈ trailing (symbolRun buf) := by
  rw [decodeAdu_run]
  split
  · rename_i refused
    have guarded := refused.imp_left List.length_eq_zero_iff.mp
    exact ⟨fun _ => guarded.imp_right .inl,fun _ => rfl⟩
  · rename_i usable
    obtain ⟨nonempty,length⟩ := not_or.mp usable
    rw [or_iff_right (fun empty => nonempty (List.length_eq_zero_iff.mpr empty)),or_iff_right length]
    simp [readCore,trailing]

theorem normaliser_exact (buf : List UInt8) :
    (∀ bytes, decodeAduBase64 buf = some bytes ↔ bytes ≠ [] ∧ Framed bytes buf) ∧
    (decodeAduBase64 buf = none ↔
      symbolRun buf = [] ∨ (symbolRun buf).length % 4 = 1 ∨ true ∈ trailing (symbolRun buf)) ∧
    (symbolRun buf ≠ [] → (symbolRun buf).length % 4 ≠ 1 →
      decodeAduBase64 buf = Base64Text.decode (repad 3 (symbolRun buf)) ∧
      ∃ pushes, pushes ≤ 2 ∧ Repads (symbolRun buf) pushes (repad 3 (symbolRun buf))) := by
  refine ⟨fun bytes => ?_,decodeAdu_none,fun nonempty length => ⟨decodeAdu_normalised nonempty length,repads_twice length⟩⟩
  rw [decodeAdu_some,framed_iff]

example : decodeAduBase64 [97,109,56,61,61,85,0] = some [106,111] := by decide

end DTChat.AduBase64
