import DTChat.Lib.Utf8Text

namespace Utf8Text

theorem lead_ranges (here : lead b = some owed) : ∀ range ∈ owed, 0x80 ≤ range.1 := by
  have all : ∀ n : Fin 256, ((lead (UInt8.ofNat n)).all fun owed => owed.all fun range => 0x80 ≤ range.1) = true := by
    decide +kernel
  have known := all ⟨b.toNat,b.toNat_lt⟩
  rw [UInt8.ofNat_toNat,here] at known
  simpa using known

theorem scan_before (low : stop < 0x80) (ranges : ∀ range ∈ owed, 0x80 ≤ range.1)
    (whole : scan owed (left ++ stop :: right) = true) : scan owed left = true := by
  induction left generalizing owed with
  | nil =>
    cases owed with
    | nil => rfl
    | cons range more =>
      obtain ⟨first,last⟩ := range
      have above := ranges (first,last) List.mem_cons_self
      simp only [List.nil_append,scan,Bool.and_eq_true,decide_eq_true_eq] at whole
      exact absurd (UInt8.lt_of_lt_of_le low above) (UInt8.not_lt.mpr whole.1.1)
  | cons b rest ih =>
    cases owed with
    | nil =>
      simp only [List.cons_append,scan] at whole ⊢
      cases here : lead b with
      | none => rw [here] at whole; cases whole
      | some more =>
        rw [here] at whole
        exact ih (lead_ranges here) whole
    | cons range more =>
      obtain ⟨first,last⟩ := range
      simp only [List.cons_append,scan,Bool.and_eq_true] at whole ⊢
      exact ⟨whole.1,ih (fun range member => ranges range (List.mem_cons_of_mem _ member)) whole.2⟩

theorem strip_valid {text start : Utf8} (starts : start.bytes <+: text.bytes) :
    wellFormed (text.bytes.drop start.bytes.length) = true := by
  obtain ⟨rest,whole⟩ := starts
  have valid := text.valid
  rw [← whole,wellFormed,scan_append start.valid] at valid
  rwa [← whole,List.drop_left]

def Utf8.stripPrefix (text start : Utf8) : Option Utf8 :=
  if starts : start.bytes <+: text.bytes then some ⟨text.bytes.drop start.bytes.length,strip_valid starts⟩ else none

theorem stripPrefix_iff {text start rest : Utf8} : text.stripPrefix start = some rest ↔
    text.bytes = start.bytes ++ rest.bytes := by
  unfold Utf8.stripPrefix
  constructor
  · intro stripped
    split at stripped
    · rename_i starts
      cases Option.some.inj stripped
      exact (List.prefix_iff_eq_append.mp starts).symm
    · cases stripped
  · intro whole
    have starts : start.bytes <+: text.bytes := ⟨rest.bytes,whole.symm⟩
    rw [dif_pos starts]
    congr 1
    apply Utf8.ext
    simp only [whole,List.drop_left]

theorem before_valid {text : Utf8} (low : stop < 0x80) (inside : stop ∈ text.bytes) :
    wellFormed (text.bytes.takeWhile (· ≠ stop)) = true := by
  have valid := text.valid
  have cut : ∃ right, text.bytes = text.bytes.takeWhile (· ≠ stop) ++ stop :: right := by
    have parts := (List.takeWhile_append_dropWhile (p := (· ≠ stop)) (l := text.bytes)).symm
    cases rest : text.bytes.dropWhile (· ≠ stop) with
    | nil =>
      have none := List.dropWhile_eq_nil_iff.mp rest stop inside
      simp at none
    | cons b right =>
      have first := List.head?_dropWhile_not (· ≠ stop) text.bytes
      rw [rest] at first parts
      have equal : b = stop := by simpa using first
      rw [equal] at parts
      exact ⟨right,parts⟩
  obtain ⟨right,cut⟩ := cut
  rw [cut] at valid
  exact scan_before low (fun range member => by cases member) valid

-- The text in front of the first `stop`, as `find` and a slice give it.
def Utf8.before (text : Utf8) (stop : UInt8) (low : stop < 0x80) : Option Utf8 :=
  if inside : stop ∈ text.bytes then some ⟨text.bytes.takeWhile (· ≠ stop),before_valid low inside⟩ else none

theorem before_first {text : Utf8} (low : stop < 0x80) (whole : text.bytes = left ++ stop :: right) (fresh : stop ∉ left) :
    ∃ part, text.before stop low = some part ∧ part.bytes = left := by
  have inside : stop ∈ text.bytes := by
    rw [whole]
    exact List.mem_append_right _ List.mem_cons_self
  refine ⟨_,dif_pos inside,?_⟩
  simp only [whole]
  rw [List.takeWhile_append_of_pos,List.takeWhile_cons_of_neg (by simp),List.append_nil]
  intro b member
  have other : b ≠ stop := fun same => fresh (same ▸ member)
  simpa using other

end Utf8Text
