import Mathlib

namespace Utf8Text

-- Well-formed byte sequences (Unicode, table 3-7): after a lead byte, the
-- range of each continuation byte it still asks for.
def continuation : UInt8 × UInt8 := (0x80,0xBF)

def lead (b : UInt8) : Option (List (UInt8 × UInt8)) :=
  if b < 0x80 then some []
  else if b < 0xC2 then none
  else if b < 0xE0 then some [continuation]
  else if b = 0xE0 then some [(0xA0,0xBF),continuation]
  else if b = 0xED then some [(0x80,0x9F),continuation]
  else if b < 0xF0 then some [continuation,continuation]
  else if b = 0xF0 then some [(0x90,0xBF),continuation,continuation]
  else if b < 0xF4 then some [continuation,continuation,continuation]
  else if b = 0xF4 then some [(0x80,0x8F),continuation,continuation]
  else none

def scan : List (UInt8 × UInt8) → List UInt8 → Bool
  | [],[] => true
  | _ :: _,[] => false
  | [],b :: rest => match lead b with
    | none => false
    | some owed => scan owed rest
  | (low,high) :: owed,b :: rest => decide (low ≤ b) && decide (b ≤ high) && scan owed rest

def wellFormed (bytes : List UInt8) : Bool := scan [] bytes

-- A Rust `String` or `&str`: bytes that are UTF-8.
structure Utf8 where
  bytes : List UInt8
  valid : wellFormed bytes = true
  deriving DecidableEq

@[ext] theorem Utf8.ext {left right : Utf8} (same : left.bytes = right.bytes) : left = right := by
  cases left; cases right; cases same; rfl

def Utf8.check (raw : List UInt8) : Option Utf8 :=
  if valid : wellFormed raw = true then some ⟨raw,valid⟩ else none

@[simp] theorem Utf8.check_bytes (text : Utf8) : Utf8.check text.bytes = some text := by
  simp [Utf8.check,text.valid]

theorem Utf8.check_some (checked : Utf8.check raw = some text) : text.bytes = raw := by
  unfold Utf8.check at checked
  split at checked
  · cases Option.some.inj checked; rfl
  · cases checked

def Utf8.empty : Utf8 := ⟨[],rfl⟩

theorem ascii_wellFormed (bytes : List UInt8) (ascii : ∀ b ∈ bytes, b < 0x80) : wellFormed bytes = true := by
  induction bytes with
  | nil => rfl
  | cons b rest ih =>
    have here : lead b = some [] := by simp [lead,ascii b (by simp)]
    simp only [wellFormed,scan,here]
    exact ih fun c member => ascii c (List.mem_cons_of_mem _ member)

theorem scan_append (ended : scan owed left = true) (right : List UInt8) : scan owed (left ++ right) = scan [] right := by
  induction left generalizing owed with
  | nil =>
    cases owed with
    | nil => rfl
    | cons range more => cases ended
  | cons b rest ih =>
    cases owed with
    | nil =>
      simp only [List.cons_append,scan] at ended ⊢
      cases here : lead b with
      | none => rw [here] at ended; cases ended
      | some more => rw [here] at ended; exact ih ended
    | cons range more =>
      obtain ⟨low,high⟩ := range
      simp only [List.cons_append,scan,Bool.and_eq_true] at ended ⊢
      rw [ended.1.1,ended.1.2,ih ended.2]
      rfl

def Utf8.append (left right : Utf8) : Utf8 := ⟨left.bytes ++ right.bytes,(scan_append left.valid _).trans right.valid⟩

def ascii (literal : String) : Utf8 :=
  ⟨literal.toByteArray.data.toList.map (· &&& 0x7F),by
    apply ascii_wellFormed
    intro b member
    obtain ⟨c,_,rfl⟩ := List.mem_map.mp member
    have bound := (by decide +kernel : ∀ n : Fin 256, UInt8.ofNat n &&& 0x7F < 0x80) ⟨c.toNat,c.toNat_lt⟩
    simpa using bound⟩

def Utf8.startsWith (text start : Utf8) : Bool := start.bytes.isPrefixOf text.bytes

end Utf8Text
