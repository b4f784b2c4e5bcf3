import Mathlib

namespace DecimalText

def zero : UInt8 := 48
def plus : UInt8 := 43

def isDigit (b : UInt8) : Bool := 48 ≤ b && b ≤ 57
def digit (b : UInt8) : Nat := b.toNat-48

-- `from_str` of an unsigned type with `limit` values: one plus sign may come
-- first, and a value out of range is an error.
def readDigits (limit : Nat) : Nat → List UInt8 → Option Nat
  | value,[] => some value
  | value,b :: rest =>
    if isDigit b && decide (value*10+digit b < limit) then readDigits limit (value*10+digit b) rest else none

def unsigned : List UInt8 → List UInt8
  | [] => []
  | b :: rest => if b = plus then rest else b :: rest

def parseUnsigned (limit : Nat) (text : List UInt8) : Option Nat :=
  if unsigned text = [] then none else readDigits limit 0 (unsigned text)

def value (digits : List UInt8) : Nat := Nat.ofDigits 10 (digits.map digit).reverse

def decimal (n : Nat) : List UInt8 :=
  if n = 0 then [zero] else (Nat.digits 10 n).reverse.map fun d => UInt8.ofNat (48+d)

-- The documented grammar of what `from_str` takes.
structure Numeral (limit : Nat) (text : List UInt8) : Prop where
  nonempty : unsigned text ≠ []
  digits : ∀ b ∈ unsigned text, isDigit b = true
  fits : value (unsigned text) < limit

def Canonical (text : List UInt8) : Prop := text.head? ≠ some plus ∧ (text.head? = some zero → text = [zero])

instance (text : List UInt8) : Decidable (Canonical text) := inferInstanceAs (Decidable (_ ∧ _))

theorem isDigit_bounds (digit : isDigit b = true) : 48 ≤ b.toNat ∧ b.toNat ≤ 57 := by
  simp only [isDigit,Bool.and_eq_true,decide_eq_true_eq,UInt8.le_iff_toNat_le] at digit
  exact digit

theorem digit_lt (here : isDigit b = true) : digit b < 10 := by
  have bounds := isDigit_bounds here
  unfold digit
  omega

theorem digit_byte (here : isDigit b = true) : UInt8.ofNat (48+digit b) = b := by
  have bounds := isDigit_bounds here
  unfold digit
  rw [show 48+(b.toNat-48) = b.toNat by omega]
  exact UInt8.ofNat_toNat

theorem byte_digit (small : d < 10) : isDigit (UInt8.ofNat (48+d)) = true ∧ digit (UInt8.ofNat (48+d)) = d := by
  have all : ∀ d : Fin 10, isDigit (UInt8.ofNat (48+d)) = true ∧ digit (UInt8.ofNat (48+d)) = d := by decide
  exact all ⟨d,small⟩

theorem value_cons (b : UInt8) (rest : List UInt8) : value (b :: rest) = digit b*10^rest.length+value rest := by
  unfold value
  rw [List.map_cons,List.reverse_cons,Nat.ofDigits_append,Nat.ofDigits_singleton,List.length_reverse,List.length_map]
  ring

theorem readDigits_iff (small : start < limit) : readDigits limit start text = some n ↔
    (∀ b ∈ text, isDigit b = true) ∧ n = start*10^text.length+value text ∧ n < limit := by
  induction text generalizing start with
  | nil =>
    simp only [readDigits,Option.some.injEq,value]
    constructor
    · intro same
      subst same
      simp [small]
    · intro parts
      simpa using parts.2.1.symm
  | cons b rest ih =>
    have powered : (start*10+digit b)*10^rest.length+value rest = start*10^(b :: rest).length+value (b :: rest) := by
      rw [value_cons,List.length_cons,pow_succ]
      ring
    rw [readDigits]
    split
    · rename_i taken
      obtain ⟨here,below⟩ := Bool.and_eq_true_iff.mp taken
      rw [ih (of_decide_eq_true below),powered]
      simp only [List.mem_cons,forall_eq_or_imp,here,true_and]
    · rename_i refused
      refine ⟨fun none => (by cases none),fun parts => ?_⟩
      obtain ⟨digits,total,fits⟩ := parts
      refine absurd ?_ refused
      apply Bool.and_eq_true_iff.mpr
      refine ⟨digits b List.mem_cons_self,decide_eq_true ?_⟩
      have grows : (start*10+digit b)*1 ≤ (start*10+digit b)*10^rest.length :=
        Nat.mul_le_mul_left _ (Nat.one_le_pow _ _ (by decide))
      omega

theorem parseUnsigned_iff (positive : 0 < limit) : parseUnsigned limit text = some n ↔
    Numeral limit text ∧ n = value (unsigned text) := by
  unfold parseUnsigned
  split
  · rename_i empty
    refine ⟨fun none => (by cases none),fun parts => absurd empty parts.1.nonempty⟩
  · rename_i nonempty
    rw [readDigits_iff positive,Nat.zero_mul,Nat.zero_add]
    constructor
    · intro parts
      obtain ⟨digits,rfl,fits⟩ := parts
      exact ⟨⟨nonempty,digits,fits⟩,rfl⟩
    · intro parts
      obtain ⟨numeral,rfl⟩ := parts
      exact ⟨numeral.digits,rfl,numeral.fits⟩

theorem mem_unsigned (member : b ∈ text) : b = plus ∨ b ∈ unsigned text := by
  cases text with
  | nil => cases member
  | cons first rest =>
    by_cases sign : first = plus
    · rw [unsigned,if_pos sign]
      rcases List.mem_cons.mp member with rfl | later
      · exact .inl sign
      · exact .inr later
    · rw [unsigned,if_neg sign]
      exact .inr member

theorem numeral_byte (numeral : Numeral limit text) (member : b ∈ text) : b = plus ∨ isDigit b = true :=
  (mem_unsigned member).imp_right (numeral.digits b)

theorem decimal_ne_nil (n : Nat) : decimal n ≠ [] := by
  unfold decimal
  split
  · exact List.cons_ne_nil _ _
  · rename_i positive
    simpa using Nat.digits_ne_nil_iff_ne_zero.mpr positive

theorem decimal_digits (n : Nat) : ∀ b ∈ decimal n, isDigit b = true := by
  intro b member
  unfold decimal at member
  split at member
  · rw [List.mem_singleton.mp member]
    decide
  · obtain ⟨d,inside,rfl⟩ := List.mem_map.mp member
    exact (byte_digit (Nat.digits_lt_base (by decide) (List.mem_reverse.mp inside))).1

theorem value_decimal (n : Nat) : value (decimal n) = n := by
  unfold decimal
  split
  · rename_i none
    rw [none]
    rfl
  · have back : ((Nat.digits 10 n).reverse.map fun d => UInt8.ofNat (48+d)).map digit = (Nat.digits 10 n).reverse := by
      rw [List.map_map]
      refine (List.map_congr_left fun d inside => ?_).trans (List.map_id _)
      exact (byte_digit (Nat.digits_lt_base (by decide) (List.mem_reverse.mp inside))).2
    rw [value,back,List.reverse_reverse,Nat.ofDigits_digits]

theorem decimal_value (digits : ∀ b ∈ text, isDigit b = true) (nonempty : text ≠ [])
    (leading : text.head? = some zero → text = [zero]) : decimal (value text) = text := by
  by_cases single : text = [zero]
  · rw [single]
    rfl
  · have head : ∀ first, text.head? = some first → digit first ≠ 0 := by
      intro first here none
      have bounds := isDigit_bounds (digits first (List.mem_of_mem_head? here))
      apply single
      apply leading
      rw [here,← digit_byte (digits first (List.mem_of_mem_head? here)),none]
      rfl
    have kept : Nat.digits 10 (value text) = (text.map digit).reverse := by
      apply Nat.digits_ofDigits 10 (by decide)
      · intro d inside
        obtain ⟨b,member,rfl⟩ := List.mem_map.mp (List.mem_reverse.mp inside)
        exact digit_lt (digits b member)
      · intro some
        obtain ⟨first,rest,rfl⟩ := List.exists_cons_of_ne_nil nonempty
        simpa using head first rfl
    have positive : value text ≠ 0 := by
      intro none
      rw [none,Nat.digits_zero] at kept
      exact nonempty (by simpa using kept.symm)
    rw [decimal,if_neg positive,kept,List.reverse_reverse,List.map_map]
    refine (List.map_congr_left fun b member => ?_).trans (List.map_id _)
    exact digit_byte (digits b member)

theorem decimal_canonical (n : Nat) : Canonical (decimal n) := by
  refine ⟨fun sign => ?_,fun leading => ?_⟩
  · have wrong := decimal_digits n plus (List.mem_of_mem_head? sign)
    exact absurd wrong (by decide)
  · unfold decimal at leading ⊢
    split
    · rfl
    · rename_i positive
      rw [if_neg positive] at leading
      obtain ⟨d,last,same⟩ := Option.map_eq_some_iff.mp ((List.head?_map ..).symm.trans leading)
      rw [List.head?_reverse] at last
      have inside := List.mem_of_getLast? last
      have back := (byte_digit (Nat.digits_lt_base (by decide) inside)).2
      rw [same] at back
      have none : d = 0 := back.symm
      rw [List.getLast?_eq_some_getLast (Nat.digits_ne_nil_iff_ne_zero.mpr positive),none] at last
      exact absurd (Option.some.inj last) (Nat.getLast_digit_ne_zero 10 positive)

theorem canonical_iff (numeral : Numeral limit text) : text = decimal (value (unsigned text)) ↔ Canonical text := by
  constructor
  · intro same
    rw [same]
    exact decimal_canonical _
  · intro canonical
    have bare : unsigned text = text := by
      cases text with
      | nil => rfl
      | cons first rest => exact if_neg fun sign => canonical.1 (by rw [sign]; rfl)
    have digits := numeral.digits
    have nonempty := numeral.nonempty
    rw [bare] at digits nonempty ⊢
    exact (decimal_value digits nonempty canonical.2).symm

theorem decimal_unsigned (n : Nat) : unsigned (decimal n) = decimal n := by
  have canonical := decimal_canonical n
  cases same : decimal n with
  | nil => rfl
  | cons first rest =>
    rw [same] at canonical
    exact if_neg fun sign => canonical.1 (by rw [sign]; rfl)

theorem decimal_numeral (fits : n < limit) : Numeral limit (decimal n) := by
  refine ⟨?_,?_,?_⟩
  · rw [decimal_unsigned]
    exact decimal_ne_nil n
  · rw [decimal_unsigned]
    exact decimal_digits n
  · rw [decimal_unsigned,value_decimal]
    exact fits

end DecimalText
