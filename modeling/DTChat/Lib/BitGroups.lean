import Mathlib

namespace BitGroups

-- Bits of a group, most significant first, as wire formats number them.
def toBits : Nat → Nat → List Bool
  | 0,_ => []
  | width+1,n => n.testBit width :: toBits width n

def ofBits (bits : List Bool) : Nat := bits.foldl (fun value bit => 2*value + bit.toNat) 0

@[simp] theorem toBits_length (width n : Nat) : (toBits width n).length = width := by
  induction width with
  | zero => rfl
  | succ width ih => simp [toBits,ih]

theorem ofBits_from (bits : List Bool) (start : Nat) :
    bits.foldl (fun value bit => 2*value + bit.toNat) start = start*2^bits.length + ofBits bits := by
  induction bits generalizing start with
  | nil => simp [ofBits]
  | cons bit rest ih =>
    have here := ih (2*start + bit.toNat)
    have zero := ih (2*0 + bit.toNat)
    simp only [ofBits,List.foldl_cons,List.length_cons,Nat.pow_succ]
    rw [here,zero]
    simp only [Nat.add_mul]
    grind

@[simp] theorem ofBits_nil : ofBits [] = 0 := rfl

theorem ofBits_append (left right : List Bool) :
    ofBits (left ++ right) = ofBits left*2^right.length + ofBits right := by
  rw [ofBits,List.foldl_append,ofBits_from right]
  rfl

theorem ofBits_cons (bit : Bool) (rest : List Bool) :
    ofBits (bit :: rest) = bit.toNat*2^rest.length + ofBits rest := by
  have split := ofBits_append [bit] rest
  simpa [ofBits] using split

theorem ofBits_lt (bits : List Bool) : ofBits bits < 2^bits.length := by
  induction bits with
  | nil => simp
  | cons bit rest ih =>
    have top : bit.toNat ≤ 1 := by cases bit <;> simp
    have scaled := Nat.mul_le_mul_right (2^rest.length) top
    rw [ofBits_cons,List.length_cons,Nat.pow_succ]
    omega

theorem ofBits_toBits (width n : Nat) : ofBits (toBits width n) = n % 2^width := by
  induction width with
  | zero => simp [toBits,Nat.mod_one]
  | succ width ih =>
    rw [toBits,ofBits_cons,toBits_length,ih,Nat.mod_pow_succ,Nat.testBit_eq_decide_div_mod_eq]
    have bit := Nat.mod_two_eq_zero_or_one (n / 2^width)
    rcases bit with bit | bit <;> simp [bit,Nat.add_comm]

theorem ofBits_toBits_lt (width : Nat) (small : n < 2^width) : ofBits (toBits width n) = n := by
  rw [ofBits_toBits,Nat.mod_eq_of_lt small]

theorem toBits_mod (width more n : Nat) : toBits width (n % 2^(width+more)) = toBits width n := by
  induction width generalizing more with
  | zero => rfl
  | succ width ih =>
    have lower := ih (more+1)
    rw [Nat.add_assoc,Nat.add_comm 1 more,toBits,toBits,lower]
    simp [Nat.testBit_mod_two_pow]

theorem toBits_ofBits (bits : List Bool) : toBits bits.length (ofBits bits) = bits := by
  induction bits with
  | nil => rfl
  | cons bit rest ih =>
    have small := ofBits_lt rest
    rw [List.length_cons,toBits,ofBits_cons]
    congr 1
    · rw [Nat.mul_comm,Nat.testBit_two_pow_mul_add _ small]
      cases bit <;> simp
    · rw [← toBits_mod rest.length 0,Nat.add_zero,Nat.mul_add_mod_of_lt small,ih]

theorem toBits_append (upper lower n : Nat) :
    toBits (upper+lower) n = toBits upper (n / 2^lower) ++ toBits lower n := by
  induction upper with
  | zero => simp [toBits]
  | succ upper ih =>
    rw [Nat.add_right_comm,toBits,ih,toBits,Nat.testBit_div_two_pow,List.cons_append]

def spread (width : Nat) (groups : List Nat) : List Bool := groups.flatMap (toBits width)

@[simp] theorem spread_nil : spread width [] = [] := rfl
@[simp] theorem spread_cons : spread width (n :: rest) = toBits width n ++ spread width rest := rfl

theorem spread_append : spread width (left ++ right) = spread width left ++ spread width right :=
  List.flatMap_append

theorem spread_length (width : Nat) (groups : List Nat) :
    (spread width groups).length = width*groups.length := by
  induction groups with
  | nil => rfl
  | cons n rest ih => simp [ih,Nat.mul_add,Nat.add_comm]

-- Cuts a bit stream into groups. `held` are the bits already read of a group
-- still open; the second component is what remains open at the end.
def regroup (width : Nat) : List Bool → List Bool → List Nat × List Bool
  | held,[] => ([],held)
  | held,bit :: rest =>
    if held.length+1 = width then
      let later := regroup width [] rest
      (ofBits (held ++ [bit]) :: later.1,later.2)
    else regroup width (held ++ [bit]) rest

theorem regroup_full (positive : 0 < part.length) (full : held.length+part.length = width) :
    regroup width held (part ++ rest) =
      (ofBits (held ++ part) :: (regroup width [] rest).1,(regroup width [] rest).2) := by
  induction part generalizing held with
  | nil => simp at positive
  | cons bit more ih =>
    simp only [List.length_cons] at full
    rw [List.cons_append,regroup]
    cases more with
    | nil => simp [show held.length+1 = width by simpa using full]
    | cons next later =>
      have short : held.length+1 ≠ width := by simp at full; omega
      rw [if_neg short,ih (by simp) (by simp at full ⊢; omega)]
      simp

theorem regroup_open (short : held.length+part.length < width) :
    regroup width held part = ([],held ++ part) := by
  induction part generalizing held with
  | nil => simp [regroup]
  | cons bit more ih =>
    simp only [List.length_cons] at short
    rw [regroup,if_neg (by omega),ih (by simp; omega)]
    simp

theorem regroup_append (held left right : List Bool) :
    regroup width held (left ++ right) =
      ((regroup width held left).1 ++ (regroup width (regroup width held left).2 right).1,
        (regroup width (regroup width held left).2 right).2) := by
  induction left generalizing held with
  | nil => simp [regroup]
  | cons bit rest ih =>
    rw [List.cons_append,regroup,regroup]
    by_cases full : held.length+1 = width
    · simp [full,ih]
    · simp [full,ih]

theorem regroup_spread (positive : 0 < width) (small : ∀ n ∈ groups, n < 2^width) :
    regroup width [] (spread width groups ++ rest) =
      (groups ++ (regroup width [] rest).1,(regroup width [] rest).2) := by
  induction groups with
  | nil => simp
  | cons n more ih =>
    have later := ih (fun m member => small m (List.mem_cons_of_mem _ member))
    rw [spread_cons,List.append_assoc,regroup_full (by simpa using positive) (by simp),later]
    simp [ofBits_toBits_lt width (small n (by simp))]

theorem spread_regroup (held bits : List Bool) (short : held.length < width) :
    spread width (regroup width held bits).1 ++ (regroup width held bits).2 = held ++ bits ∧
      (regroup width held bits).2.length < width := by
  induction bits generalizing held with
  | nil => simp [regroup,short]
  | cons bit rest ih =>
    rw [regroup]
    by_cases full : held.length+1 = width
    · obtain ⟨same,bound⟩ := ih [] (by simp; omega)
      have group := toBits_ofBits (held ++ [bit])
      rw [List.length_append,List.length_singleton,full] at group
      simp only [full,↓reduceIte,spread_cons,group,List.append_assoc,same]
      exact ⟨by simp,bound⟩
    · obtain ⟨same,bound⟩ := ih (held ++ [bit]) (by simp; omega)
      simp only [full,↓reduceIte,same]
      exact ⟨by simp,bound⟩

theorem regroup_small (held bits : List Bool) (short : held.length < width) :
    ∀ n ∈ (regroup width held bits).1, n < 2^width := by
  induction bits generalizing held with
  | nil => simp [regroup]
  | cons bit rest ih =>
    rw [regroup]
    by_cases full : held.length+1 = width
    · have here := ofBits_lt (held ++ [bit])
      rw [List.length_append,List.length_singleton,full] at here
      have later := ih [] (by simp; omega)
      simp only [full,↓reduceIte,List.mem_cons,forall_eq_or_imp]
      exact ⟨here,later⟩
    · simp only [full,↓reduceIte]
      exact ih (held ++ [bit]) (by simp; omega)

theorem regroup_length (held bits : List Bool) (short : held.length < width) :
    width*(regroup width held bits).1.length + (regroup width held bits).2.length =
      held.length + bits.length := by
  have same := congrArg List.length (spread_regroup held bits short).1
  simpa [spread_length] using same

theorem spread_inj (positive : 0 < width) (left : ∀ n ∈ groups, n < 2^width) (right : ∀ n ∈ others, n < 2^width)
    (same : spread width groups = spread width others) : groups = others := by
  have first : regroup width [] (spread width groups ++ []) = _ := regroup_spread positive left
  have second : regroup width [] (spread width others ++ []) = _ := regroup_spread positive right
  rw [same,second] at first
  simpa [regroup] using (congrArg Prod.fst first).symm

end BitGroups
