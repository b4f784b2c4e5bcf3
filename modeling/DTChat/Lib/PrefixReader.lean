import Mathlib

namespace PrefixReader

-- A reader takes a value off the front of a byte string and returns the rest.
abbrev Reader (α : Type) := List UInt8 → Option (α × List UInt8)

def accept (value : α) : Reader α := fun bytes => some (value,bytes)
def reject : Reader α := fun _ => none
def andThen (first : Reader α) (next : α → Reader β) : Reader β :=
  fun bytes => (first bytes).bind fun read => next read.1 read.2
def takeBytes (count : Nat) : Reader (List UInt8) :=
  fun bytes => if bytes.length < count then none else some (bytes.take count,bytes.drop count)

-- What a reader accepted is decided by the bytes it used, never by what follows them.
def Stable (reader : Reader α) : Prop :=
  ∀ bytes value rest, reader bytes = some (value,rest) →
    ∃ used, bytes = used ++ rest ∧ ∀ tail, reader (used ++ tail) = some (value,tail)

theorem Stable.accept (value : α) : Stable (accept value) := by
  intro bytes found rest read
  cases Option.some.inj read
  exact ⟨[],rfl,fun _ => rfl⟩

theorem Stable.reject : Stable (reject (α := α)) := by
  intro bytes found rest read
  cases read

theorem Stable.andThen {first : Reader α} {next : α → Reader β} (one : Stable first)
    (two : ∀ value, Stable (next value)) : Stable (andThen first next) := by
  intro bytes found rest read
  obtain ⟨⟨value,middle⟩,head,tail⟩ := Option.bind_eq_some_iff.mp read
  obtain ⟨used,rfl,again⟩ := one _ _ _ head
  obtain ⟨more,rfl,later⟩ := two value _ _ _ tail
  refine ⟨used ++ more,by simp,fun after => ?_⟩
  have same : first (used ++ (more ++ after)) = some (value,more ++ after) := again _
  simp only [PrefixReader.andThen,List.append_assoc,same,Option.bind_some,later]

theorem Stable.takeBytes (count : Nat) : Stable (takeBytes count) := by
  intro bytes found rest read
  unfold PrefixReader.takeBytes at read
  split at read
  · cases read
  · rename_i enough
    cases Option.some.inj read
    refine ⟨bytes.take count,(List.take_append_drop count bytes).symm,fun tail => ?_⟩
    have length : (bytes.take count).length = count := by simp; omega
    unfold PrefixReader.takeBytes
    rw [if_neg (by simp; omega),List.take_left' length,List.drop_left' length]

theorem Stable.extend {reader : Reader α} (stable : Stable reader)
    (read : reader bytes = some (value,rest)) (tail : List UInt8) :
    reader (bytes ++ tail) = some (value,rest ++ tail) := by
  obtain ⟨used,rfl,again⟩ := stable _ _ _ read
  rw [List.append_assoc]
  exact again _

theorem Stable.uses {reader : Reader α} (stable : Stable reader) (nonempty : reader [] = none)
    (read : reader bytes = some (value,rest)) :
    ∃ used, used ≠ [] ∧ bytes = used ++ rest ∧ ∀ tail, reader (used ++ tail) = some (value,tail) := by
  obtain ⟨used,same,again⟩ := stable _ _ _ read
  refine ⟨used,?_,same,again⟩
  rintro rfl
  have here := again []
  rw [List.append_nil,nonempty] at here
  cases here

theorem andThen_some {first : Reader α} {next : α → Reader β} (read : first bytes = some (value,rest)) :
    andThen first next bytes = next value rest := by
  simp only [andThen,read,Option.bind_some]

theorem andThen_none {first : Reader α} {next : α → Reader β} (refused : first bytes = none) :
    andThen first next bytes = none := by
  simp only [andThen,refused,Option.bind_none]

theorem takeBytes_append (body tail : List UInt8) :
    takeBytes body.length (body ++ tail) = some (body,tail) := by
  simp [takeBytes]

structure FieldReader (σ : Type) where
  read : σ → Reader σ
  stable : ∀ s, Stable (read s)
  starved : ∀ s, read s [] = none

namespace FieldReader
variable {σ : Type} (field : FieldReader σ)

def mergeFor : Nat → σ → List UInt8 → Option σ
  | _,s,[] => some s
  | 0,_,_ :: _ => none
  | fuel+1,s,b :: bytes => (field.read s (b :: bytes)).bind fun read => mergeFor fuel read.1 read.2

def merge (s : σ) (bytes : List UInt8) : Option σ := field.mergeFor bytes.length s bytes

theorem shortens (read : field.read s bytes = some (next,rest)) : rest.length < bytes.length := by
  obtain ⟨used,nonempty,rfl,_⟩ := (field.stable s).uses (field.starved s) read
  have := List.length_pos_iff.mpr nonempty
  rw [List.length_append]
  omega

theorem mergeFor_enough (fuel : Nat) (s : σ) (bytes : List UInt8) (enough : bytes.length ≤ fuel) :
    field.mergeFor fuel s bytes = field.merge s bytes := by
  induction fuel using Nat.strongRecOn generalizing s bytes with
  | ind fuel ih =>
    cases bytes with
    | nil => cases fuel <;> rfl
    | cons b rest =>
      cases fuel with
      | zero => simp at enough
      | succ fuel =>
        simp only [merge,List.length_cons,mergeFor]
        cases read : field.read s (b :: rest) with
        | none => rfl
        | some result =>
          obtain ⟨next,later⟩ := result
          have shorter := field.shortens read
          simp only [List.length_cons] at shorter enough
          simp only [Option.bind_some]
          rw [ih fuel (Nat.lt_succ_self _) next later (by omega)]
          by_cases equal : rest.length = fuel
          · rw [equal,ih fuel (Nat.lt_succ_self _) next later (by omega)]
          · rw [ih rest.length (by omega) next later (by omega)]

@[simp] theorem merge_nil (s : σ) : field.merge s [] = some s := rfl

theorem merge_step (read : field.read s bytes = some (next,rest)) :
    field.merge s bytes = field.merge next rest := by
  cases bytes with
  | nil => rw [field.starved] at read; cases read
  | cons b more =>
    have shorter := field.shortens read
    simp only [List.length_cons] at shorter
    rw [merge,List.length_cons,mergeFor,read,Option.bind_some]
    exact field.mergeFor_enough _ _ _ (by simp only; omega)

theorem merge_refused (nonempty : bytes ≠ []) (refused : field.read s bytes = none) :
    field.merge s bytes = none := by
  cases bytes with
  | nil => exact absurd rfl nonempty
  | cons b more => rw [merge,List.length_cons,mergeFor,refused,Option.bind_none]

theorem merge_cases (nonempty : bytes ≠ []) (merged : field.merge s bytes = some last) :
    ∃ next rest, field.read s bytes = some (next,rest) ∧ rest.length < bytes.length ∧
      field.merge next rest = some last := by
  cases read : field.read s bytes with
  | none => rw [field.merge_refused nonempty read] at merged; cases merged
  | some result =>
    obtain ⟨next,rest⟩ := result
    exact ⟨next,rest,rfl,field.shortens read,(field.merge_step read).symm.trans merged⟩

theorem merge_preserves (property : σ → Prop)
    (kept : ∀ s bytes next rest, property s → field.read s bytes = some (next,rest) → property next)
    (start : property s) (merged : field.merge s bytes = some last) : property last := by
  induction length : bytes.length using Nat.strongRecOn generalizing s bytes with
  | ind count ih =>
    by_cases empty : bytes = []
    · subst empty; cases Option.some.inj merged; exact start
    · obtain ⟨next,rest,read,shorter,later⟩ := field.merge_cases empty merged
      exact ih rest.length (by omega) (kept _ _ _ _ start read) later rfl

theorem merge_append (merged : field.merge s left = some middle) (right : List UInt8) :
    field.merge s (left ++ right) = field.merge middle right := by
  induction length : left.length using Nat.strongRecOn generalizing s left with
  | ind count ih =>
    by_cases empty : left = []
    · subst empty; cases Option.some.inj merged; rfl
    · obtain ⟨next,rest,read,shorter,later⟩ := field.merge_cases empty merged
      rw [field.merge_step ((field.stable s).extend read right)]
      exact ih rest.length (by omega) later rfl

theorem merge_cut (whole : field.read s (kept ++ lost) = some (next,[])) (some_kept : kept ≠ [])
    (some_lost : lost ≠ []) : field.merge s kept = none := by
  apply field.merge_refused some_kept
  cases read : field.read s kept with
  | none => rfl
  | some result =>
    have longer := (field.stable s).extend read lost
    rw [whole] at longer
    have empty := congrArg Prod.snd (Option.some.inj longer)
    simp only [List.nil_eq,List.append_eq_nil_iff] at empty
    exact absurd empty.2 some_lost

theorem merge_measure (measure : σ → Nat)
    (field_measure : ∀ s bytes next rest, field.read s bytes = some (next,rest) →
      measure next + rest.length ≤ measure s + bytes.length)
    (merged : field.merge s bytes = some last) : measure last ≤ measure s + bytes.length := by
  induction length : bytes.length using Nat.strongRecOn generalizing s bytes with
  | ind count ih =>
    by_cases empty : bytes = []
    · subst empty; cases Option.some.inj merged; omega
    · obtain ⟨next,rest,read,shorter,later⟩ := field.merge_cases empty merged
      have here := field_measure _ _ _ _ read
      have after := ih rest.length (by omega) later rfl
      omega

end FieldReader
end PrefixReader
