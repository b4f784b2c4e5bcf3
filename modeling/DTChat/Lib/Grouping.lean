import Mathlib

namespace Grouping
variable {κ ν α : Type*} [DecidableEq κ]

-- A map as the list of its entries. The value of a key is updated, from `new` on if it has none.
def upsert (key : κ) (new : ν) (update : ν → ν) : List (κ × ν) → List (κ × ν)
  | [] => [(key,update new)]
  | entry :: rest => if entry.1 = key then (entry.1,update entry.2) :: rest else entry :: upsert key new update rest

def keys (entries : List (κ × ν)) : List κ := entries.map Prod.fst

theorem lookup_cons (entry : κ × ν) (rest : List (κ × ν)) (key : κ) :
    (entry :: rest).lookup key = if entry.1 = key then some entry.2 else rest.lookup key := by
  by_cases here : entry.1 = key
  · simp [List.lookup,here]
  · have apart : (key == entry.1) = false := beq_false_of_ne (Ne.symm here)
    simp [List.lookup,here,apart]

theorem lookup_upsert (key other : κ) (new : ν) (update : ν → ν) (entries : List (κ × ν)) :
    (upsert key new update entries).lookup other =
      if key = other then some (update ((entries.lookup other).getD new)) else entries.lookup other := by
  induction entries with
  | nil => simp [upsert,lookup_cons]
  | cons entry rest ih =>
    rw [upsert]
    split
    · rename_i here
      by_cases same : key = other <;> simp [lookup_cons,here,same]
    · rename_i apart
      simp only [lookup_cons,ih]
      by_cases same : key = other
      · have elsewhere : entry.1 ≠ other := same ▸ apart
        simp [elsewhere,same]
      · simp [same]

theorem mem_upsert_keys {key other : κ} {new : ν} {update : ν → ν} {entries : List (κ × ν)} :
    other ∈ keys (upsert key new update entries) ↔ other = key ∨ other ∈ keys entries := by
  induction entries with
  | nil => simp [upsert,keys]
  | cons entry rest ih =>
    rw [upsert]
    split
    · rename_i here
      simp [keys,here]
    · simp only [keys,List.map_cons,List.mem_cons] at ih ⊢
      rw [ih]
      exact or_left_comm

theorem upsert_nodup {key : κ} {new : ν} {update : ν → ν} {entries : List (κ × ν)} (once : (keys entries).Nodup) :
    (keys (upsert key new update entries)).Nodup := by
  induction entries with
  | nil => simp [upsert,keys]
  | cons entry rest ih =>
    obtain ⟨absent,later⟩ := List.nodup_cons.mp once
    rw [upsert]
    split
    · exact once
    · rename_i apart
      refine List.nodup_cons.mpr ⟨fun inside => ?_,ih later⟩
      rcases mem_upsert_keys.mp inside with same | old
      · exact apart same
      · exact absent old

theorem mem_entries_iff {entries : List (κ × ν)} (once : (keys entries).Nodup) :
    (key,value) ∈ entries ↔ entries.lookup key = some value := by
  induction entries with
  | nil => simp
  | cons entry rest ih =>
    obtain ⟨absent,later⟩ := List.nodup_cons.mp once
    obtain ⟨first,held⟩ := entry
    rw [List.mem_cons,ih later,lookup_cons]
    by_cases here : first = key
    · have gone : rest.lookup key ≠ some value := by
        intro found
        apply absent
        exact List.mem_map.mpr ⟨(key,value),(ih later).mpr found,here.symm⟩
      simp [here,gone,eq_comm]
    · simp [here,Ne.symm here]

section gathering

variable (keyOf : α → κ) (new : α → ν) (update : α → ν → ν)

def gather (xs : List α) (entries : List (κ × ν)) : List (κ × ν) :=
  xs.foldl (fun entries x => upsert (keyOf x) (new x) (update x) entries) entries

theorem gather_nodup (xs : List α) {entries : List (κ × ν)} (once : (keys entries).Nodup) :
    (keys (gather keyOf new update xs entries)).Nodup := by
  induction xs generalizing entries with
  | nil => exact once
  | cons x rest ih => exact ih (upsert_nodup once)

theorem gather_lookup (xs : List α) (entries : List (κ × ν)) (key : κ) :
    (gather keyOf new update xs entries).lookup key = (xs.filter fun x => keyOf x = key).foldl
      (fun value x => some (update x (value.getD (new x)))) (entries.lookup key) := by
  induction xs generalizing entries with
  | nil => rfl
  | cons x rest ih =>
    rw [gather,List.foldl_cons]
    refine (ih _).trans ?_
    rw [lookup_upsert]
    by_cases here : keyOf x = key <;> simp [here]

theorem gather_value (xs : List α) (key : κ) : (gather keyOf new update xs []).lookup key =
    match xs.filter fun x => keyOf x = key with
    | [] => none
    | first :: later => some (later.foldl (fun value x => update x value) (update first (new first))) := by
  rw [gather_lookup]
  cases xs.filter fun x => decide (keyOf x = key) with
  | nil => rfl
  | cons first later =>
    have folded : ∀ value, later.foldl (fun value x => some (update x (value.getD (new x)))) (some value) =
        some (later.foldl (fun value x => update x value) value) := by
      induction later with
      | nil => exact fun value => rfl
      | cons x rest ih => exact fun value => ih (update x value)
    exact folded _

end gathering

end Grouping
