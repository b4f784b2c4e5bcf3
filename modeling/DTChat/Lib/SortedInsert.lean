import Mathlib

namespace SortedInsert

-- Lists in the order of a comparator; equal keys may stand in any order.
def Sorted (cmp : α → α → Ordering) (l : List α) : Prop := l.Pairwise fun a b => (cmp a b).isLE

def Ordered (f : α → Ordering) (l : List α) : Prop :=
  l.Pairwise fun a b => (f b = .lt → f a = .lt) ∧ (f a = .gt → f b = .gt)

-- The documented contract of `binary_search_by`: some matching index, or the
-- place where a match could be inserted.
structure BinarySearch (α : Type) where
  search : List α → (α → Ordering) → Except Nat Nat
  found : ∀ {l f i}, search l f = .ok i → ∃ a, l[i]? = some a ∧ f a = .eq
  missing : ∀ {l f i}, Ordered f l → search l f = .error i →
    i ≤ l.length ∧ (∀ a ∈ l.take i, f a = .lt) ∧ ∀ a ∈ l.drop i, f a = .gt

def BinarySearch.index (binary : BinarySearch α) (l : List α) (f : α → Ordering) : Nat :=
  match binary.search l f with
  | .ok i => i
  | .error i => i

-- `sort_by`: std's sort is stable.
def sortBy (cmp : α → α → Ordering) (l : List α) : List α := l.mergeSort fun a b => (cmp a b).isLE

theorem BinarySearch.index_splits (binary : BinarySearch α) (ordered : Ordered f l) :
    binary.index l f ≤ l.length ∧ (∀ a ∈ l.take (binary.index l f), f a ≠ .gt) ∧
      ∀ a ∈ l.drop (binary.index l f), f a ≠ .lt := by
  unfold BinarySearch.index
  cases result : binary.search l f with
  | error i =>
    obtain ⟨inside,before,after⟩ := binary.missing ordered result
    refine ⟨inside,fun a member => ?_,fun a member => ?_⟩
    · rw [before a member]; decide
    · rw [after a member]; decide
  | ok i =>
    obtain ⟨b,here,equal⟩ := binary.found result
    obtain ⟨inside,rfl⟩ := List.getElem?_eq_some_iff.mp here
    have parts := List.pairwise_append.mp (by rw [List.take_append_drop]; exact ordered :
      (l.take i ++ l.drop i).Pairwise _)
    rw [List.drop_eq_getElem_cons inside] at parts
    refine ⟨Nat.le_of_lt inside,fun a member greater => ?_,fun a member less => ?_⟩
    · have later := (parts.2.2 a member _ (List.mem_cons_self)).2 greater
      rw [equal] at later
      cases later
    · rw [List.drop_eq_getElem_cons inside] at member
      rcases List.mem_cons.mp member with rfl | member
      · rw [equal] at less; cases less
      · have earlier := ((List.pairwise_cons.mp parts.2.1).1 a member).1 less
        rw [equal] at earlier
        cases earlier

theorem insertIdx_split {l : List α} (inside : i ≤ l.length) (new : α) : l.insertIdx i new = l.take i ++ new :: l.drop i := by
  induction l generalizing i with
  | nil => simp at inside; simp [inside]
  | cons a rest ih =>
    cases i with
    | zero => rfl
    | succ i =>
      simp only [List.length_cons] at inside
      simp [List.insertIdx_succ_cons,ih (by omega : i ≤ rest.length)]

section comparator
variable {cmp : α → α → Ordering} [Std.TransCmp cmp]

theorem Sorted.ordered (sorted : Sorted cmp l) (new : α) : Ordered (fun a => cmp a new) l := by
  refine List.Pairwise.imp (fun {a b} below => ⟨fun less => ?_,fun greater => ?_⟩) sorted
  · exact Std.TransCmp.lt_of_isLE_of_lt below less
  · have above : cmp new a = .lt := Std.OrientedCmp.gt_iff_lt.mp greater
    exact Std.OrientedCmp.gt_iff_lt.mpr (Std.TransCmp.lt_of_lt_of_isLE above below)

theorem Sorted.insertIdx (binary : BinarySearch α) (sorted : Sorted cmp l) (new : α) :
    Sorted cmp (l.insertIdx (binary.index l fun a => cmp a new) new) := by
  obtain ⟨inside,before,after⟩ := binary.index_splits (sorted.ordered new)
  rw [insertIdx_split inside]
  have parts := List.pairwise_append.mp (by rw [List.take_append_drop]; exact sorted :
    (l.take (binary.index l fun a => cmp a new) ++ l.drop (binary.index l fun a => cmp a new)).Pairwise _)
  have first : ∀ a ∈ l.take (binary.index l fun a => cmp a new), (cmp a new).isLE := by
    intro a member
    exact Ordering.isLE_iff_ne_gt.mpr (before a member)
  have last : ∀ b ∈ l.drop (binary.index l fun a => cmp a new), (cmp new b).isLE := by
    intro b member
    have above := after b member
    rw [@Std.OrientedCmp.eq_swap _ cmp]
    cases same : cmp b new with
    | lt => exact absurd same above
    | eq => rfl
    | gt => rfl
  refine List.pairwise_append.mpr ⟨parts.1,List.pairwise_cons.mpr ⟨last,parts.2.1⟩,?_⟩
  intro a member b inside
  rcases List.mem_cons.mp inside with rfl | inside
  · exact first a member
  · exact parts.2.2 a member b inside

theorem isLE_total (a b : α) : ((cmp a b).isLE || (cmp b a).isLE) = true := by
  rw [@Std.OrientedCmp.eq_swap _ cmp _ b]
  cases cmp a b <;> rfl

theorem sortBy_sorted (l : List α) : Sorted cmp (sortBy cmp l) := by
  apply List.pairwise_mergeSort
  · intro a b c first second
    exact Std.TransCmp.isLE_trans first second
  · exact isLE_total

end comparator

theorem sortBy_perm (cmp : α → α → Ordering) (l : List α) : (sortBy cmp l).Perm l := List.mergeSort_perm l _

-- std's search: `base` moves up to every probe that is not greater.
def probe (l : List α) (f : α → Ordering) (i : Nat) : Ordering := (l[i]?.map f).getD .gt

def narrow (l : List α) (f : α → Ordering) : Nat → Nat → Nat → Nat
  | 0,base,_ => base
  | rounds+1,base,size =>
    if 1 < size then
      let half := size/2
      narrow l f rounds (if probe l f (base+half) = .gt then base else base+half) (size-half)
    else base

def binarySearchBy (l : List α) (f : α → Ordering) : Except Nat Nat :=
  if l = [] then .error 0
  else
    let base := narrow l f l.length 0 l.length
    match probe l f base with
    | .eq => .ok base
    | .lt => .error (base+1)
    | .gt => .error base

theorem probe_get {l : List α} (inside : i < l.length) : probe l f i = f l[i] := by simp [probe,inside]

theorem probe_mono (ordered : Ordered f l) (order : i ≤ j) :
    (probe l f j = .lt → probe l f i = .lt) ∧ (probe l f i = .gt → probe l f j = .gt) := by
  by_cases inside : j < l.length
  · rcases Nat.lt_or_eq_of_le order with below | rfl
    · have pair := List.pairwise_iff_getElem.mp ordered i j (by omega) inside below
      rw [probe_get inside,probe_get (by omega)]
      exact pair
    · exact ⟨id,id⟩
  · have outside : probe l f j = .gt := by simp [probe,Nat.le_of_not_lt inside]
    exact ⟨fun less => (by rw [outside] at less; cases less),fun _ => outside⟩

theorem narrow_spec (ordered : Ordered f l) (enough : size ≤ rounds) (positive : 1 ≤ size)
    (low : base = 0 ∨ probe l f base ≠ .gt) (high : ∀ k, base+size ≤ k → probe l f k = .gt) :
    (narrow l f rounds base size = 0 ∨ probe l f (narrow l f rounds base size) ≠ .gt) ∧
      ∀ k, narrow l f rounds base size < k → probe l f k = .gt := by
  induction rounds generalizing base size with
  | zero => omega
  | succ rounds ih =>
    rw [narrow]
    split
    · rename_i more
      simp only
      split
      · rename_i greater
        apply ih (by omega) (by omega) low
        intro k beyond
        exact (probe_mono ordered (by omega : base+size/2 ≤ k)).2 greater
      · rename_i other
        apply ih (by omega) (by omega) (.inr other)
        intro k beyond
        exact high k (by omega)
    · exact ⟨low,fun k beyond => high k (by omega)⟩

theorem narrow_final (ordered : Ordered f l) (nonempty : l ≠ []) :
    (narrow l f l.length 0 l.length = 0 ∨ probe l f (narrow l f l.length 0 l.length) ≠ .gt) ∧
      ∀ k, narrow l f l.length 0 l.length < k → probe l f k = .gt := by
  apply narrow_spec ordered (Nat.le_refl _) (List.length_pos_iff.mpr nonempty) (.inl rfl)
  intro k beyond
  rw [Nat.zero_add] at beyond
  simp [probe,beyond]

theorem probe_take (below : ∀ k, k < i → probe l f k = .lt) : ∀ a ∈ l.take i, f a = .lt := by
  intro a member
  obtain ⟨k,inside,rfl⟩ := List.getElem_of_mem member
  simp only [List.length_take] at inside
  have here := below k (by omega)
  rw [probe_get (by omega)] at here
  simpa using here

theorem probe_drop (above : ∀ k, i ≤ k → probe l f k = .gt) : ∀ a ∈ l.drop i, f a = .gt := by
  intro a member
  obtain ⟨k,inside,rfl⟩ := List.getElem_of_mem member
  simp only [List.length_drop] at inside
  have here := above (i+k) (by omega)
  rw [probe_get (by omega)] at here
  simpa using here

def stdSearch : BinarySearch α where
  search := binarySearchBy
  found := by
    intro l f i result
    unfold binarySearchBy at result
    split at result
    · cases result
    · simp only at result
      split at result
      · rename_i equal
        cases result
        unfold probe at equal
        cases here : l[narrow l f l.length 0 l.length]? with
        | none => rw [here] at equal; cases equal
        | some a => rw [here] at equal; exact ⟨a,rfl,equal⟩
      · cases result
      · cases result
  missing := by
    intro l f i ordered result
    unfold binarySearchBy at result
    split at result
    · rename_i empty
      cases result
      simp [empty]
    · rename_i nonempty
      obtain ⟨low,high⟩ := narrow_final ordered nonempty
      simp only at result
      split at result
      · cases result
      · rename_i less
        cases result
        have inside : narrow l f l.length 0 l.length < l.length := by
          apply Classical.byContradiction
          intro outside
          simp [probe,Nat.le_of_not_lt outside] at less
        refine ⟨inside,probe_take fun k below => ?_,probe_drop high⟩
        exact (probe_mono ordered (Nat.le_of_lt_succ below)).1 less
      · rename_i greater
        cases result
        have start : narrow l f l.length 0 l.length = 0 := low.resolve_right fun other => other greater
        rw [start] at greater high ⊢
        refine ⟨Nat.zero_le _,by simp,probe_drop fun k _ => ?_⟩
        cases k with
        | zero => exact greater
        | succ k => exact high _ (Nat.succ_pos k)

end SortedInsert
