import DTChat.Lib.SortedInsert

namespace SortedInsert

-- What stands in the list with the same key as `x`, in the list's order.
def tied (cmp : α → α → Ordering) (x : α) (l : List α) : List α := l.filter fun a => cmp a x == .eq

theorem mem_tied {cmp : α → α → Ordering} {a x : α} {l : List α} : a ∈ tied cmp x l ↔ a ∈ l ∧ cmp a x = .eq := by simp [tied]

theorem tied_append (cmp : α → α → Ordering) (x : α) (l r : List α) : tied cmp x (l ++ r) = tied cmp x l ++ tied cmp x r :=
  List.filter_append _ _

theorem rotate_same {x : α} {l : List α} : x :: l = l ++ [x] ↔ ∀ a ∈ l, a = x := by
  induction l with
  | nil => simp
  | cons b rest ih =>
    constructor
    · intro same
      obtain ⟨rfl,tail⟩ := List.cons.inj same
      intro a member
      rcases List.mem_cons.mp member with rfl | member
      · rfl
      · exact ih.mp tail a member
    · intro copies
      obtain rfl := copies b List.mem_cons_self
      rw [List.cons_append,← ih.mpr fun a member => copies a (List.mem_cons_of_mem _ member)]

section comparator
variable {cmp : α → α → Ordering} [Std.TransCmp cmp]

theorem Sorted.unique (left : Sorted cmp l) (right : Sorted cmp r) (same : l.Perm r)
    (apart : ∀ a ∈ l, ∀ b ∈ l, cmp a b = .eq → a = b) : l = r := by
  refine List.Perm.eq_of_pairwise (fun a b first second below above => ?_) left right same
  exact apart a first b (same.symm.subset second) (Std.OrientedCmp.isLE_antisymm below above)

theorem tied_pairwise (x : α) (l : List α) : Sorted cmp (tied cmp x l) := by
  apply List.pairwise_of_forall_mem_list
  intro a first b second
  have here := (mem_tied.mp first).2
  have there := Std.OrientedCmp.eq_symm (mem_tied.mp second).2
  rw [Std.TransCmp.eq_trans here there]
  rfl

theorem tied_sortBy (x : α) (l : List α) : tied cmp x (sortBy cmp l) = tied cmp x l := by
  have part : (tied cmp x l).Sublist (sortBy cmp l) := by
    apply List.sublist_mergeSort _ _ (tied_pairwise x l) List.filter_sublist
    · intro a b c first second
      exact Std.TransCmp.isLE_trans first second
    · exact isLE_total
  have inner := part.filter fun a => cmp a x == .eq
  rw [show (tied cmp x l).filter (fun a => cmp a x == .eq) = tied cmp x l by simp [tied]] at inner
  have size : (tied cmp x l).length = (tied cmp x (sortBy cmp l)).length :=
    ((sortBy_perm cmp l).symm.filter _).length_eq
  exact (inner.eq_of_length size).symm

theorem Sorted.eq_of_tied (left : Sorted cmp l) (right : Sorted cmp r) (same : ∀ x, tied cmp x l = tied cmp x r) :
    l = r := by
  have within : ∀ {l r : List α}, (∀ x, tied cmp x l = tied cmp x r) → ∀ a ∈ l, a ∈ r := by
    intro l r same a member
    have here : a ∈ tied cmp a l := mem_tied.mpr ⟨member,Std.ReflCmp.compare_self⟩
    rw [same] at here
    exact (mem_tied.mp here).1
  induction l generalizing r with
  | nil =>
    cases r with
    | nil => rfl
    | cons b rest => cases within (fun x => (same x).symm) b List.mem_cons_self
  | cons a l ih =>
    cases r with
    | nil => cases within same a List.mem_cons_self
    | cons b rest =>
      obtain ⟨first,before⟩ := List.pairwise_cons.mp left
      obtain ⟨second,after⟩ := List.pairwise_cons.mp right
      have equal : a = b := by
        rcases List.mem_cons.mp (within same a List.mem_cons_self) with rfl | inside
        · rfl
        rcases List.mem_cons.mp (within (fun x => (same x).symm) b List.mem_cons_self) with rfl | outside
        · rfl
        have key := Std.OrientedCmp.isLE_antisymm (first b outside) (second a inside)
        have heads := same b
        unfold tied at heads
        rw [List.filter_cons_of_pos (by simp [key]),List.filter_cons_of_pos (by simp [Std.ReflCmp.compare_self])] at heads
        exact (List.cons.inj heads).1
      subst equal
      refine congrArg (a :: ·) (ih before after fun x => ?_)
      have whole := same x
      simp only [tied,List.filter_cons] at whole ⊢
      split at whole
      · exact (List.cons.inj whole).2
      · exact whole

theorem sortBy_iff (l r : List α) : sortBy cmp l = r ↔ Sorted cmp r ∧ ∀ x, tied cmp x r = tied cmp x l := by
  constructor
  · intro sorted
    subst sorted
    exact ⟨sortBy_sorted l,fun x => tied_sortBy x l⟩
  · intro stable
    obtain ⟨sorted,same⟩ := stable
    exact Sorted.eq_of_tied (sortBy_sorted l) sorted fun x => (tied_sortBy x l).trans (same x).symm

theorem sortBy_filter (keep : α → Bool) (l : List α) : (sortBy cmp l).filter keep = sortBy cmp (l.filter keep) := by
  refine ((sortBy_iff _ _).mpr ⟨(sortBy_sorted l).filter keep,fun x => ?_⟩).symm
  have whole : (tied cmp x (sortBy cmp l)).filter keep = (tied cmp x l).filter keep := by rw [tied_sortBy]
  simp only [tied,List.filter_filter] at whole ⊢
  simpa only [Bool.and_comm] using whole

theorem Sorted.sortBy_same (sorted : Sorted cmp l) : sortBy cmp l = l :=
  (sortBy_iff l l).mpr ⟨sorted,fun _ => rfl⟩

theorem sortBy_restored_iff {other : α → α → Ordering} [Std.TransCmp other] (l : List α) :
    sortBy cmp (sortBy other l) = sortBy cmp l ↔ l.Pairwise fun a b => cmp a b = .eq → (other a b).isLE := by
  have keys : (∀ x, Sorted other (tied cmp x l)) ↔ l.Pairwise fun a b => cmp a b = .eq → (other a b).isLE := by
    simp only [Sorted,tied,List.pairwise_filter,beq_iff_eq]
    constructor
    · intro every
      rw [List.pairwise_iff_getElem]
      intro i j inside within order same
      exact List.pairwise_iff_getElem.mp (every l[j]) i j inside within order same Std.ReflCmp.compare_self
    · intro pairs x
      refine pairs.imp fun {a b} below first second => below ?_
      exact Std.TransCmp.eq_trans first (Std.OrientedCmp.eq_symm second)
  rw [sortBy_iff,← keys]
  constructor
  · rintro ⟨_,same⟩ x
    have sorted : Sorted other (tied cmp x (sortBy other l)) := (sortBy_sorted l).filter _
    rwa [← same x,tied_sortBy] at sorted
  · intro sorted
    refine ⟨sortBy_sorted l,fun x => ?_⟩
    rw [tied_sortBy,tied,tied,sortBy_filter]
    exact (sorted x).sortBy_same.symm

theorem insertIdx_stable_iff {l : List α} (inside : i ≤ l.length) (new : α) (sorted : Sorted cmp (l.insertIdx i new)) :
    l.insertIdx i new = sortBy cmp (l ++ [new]) ↔ ∀ a ∈ l.drop i, cmp a new = .eq → a = new := by
  have parts : ∀ x, (tied cmp x (l.insertIdx i new) = tied cmp x (l ++ [new]) ↔
      tied cmp x [new] ++ tied cmp x (l.drop i) = tied cmp x (l.drop i) ++ tied cmp x [new]) := by
    intro x
    rw [insertIdx_split inside,tied_append,tied_append,← List.singleton_append,tied_append]
    have halves : tied cmp x l = tied cmp x (l.take i) ++ tied cmp x (l.drop i) := by
      rw [← tied_append,List.take_append_drop]
    rw [halves,List.append_assoc,List.append_cancel_left_eq]
  rw [eq_comm,sortBy_iff]
  constructor
  · intro stable
    have here := (parts new).mp (stable.2 new)
    rw [show tied cmp new [new] = [new] by simp [tied,Std.ReflCmp.compare_self]] at here
    intro a member key
    exact rotate_same.mp here a (mem_tied.mpr ⟨member,key⟩)
  · intro copies
    refine ⟨sorted,fun x => (parts x).mpr ?_⟩
    by_cases key : cmp new x = .eq
    · rw [show tied cmp x [new] = [new] by simp [tied,key]]
      apply rotate_same.mpr
      intro a member
      obtain ⟨inside,same⟩ := mem_tied.mp member
      exact copies a inside (Std.TransCmp.eq_trans same (Std.OrientedCmp.eq_symm key))
    · rw [show tied cmp x [new] = [] by simp [tied,key]]
      simp

end comparator

theorem ordered_after {f : α → Ordering} {l : List α} (ordered : Ordered f l) (unmatched : ∀ a ∈ l, f a ≠ .eq) :
    ∀ a ∈ l.drop (l.takeWhile fun a => f a == .lt).length, f a = .gt := by
  induction l with
  | nil => intro a member; cases member
  | cons b rest ih =>
    obtain ⟨first,ordered⟩ := List.pairwise_cons.mp ordered
    intro a member
    cases here : f b with
    | eq => exact absurd here (unmatched b List.mem_cons_self)
    | lt =>
      rw [List.takeWhile_cons_of_pos (by simp [here]),List.length_cons,List.drop_succ_cons] at member
      exact ih ordered (fun a member => unmatched a (List.mem_cons_of_mem _ member)) a member
    | gt =>
      rw [List.takeWhile_cons_of_neg (by simp [here])] at member
      rcases List.mem_cons.mp member with rfl | member
      · exact here
      · exact (first a member).2 here

-- The contract also allows a search that always gives the first match.
def firstMatch : BinarySearch α where
  search l f := match l.findIdx? fun a => f a == .eq with
    | some i => .ok i
    | none => .error (l.takeWhile fun a => f a == .lt).length
  found := by
    intro l f i result
    split at result
    · rename_i j here
      cases result
      obtain ⟨inside,equal,_⟩ := List.findIdx?_eq_some_iff_getElem.mp here
      exact ⟨l[i],List.getElem?_eq_getElem inside,by simpa using equal⟩
    · cases result
  missing := by
    intro l f i ordered result
    split at result
    · cases result
    · rename_i none
      cases result
      have unmatched : ∀ a ∈ l, f a ≠ .eq := by simpa using none
      refine ⟨(List.takeWhile_sublist _).length_le,?_,ordered_after ordered unmatched⟩
      intro a member
      rw [← List.prefix_iff_eq_take.mp (List.takeWhile_prefix _)] at member
      simpa using List.all_eq_true.mp List.all_takeWhile a member

theorem firstMatch_first {f : α → Ordering} {l : List α} (member : a ∈ l) (equal : f a = .eq) :
    a ∈ l.drop (firstMatch.index l f) := by
  obtain ⟨k,inside,rfl⟩ := List.getElem_of_mem member
  have some : (l.findIdx? fun a => f a == .eq).isSome := by
    rw [List.findIdx?_isSome]
    exact List.any_eq_true.mpr ⟨_,member,by simp [equal]⟩
  obtain ⟨i,here⟩ := Option.isSome_iff_exists.mp some
  obtain ⟨_,_,earlier⟩ := List.findIdx?_eq_some_iff_getElem.mp here
  have order : i ≤ k := by
    apply Nat.le_of_not_lt
    intro below
    have differs := earlier k below
    simp [equal] at differs
  have index : firstMatch.index l f = i := by
    simp only [BinarySearch.index,firstMatch,here]
  rw [index]
  exact List.mem_drop_iff_getElem.mpr ⟨k-i,by omega,by simp [Nat.add_sub_cancel' order]⟩

theorem BinarySearch.index_match (binary : BinarySearch α) {f : α → Ordering} (ordered : Ordered f l) (member : a ∈ l)
    (equal : f a = .eq) : ∃ b ∈ l.drop (binary.index l f), f b = .eq := by
  unfold BinarySearch.index
  cases result : binary.search l f with
  | ok i =>
    obtain ⟨b,here,same⟩ := binary.found result
    obtain ⟨inside,rfl⟩ := List.getElem?_eq_some_iff.mp here
    refine ⟨_,?_,same⟩
    simp only
    rw [List.drop_eq_getElem_cons inside]
    exact List.mem_cons_self
  | error i =>
    obtain ⟨_,before,after⟩ := binary.missing ordered result
    rw [← List.take_append_drop i l] at member
    rcases List.mem_append.mp member with early | late
    · rw [before a early] at equal
      cases equal
    · exact ⟨a,late,equal⟩

end SortedInsert
