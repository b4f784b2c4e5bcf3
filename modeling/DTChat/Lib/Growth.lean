import Mathlib

namespace Growth
variable {α : Type*} {r : α → α → Prop}

-- Everything stays, changed at most as `r` allows, and more may come.
def Grows (r : α → α → Prop) (before after : Multiset α) : Prop := ∃ kept ≤ after, Multiset.Rel r before kept

theorem grows_rel (changed : Multiset.Rel r before after) : Grows r before after := ⟨after,le_rfl,changed⟩

theorem grows_more [Std.Refl r] (inside : before ≤ after) : Grows r before after :=
  ⟨before,inside,Multiset.rel_refl_of_refl_on fun x _ => Std.Refl.refl x⟩

theorem grows_refl [Std.Refl r] (bag : Multiset α) : Grows r bag bag := grows_more le_rfl

theorem grows_trans [IsTrans α r] (early : Grows r before between) (late : Grows r between after) : Grows r before after := by
  obtain ⟨kept,inside,first⟩ := early
  obtain ⟨stays,still,second⟩ := late
  obtain ⟨more,rfl⟩ := Multiset.le_iff_exists_add.mp inside
  obtain ⟨left,right,same,_,rfl⟩ := Multiset.rel_add_left.mp second
  exact ⟨left,(Multiset.le_add_right _ _).trans still,first.trans r same⟩

theorem grows_mono {weaker : α → α → Prop} (grows : Grows r before after) (all : ∀ x y, r x y → weaker x y) :
    Grows weaker before after := by
  obtain ⟨kept,inside,same⟩ := grows
  exact ⟨kept,inside,same.mono fun x _ y _ => all x y⟩

end Growth
