import Mathlib

namespace Precedence

def Before (l : List α) (a b : α) : Prop := [a,b].Sublist l

instance [DecidableEq α] (l : List α) (a b : α) : Decidable (Before l a b) := inferInstanceAs (Decidable (List.Sublist _ _))

theorem Before.pairwise {l : List α} (before : Before l a b) (related : l.Pairwise r) : r a b :=
  List.pairwise_iff_forall_sublist.mp related before

theorem Before.map (f : α → β) {l : List α} (before : Before l a b) : Before (l.map f) (f a) (f b) := List.Sublist.map f before

theorem Before.sublist {l : List α} (before : Before l a b) (part : l.Sublist longer) : Before longer a b := before.trans part

theorem before_total {l : List α} (first : a ∈ l) (second : b ∈ l) (apart : a ≠ b) : Before l a b ∨ Before l b a := by
  induction l with
  | nil => cases first
  | cons x rest ih =>
    rcases List.mem_cons.mp first with rfl | early
    · have late := (List.mem_cons.mp second).resolve_left apart.symm
      exact .inl (List.Sublist.cons_cons _ (List.singleton_sublist.mpr late))
    · rcases List.mem_cons.mp second with rfl | late
      · exact .inr (List.Sublist.cons_cons _ (List.singleton_sublist.mpr early))
      · exact (ih early late).imp (List.Sublist.cons _) (List.Sublist.cons _)

theorem before_asymm {l : List α} (distinct : l.Nodup) (before : Before l a b) : ¬Before l b a := by
  induction l with
  | nil => cases before
  | cons x rest ih =>
    obtain ⟨fresh,distinct⟩ := List.nodup_cons.mp distinct
    intro after
    cases before with
    | cons _ early =>
      cases after with
      | cons _ late => exact ih distinct early late
      | cons_cons _ late => exact fresh (early.subset (List.mem_cons_of_mem _ List.mem_cons_self))
    | cons_cons _ early =>
      cases after with
      | cons _ late => exact fresh (late.subset (List.mem_cons_of_mem _ List.mem_cons_self))
      | cons_cons _ late => exact fresh (List.singleton_sublist.mp early)

end Precedence
