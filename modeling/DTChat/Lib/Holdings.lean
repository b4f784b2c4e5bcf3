import DTChat.Lib.LockedThreads

namespace Holdings

variable {σ M : Type} [AddCommMonoid M] {f : σ → M} {entries : List σ}

-- What the entries of a list hold together.
def held (f : σ → M) (entries : List σ) : M := (entries.map f).sum

@[simp] theorem held_nil : held f [] = 0 := rfl

@[simp] theorem held_cons : held f (s :: entries) = f s + held f entries := by
  simp [held]

@[simp] theorem held_append : held f (entries ++ later) = held f entries + held f later := by
  simp [held]

theorem held_split {i : Nat} (here : entries[i]? = some s) : ∃ before after, entries = before ++ s :: after ∧
    ∀ t, entries.set i t = before ++ t :: after := by
  obtain ⟨inside,rfl⟩ := List.getElem?_eq_some_iff.mp here
  refine ⟨entries.take i,entries.drop (i+1),by simp,fun t => ?_⟩
  exact List.set_eq_take_append_cons_drop.trans (if_pos inside)

theorem held_set {i : Nat} (here : entries[i]? = some s) (t : σ) : held f (entries.set i t) + f s = held f entries + f t := by
  obtain ⟨before,after,rfl,replaced⟩ := held_split here
  rw [replaced]
  simp only [held_append,held_cons]
  abel

theorem held_gain {i : Nat} (here : entries[i]? = some s) (gained : f t = f s + gain) :
    held f (entries.set i t) = held f entries + gain := by
  obtain ⟨before,after,rfl,replaced⟩ := held_split here
  rw [replaced]
  simp only [held_append,held_cons,gained]
  abel

theorem held_lose {i : Nat} (here : entries[i]? = some s) (given : f s = f t + gone) :
    held f (entries.set i t) + gone = held f entries := by
  obtain ⟨before,after,rfl,replaced⟩ := held_split here
  rw [replaced]
  simp only [held_append,held_cons,given]
  abel

theorem held_set_same {i : Nat} (here : entries[i]? = some s) (same : f t = f s) : held f (entries.set i t) = held f entries := by
  obtain ⟨before,after,rfl,replaced⟩ := held_split here
  rw [replaced]
  simp only [held_append,held_cons,same]

theorem held_none (none : ∀ s ∈ entries, f s = 0) : held f entries = 0 := by
  induction entries with
  | nil => rfl
  | cons s entries ih =>
    rw [held_cons,none s List.mem_cons_self,ih fun t member => none t (List.mem_cons_of_mem s member),add_zero]

theorem held_map [AddCommMonoid N] (g : M →+ N) (f : σ → M) (entries : List σ) :
    g (held f entries) = held (fun s => g (f s)) entries := by
  induction entries with
  | nil => exact map_zero g
  | cons s entries ih => rw [held_cons,held_cons,map_add,ih]

section counting

variable {f : σ → Nat}

theorem le_held {i : Nat} (here : entries[i]? = some s) : f s ≤ held f entries := by
  obtain ⟨before,after,rfl,_⟩ := held_split here
  simp only [held_append,held_cons]
  omega

theorem held_positive (positive : 0 < held f entries) : ∃ (i : Nat) (s : σ), entries[i]? = some s ∧ 0 < f s := by
  apply Classical.byContradiction
  intro nowhere
  refine absurd (held_none fun s member => ?_) (Nat.ne_of_gt positive)
  obtain ⟨i,here⟩ := List.mem_iff_getElem?.mp member
  exact Nat.eq_zero_of_not_pos fun some => nowhere ⟨i,s,here,some⟩

theorem held_alone {i j : Nat} (atMost : held f entries ≤ 1) (here : entries[i]? = some s) (there : entries[j]? = some t)
    (mine : 0 < f s) (theirs : 0 < f t) : i = j := by
  induction entries generalizing i j with
  | nil => cases here
  | cons first entries ih =>
    rw [held_cons] at atMost
    cases i with
    | zero =>
      cases j with
      | zero => rfl
      | succ j =>
        cases here
        have later := le_held (show entries[j]? = some t from there) (f := f)
        omega
    | succ i =>
      cases j with
      | zero =>
        cases there
        have later := le_held (show entries[i]? = some s from here) (f := f)
        omega
      | succ j => rw [ih (by omega) here there]

end counting

end Holdings
