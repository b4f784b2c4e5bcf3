import Mathlib

namespace Runs

inductive Run (step : σ → ε → σ → Prop) : σ → List ε → σ → Prop where
  | nil : Run step s [] s
  | snoc : Run step s events t → step t event u → Run step s (events ++ [event]) u

theorem Run.preserves {step : σ → ε → σ → Prop} {property : σ → Prop}
    (kept : ∀ s event t, property s → step s event t → property t) (run : Run step s events t)
    (start : property s) : property t := by
  induction run with
  | nil => exact start
  | snoc _ taken ih => exact kept _ _ _ ih taken

theorem Run.traces {step : σ → ε → σ → Prop} {property : List ε → σ → Prop}
    (kept : ∀ events s event t, property events s → step s event t → property (events ++ [event]) t)
    (run : Run step s events t) (start : property [] s) : property events t := by
  induction run with
  | nil => exact start
  | snoc _ taken ih => exact kept _ _ _ _ ih taken

theorem Run.climbs {step : σ → ε → σ → Prop} {below : σ → σ → Prop} (refl : ∀ s, below s s)
    (trans : ∀ s t u, below s t → below t u → below s u) (climb : ∀ s event t, step s event t → below s t)
    (run : Run step s events t) : below s t := by
  induction run with
  | nil => exact refl _
  | snoc _ taken ih => exact trans _ _ _ ih (climb _ _ _ taken)

theorem Run.spends {step : σ → ε → σ → Prop} {property : σ → Prop} {left : σ → Nat} {cost income : ε → Nat}
    (pays : ∀ s event t, property s → step s event t → property t ∧ cost event + left t ≤ left s + income event)
    (run : Run step s events t) (start : property s) :
    property t ∧ (events.map cost).sum + left t ≤ left s + (events.map income).sum := by
  induction run with
  | nil => exact ⟨start,by simp⟩
  | snoc _ taken ih =>
    obtain ⟨here,before⟩ := ih
    obtain ⟨there,paid⟩ := pays _ _ _ here taken
    refine ⟨there,?_⟩
    simp only [List.map_append,List.sum_append,List.map_singleton,List.sum_singleton]
    omega

theorem Run.append {step : σ → ε → σ → Prop} (first : Run step s before t) (second : Run step t after u) :
    Run step s (before ++ after) u := by
  induction second with
  | nil => rwa [List.append_nil]
  | snoc _ taken ih => rw [← List.append_assoc]; exact ih.snoc taken

-- Where every state that is not at rest has an allowed step that leaves less, allowed steps lead to rest.
theorem Run.rests {step : σ → ε → σ → Prop} {property resting : σ → Prop} {allowed : ε → Prop} (left : σ → Nat)
    (goes : ∀ s, property s → ¬resting s → ∃ event t, allowed event ∧ step s event t ∧ property t ∧ left t < left s)
    (start : property s) : ∃ events t, Run step s events t ∧ (∀ event ∈ events, allowed event) ∧ property t ∧ resting t := by
  induction remaining : left s using Nat.strongRecOn generalizing s with
  | ind count ih =>
    by_cases rest : resting s
    · exact ⟨[],s,.nil,by simp,start,rest⟩
    · obtain ⟨event,next,fine,taken,there,less⟩ := goes s start rest
      obtain ⟨events,t,run,all,last,rests⟩ := ih (left next) (remaining ▸ less) there rfl
      have whole := (Run.nil.snoc taken).append run
      refine ⟨[] ++ [event] ++ events,t,whole,?_,last,rests⟩
      intro other member
      rcases List.mem_append.mp member with first | later
      · rw [List.mem_singleton.mp first]
        exact fine
      · exact all other later

theorem Run.mono {step other : σ → ε → σ → Prop} (part : ∀ s event t, step s event t → other s event t)
    (run : Run step s events t) : Run other s events t := by
  induction run with
  | nil => exact .nil
  | snoc _ taken ih => exact ih.snoc (part _ _ _ taken)

theorem Run.guarded {step : σ → ε → σ → Prop} {allowed : ε → Prop} (run : Run step s events t)
    (all : ∀ event ∈ events, allowed event) : Run (fun s event t => allowed event ∧ step s event t) s events t := by
  induction run with
  | nil => exact .nil
  | snoc _ taken ih =>
    exact (ih fun event member => all event (List.mem_append_left _ member)).snoc ⟨all _ (by simp),taken⟩

-- Steps whose event passes a check in the state that it is taken in.
def Checked (check : σ → ε → Bool) (step : σ → ε → σ → Prop) (s : σ) (event : ε) (t : σ) : Prop :=
  check s event = true ∧ step s event t

theorem Run.unchecked {check : σ → ε → Bool} {step : σ → ε → σ → Prop} (run : Run (Checked check step) s events t) :
    Run step s events t := run.mono fun _ _ _ taken => taken.2

def follow (step : σ → ε → Option σ) (s : σ) : List ε → Option σ
  | [] => some s
  | event :: later => (step s event).bind fun t => follow step t later

theorem Run.of_follow {step : σ → ε → Option σ} (ended : follow step s events = some t) :
    Run (fun s event t => step s event = some t) s events t := by
  induction events generalizing s with
  | nil =>
    cases Option.some.inj ended
    exact .nil
  | cons event later ih =>
    obtain ⟨next,taken,rest⟩ := Option.bind_eq_some_iff.mp ended
    exact (Run.nil.snoc taken).append (ih rest)

theorem followed {step : σ → ε → Option σ} {start other : σ} (through : (follow step start events).isSome = true) :
    follow step start events = some ((follow step start events).getD other) := by
  obtain ⟨t,ended⟩ := Option.isSome_iff_exists.mp through
  rw [ended,Option.getD_some]

def along (step : σ → ε → Option σ) (check : σ → ε → Bool) (s : σ) : List ε → Bool
  | [] => true
  | event :: later => check s event && (step s event).all fun t => along step check t later

theorem Run.of_along {step : σ → ε → Option σ} {check : σ → ε → Bool} (ended : follow step s events = some t)
    (checked : along step check s events = true) : Run (Checked check fun s event t => step s event = some t) s events t := by
  induction events generalizing s with
  | nil =>
    cases Option.some.inj ended
    exact .nil
  | cons event later ih =>
    obtain ⟨next,taken,rest⟩ := Option.bind_eq_some_iff.mp ended
    simp only [along,taken,Option.all_some,Bool.and_eq_true] at checked
    exact (Run.nil.snoc ⟨checked.1,taken⟩).append (ih rest checked.2)

end Runs
