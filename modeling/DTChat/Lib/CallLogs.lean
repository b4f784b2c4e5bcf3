import Mathlib

namespace CallLogs

-- A program ends with a value or with an exception, or is cut off while it still runs.
inductive Result (α : Type) where
  | returned (value : α)
  | raised
  | unfinished
  deriving DecidableEq

def Result.closed (result : Result α) : Result Unit → Result α
  | .returned () => result
  | .raised => .raised
  | .unfinished => .unfinished

-- A program calls an outside world that may answer from every call made so far.
-- It is given the calls of the past and yields its result with the calls it adds.
def Prog (ε α : Type) : Type := List ε → Result α × List ε

def Emits (past : List ε) (prog : Prog ε α) (post : Result α → List ε → Prop) : Prop :=
  post (prog past).1 (prog past).2

theorem Emits.mono (emits : Emits past prog pre) (weaker : ∀ result calls, pre result calls → post result calls) :
    Emits past prog post := weaker _ _ emits

namespace Prog

def ret (value : α) : Prog ε α := fun _ => (.returned value,[])

def cut : Prog ε α := fun _ => (.unfinished,[])

def andThen (first : Prog ε α) (next : α → Prog ε β) : Prog ε β := fun past =>
  match first past with
  | (.returned value,calls) => ((next value (past ++ calls)).1,calls ++ (next value (past ++ calls)).2)
  | (.raised,calls) => (.raised,calls)
  | (.unfinished,calls) => (.unfinished,calls)

instance : Monad (Prog ε) where
  pure := ret
  bind := andThen

def ask (answer : List ε → α) (call : α → ε) : Prog ε α := fun past =>
  (.returned (answer past),[call (answer past)])

def demand (answer : List ε → Option α) (call : Option α → ε) : Prog ε α := fun past =>
  match answer past with
  | some value => (.returned value,[call (some value)])
  | none => (.raised,[call none])

def request (accepted : List ε → Bool) (call : Bool → ε) : Prog ε Unit := fun past =>
  (if accepted past then .returned () else .raised,[call (accepted past)])

def orElse (body handler : Prog ε α) : Prog ε α := fun past =>
  match body past with
  | (.raised,calls) => ((handler (past ++ calls)).1,calls ++ (handler (past ++ calls)).2)
  | (.returned value,calls) => (.returned value,calls)
  | (.unfinished,calls) => (.unfinished,calls)

def always (body : Prog ε α) (cleanup : Prog ε Unit) : Prog ε α := fun past =>
  match body past with
  | (.unfinished,calls) => (.unfinished,calls)
  | (result,calls) => (result.closed (cleanup (past ++ calls)).1,calls ++ (cleanup (past ++ calls)).2)

def loop (round : Prog ε Bool) : Nat → Prog ε Unit
  | 0 => cut
  | fuel + 1 => do
    if ← round then loop round fuel

end Prog

open Prog

section rules

variable {past : List ε}

@[simp] theorem emits_pure {value : α} : Emits past (pure value) post ↔ post (.returned value) [] := Iff.rfl

@[simp] theorem emits_cut {post : Result α → List ε → Prop} : Emits past cut post ↔ post .unfinished [] := Iff.rfl

def Then (past : List ε) (next : α → Prog ε β) (post : Result β → List ε → Prop) : Result α → List ε → Prop
  | .returned value,calls => Emits (past ++ calls) (next value) fun result after => post result (calls ++ after)
  | .raised,calls => post .raised calls
  | .unfinished,calls => post .unfinished calls

@[simp] theorem emits_bind {first : Prog ε α} {next : α → Prog ε β} {post : Result β → List ε → Prop} :
    Emits past (first >>= next) post ↔ Emits past first (Then past next post) := by
  simp only [Emits,bind,andThen]
  rcases first past with ⟨_ | _ | _,calls⟩ <;> rfl

@[simp] theorem emits_ask {answer : List ε → α} {call : α → ε} :
    Emits past (ask answer call) post ↔ post (.returned (answer past)) [call (answer past)] := Iff.rfl

theorem emits_demand {answer : List ε → Option α} {call : Option α → ε} {post : Result α → List ε → Prop} :
    Emits past (demand answer call) post ↔
      (∀ value, answer past = some value → post (.returned value) [call (some value)]) ∧
      (answer past = none → post .raised [call none]) := by
  simp only [Emits,demand]
  cases answer past <;> simp

theorem emits_request {accepted : List ε → Bool} {call : Bool → ε} {post : Result Unit → List ε → Prop} :
    Emits past (request accepted call) post ↔
      (accepted past = true → post (.returned ()) [call true]) ∧ (accepted past = false → post .raised [call false]) := by
  simp only [Emits,request]
  cases accepted past <;> simp

def Caught (past : List ε) (handler : Prog ε α) (post : Result α → List ε → Prop) : Result α → List ε → Prop
  | .raised,calls => Emits (past ++ calls) handler fun result after => post result (calls ++ after)
  | .returned value,calls => post (.returned value) calls
  | .unfinished,calls => post .unfinished calls

@[simp] theorem emits_orElse {body handler : Prog ε α} {post : Result α → List ε → Prop} :
    Emits past (orElse body handler) post ↔ Emits past body (Caught past handler post) := by
  simp only [Emits,orElse]
  rcases body past with ⟨_ | _ | _,calls⟩ <;> rfl

def Cleaned (past : List ε) (cleanup : Prog ε Unit) (post : Result α → List ε → Prop) : Result α → List ε → Prop
  | .unfinished,calls => post .unfinished calls
  | result,calls => Emits (past ++ calls) cleanup fun closing after => post (result.closed closing) (calls ++ after)

@[simp] theorem emits_always {body : Prog ε α} {cleanup : Prog ε Unit} {post : Result α → List ε → Prop} :
    Emits past (always body cleanup) post ↔ Emits past body (Cleaned past cleanup post) := by
  simp only [Emits,always]
  rcases body past with ⟨_ | _ | _,calls⟩ <;> rfl

def Goes (keeps : List ε → Prop) (post : Result Unit → List ε → Prop) : Result Bool → List ε → Prop
  | .returned true,calls => keeps calls
  | .returned false,calls => post (.returned ()) calls
  | .raised,calls => post .raised calls
  | .unfinished,calls => post .unfinished calls

-- The invariant rule: each round keeps it or ends the loop as wanted.
theorem emits_loop {round : Prog ε Bool} {post : Result Unit → List ε → Prop} (keeps : List ε → Prop) (start : keeps [])
    (step : ∀ calls, keeps calls → Emits (past ++ calls) round fun result after =>
      Goes keeps post result (calls ++ after))
    (stopped : ∀ calls, keeps calls → post .unfinished calls) (fuel : Nat) : Emits past (loop round fuel) post := by
  suffices general : ∀ calls, keeps calls →
      Emits (past ++ calls) (loop round fuel) fun result after => post result (calls ++ after) by
    simpa using general [] start
  induction fuel with
  | zero =>
    intro calls kept
    simpa [loop] using stopped calls kept
  | succ fuel ih =>
    intro calls kept
    rw [loop,emits_bind]
    refine (step calls kept).mono ?_
    rintro (⟨_ | _⟩ | _ | _) after ended
    · simpa [Then,Goes] using ended
    · simpa [Then,Goes,List.append_assoc] using ih (calls ++ after) ended
    · exact ended
    · exact ended

end rules

def Only (kind : ε → Prop) (prog : Prog ε α) : Prop := ∀ past, Emits past prog fun _ calls => ∀ call ∈ calls, kind call

section only

variable {kind : ε → Prop}

theorem Only.after {prog : Prog ε α} (later : Only kind prog) (past : List ε) (kept : ∀ call ∈ calls, kind call) :
    Emits (past ++ calls) prog fun _ more => ∀ call ∈ calls ++ more, kind call := by
  refine (later (past ++ calls)).mono ?_
  intro _ more kind call listed
  exact (List.mem_append.mp listed).elim (kept call) (kind call)

theorem only_pure (value : α) : Only kind (pure value : Prog ε α) := by
  intro past call listed
  simp [pure,ret] at listed

theorem only_bind {first : Prog ε α} {next : α → Prog ε β} (before : Only kind first)
    (after : ∀ value, Only kind (next value)) : Only kind (first >>= next) := by
  intro past
  rw [emits_bind]
  refine (before past).mono ?_
  rintro (value | _ | _) calls kept
  · exact (after value).after past kept
  · exact kept
  · exact kept

theorem only_ask {answer : List ε → α} {call : α → ε} (allowed : ∀ value, kind (call value)) :
    Only kind (ask answer call) := by
  intro past made listed
  rw [List.mem_singleton.mp listed]
  exact allowed _

theorem only_demand {answer : List ε → Option α} {call : Option α → ε} (allowed : ∀ value, kind (call value)) :
    Only kind (demand answer call) := by
  intro past
  rw [emits_demand]
  constructor
  · intro value _
    simpa using allowed (some value)
  · intro _
    simpa using allowed none

theorem only_request {accepted : List ε → Bool} {call : Bool → ε} (allowed : ∀ value, kind (call value)) :
    Only kind (request accepted call) := by
  intro past made listed
  rw [List.mem_singleton.mp listed]
  exact allowed _

theorem only_orElse {body handler : Prog ε α} (inside : Only kind body) (after : Only kind handler) :
    Only kind (orElse body handler) := by
  intro past
  rw [emits_orElse]
  refine (inside past).mono ?_
  rintro (value | _ | _) calls kept
  · exact kept
  · exact after.after past kept
  · exact kept

theorem only_always {body : Prog ε α} {cleanup : Prog ε Unit} (inside : Only kind body) (after : Only kind cleanup) :
    Only kind (always body cleanup) := by
  intro past
  rw [emits_always]
  refine (inside past).mono ?_
  rintro (value | _ | _) calls kept
  · exact after.after past kept
  · exact after.after past kept
  · exact kept

theorem only_loop {round : Prog ε Bool} (each : Only kind round) (fuel : Nat) : Only kind (loop round fuel) := by
  induction fuel with
  | zero =>
    intro past call listed
    simp [loop,cut] at listed
  | succ fuel ih =>
    refine only_bind each ?_
    rintro (_ | _)
    · exact only_pure ()
    · exact ih

end only

end CallLogs
