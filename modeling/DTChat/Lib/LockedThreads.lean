import Mathlib

namespace LockedThreads

inductive Effect (κ : Type) where
  | quiet
  | acquire
  | release
  | call (made : κ)

def Effect.calls : Effect κ → List κ
  | .quiet => []
  | .acquire => []
  | .release => []
  | .call made => [made]

-- Threads are named by their position. A thread's program tells for each action
-- whether it is possible, and what becomes of the thread.
abbrev Program (σ α κ : Type) := σ → α → Option (σ × Effect κ)

structure Pool (σ κ : Type) where
  threads : List σ
  holder : Option Nat
  log : List (Nat × κ)

inductive Event (σ α : Type) where
  | spawn (new : σ)
  | act (thread : Nat) (action : α)

def Pool.empty : Pool σ κ := ⟨[],none,[]⟩

-- The lock is given to one thread at a time, in any order.
def Pool.share (pool : Pool σ κ) (thread : Nat) : Effect κ → Option (Pool σ κ)
  | .quiet => some pool
  | .acquire => if pool.holder.isNone then some {pool with holder := some thread} else none
  | .release => some {pool with holder := none}
  | .call made => some {pool with log := pool.log ++ [(thread,made)]}

def step (program : Program σ α κ) (pool : Pool σ κ) : Event σ α → Option (Pool σ κ)
  | .spawn new => some {pool with threads := pool.threads ++ [new]}
  | .act thread action =>
    (pool.threads[thread]?).bind fun s => (program s action).bind fun next =>
      (pool.share thread next.2).map fun shared => {shared with threads := pool.threads.set thread next.1}

theorem act_parts {program : Program σ α κ} (taken : step program pool (.act thread action) = some after) :
    ∃ s t effect shared, pool.threads[thread]? = some s ∧ program s action = some (t,effect) ∧
      pool.share thread effect = some shared ∧ after = {shared with threads := pool.threads.set thread t} := by
  obtain ⟨s,here,taken⟩ := Option.bind_eq_some_iff.mp taken
  obtain ⟨⟨t,effect⟩,acted,taken⟩ := Option.bind_eq_some_iff.mp taken
  obtain ⟨shared,given,rfl⟩ := Option.map_eq_some_iff.mp taken
  exact ⟨s,t,effect,shared,here,acted,given,rfl⟩

def own (thread : Nat) (log : List (Nat × κ)) : List κ := (log.filter (·.1 = thread)).map (·.2)

theorem own_append (thread : Nat) (log later : List (Nat × κ)) : own thread (log ++ later) = own thread log ++ own thread later := by
  simp [own]

theorem own_nil_iff : own thread log = [] ↔ ∀ entry ∈ log, entry.1 ≠ thread := by
  simp [own]

theorem share_own {pool : Pool σ κ} (given : pool.share thread effect = some shared) (other : Nat) :
    own other shared.log = own other pool.log ++ if other = thread then effect.calls else [] := by
  cases effect with
  | quiet =>
    cases given
    simp [Effect.calls]
  | acquire =>
    simp only [Pool.share] at given
    split at given
    · cases given
      simp [Effect.calls]
    · cases given
  | release =>
    cases given
    simp [Effect.calls]
  | call made =>
    cases given
    rw [own_append]
    congr 1
    by_cases same : other = thread
    · simp [own,same,Effect.calls]
    · simp [own,same,Ne.symm same]

def Together (log : List (Nat × κ)) : Prop :=
  ∀ before first middle last after, log = before ++ first :: (middle ++ last :: after) → first.1 = last.1 →
    ∀ entry ∈ middle, entry.1 = first.1

def Closes (thread : Nat) (log : List (Nat × κ)) : Prop :=
  ∃ before after, log = before ++ after ∧ (∀ entry ∈ before, entry.1 ≠ thread) ∧ ∀ entry ∈ after, entry.1 = thread

theorem closes_none {log : List (Nat × κ)} (none : own thread log = []) : Closes thread log :=
  ⟨log,[],(List.append_nil log).symm,own_nil_iff.mp none,by simp⟩

theorem closes_call {log : List (Nat × κ)} (closes : Closes thread log) (made : κ) : Closes thread (log ++ [(thread,made)]) := by
  obtain ⟨before,after,rfl,others,mine⟩ := closes
  refine ⟨before,after ++ [(thread,made)],List.append_assoc _ _ _,others,?_⟩
  intro entry member
  rcases List.mem_append.mp member with old | new
  · exact mine entry old
  · rw [List.mem_singleton.mp new]

theorem closes_behind {log : List (Nat × κ)} (closes : Closes thread log) (split : log = before ++ first :: after)
    (mine : first.1 = thread) : ∀ entry ∈ after, entry.1 = thread := by
  obtain ⟨older,newer,rfl,others,theirs⟩ := closes
  rcases List.append_eq_append_iff.mp split.symm with ⟨gap,rfl,rest⟩ | ⟨gap,rfl,rest⟩
  · cases gap with
    | nil =>
      have whole : first :: after = newer := rest
      exact fun entry member => theirs entry (whole ▸ List.mem_cons_of_mem first member)
    | cons head gap =>
      obtain ⟨rfl,_⟩ := List.cons_eq_cons.mp rest
      exact absurd mine (others first (by simp))
  · exact fun entry member => theirs entry (by simp [rest,member])

theorem together_call {log : List (Nat × κ)} (together : Together log) (closes : Closes thread log) (made : κ) :
    Together (log ++ [(thread,made)]) := by
  intro before first middle last after split same
  rcases List.eq_nil_or_concat after with rfl | ⟨front,final,rfl⟩
  · have parts : log ++ [(thread,made)] = (before ++ first :: middle) ++ [last] := by
      rw [split,List.append_assoc,List.cons_append]
    obtain ⟨shorter,final⟩ := List.append_inj' parts rfl
    cases final
    exact fun entry member => (closes_behind closes shorter same entry member).trans same.symm
  · have parts : log ++ [(thread,made)] = (before ++ first :: (middle ++ last :: front)) ++ [final] := by
      rw [split,List.concat_eq_append]
      simp
    obtain ⟨shorter,_⟩ := List.append_inj' parts rfl
    exact together before first middle last front shorter same

theorem leading (thread : Nat) (log : List (Nat × κ)) : ∃ (made : List κ) (later : List (Nat × κ)),
    log = made.map (fun call => (thread,call)) ++ later ∧ ∀ first ∈ later.head?, first.1 ≠ thread := by
  induction log with
  | nil => exact ⟨[],[],rfl,by simp⟩
  | cons first log ih =>
    by_cases mine : first.1 = thread
    · obtain ⟨made,later,rfl,apart⟩ := ih
      exact ⟨first.2 :: made,later,by simp [← mine],apart⟩
    · exact ⟨[],first :: log,rfl,by simpa using mine⟩

-- A thread calls only inside its one section; what it has called is accounted for by its state.
structure Disciplined (program : Program σ α κ) (inside : σ → Bool) (account : σ → List κ → Prop) : Prop where
  quiet : ∀ s a t, program s a = some (t,.quiet) → inside t = inside s
  acquire : ∀ s a t, program s a = some (t,.acquire) → inside s = false ∧ inside t = true
  release : ∀ s a t, program s a = some (t,.release) → inside s = true ∧ inside t = false
  call : ∀ s a t made, program s a = some (t,.call made) → inside s = true ∧ inside t = true
  first : ∀ s a t made, account s made → program s a = some (t,.acquire) → made = []
  keeps : ∀ s a t effect made, account s made → program s a = some (t,effect) → account t (made ++ effect.calls)

structure Orderly (inside : σ → Bool) (account : σ → List κ → Prop) (pool : Pool σ κ) : Prop where
  holder : ∀ thread s, pool.threads[thread]? = some s → (inside s = true ↔ pool.holder = some thread)
  held : ∀ thread, pool.holder = some thread → thread < pool.threads.length
  accounts : ∀ thread s, pool.threads[thread]? = some s → account s (own thread pool.log)
  known : ∀ entry ∈ pool.log, entry.1 < pool.threads.length
  together : Together pool.log
  closes : ∀ thread, pool.holder = some thread → Closes thread pool.log

section steps

variable {program : Program σ α κ} {inside : σ → Bool} {account : σ → List κ → Prop} {pool : Pool σ κ}

theorem orderly_empty : Orderly inside account (Pool.empty : Pool σ κ) := by
  refine ⟨?_,?_,?_,?_,?_,?_⟩
  · simp [Pool.empty]
  · simp [Pool.empty]
  · simp [Pool.empty]
  · simp [Pool.empty]
  · intro before first middle last after split
    simp [Pool.empty] at split
  · simp [Pool.empty]

theorem spawned_cases {threads : List σ} (here : (threads ++ [new])[thread]? = some s) :
    threads[thread]? = some s ∨ thread = threads.length ∧ s = new := by
  rcases Nat.lt_trichotomy thread threads.length with old | last | beyond
  · rw [List.getElem?_append_left old] at here
    exact .inl here
  · subst last
    simp at here
    exact .inr ⟨rfl,here.symm⟩
  · rw [List.getElem?_append_right (by omega),List.getElem?_eq_none (by simp; omega)] at here
    cases here

theorem set_cases {threads : List σ} (here : (threads.set thread t)[other]? = some s) :
    other = thread ∧ s = t ∨ other ≠ thread ∧ threads[other]? = some s := by
  by_cases same : other = thread
  · subst same
    obtain ⟨_,rfl⟩ := List.getElem?_eq_some_iff.mp here
    exact .inl ⟨rfl,by simp⟩
  · rw [List.getElem?_set_ne (Ne.symm same)] at here
    exact .inr ⟨same,here⟩

theorem set_map {f : σ → τ} {threads : List σ} (here : threads[thread]? = some s) (same : f t = f s) :
    (threads.set thread t).map f = threads.map f := by
  refine List.ext_getElem? fun other => ?_
  rw [List.getElem?_map,List.getElem?_map]
  by_cases mine : other = thread
  · subst mine
    rw [List.getElem?_set_self (List.getElem?_eq_some_iff.mp here).1,here,Option.map_some,Option.map_some,same]
  · rw [List.getElem?_set_ne (Ne.symm mine)]

theorem orderly_spawn (orderly : Orderly inside account pool) (outside : inside new = false) (fresh : account new []) :
    Orderly inside account {pool with threads := pool.threads ++ [new]} := by
  refine ⟨?_,?_,?_,?_,orderly.together,orderly.closes⟩
  · intro thread s here
    rcases spawned_cases here with old | ⟨rfl,rfl⟩
    · exact orderly.holder thread s old
    · refine ⟨fun entered => ?_,fun holding => absurd (orderly.held _ holding) (Nat.lt_irrefl _)⟩
      rw [outside] at entered
      cases entered
  · intro thread holding
    rw [List.length_append]
    exact Nat.lt_add_right _ (orderly.held thread holding)
  · intro thread s here
    rcases spawned_cases here with old | ⟨rfl,rfl⟩
    · exact orderly.accounts thread s old
    · have none : own pool.threads.length pool.log = [] :=
        own_nil_iff.mpr fun entry member => Nat.ne_of_lt (orderly.known entry member)
      rw [none]
      exact fresh
  · intro entry member
    rw [List.length_append]
    exact Nat.lt_add_right _ (orderly.known entry member)

theorem share_holder (disciplined : Disciplined program inside account) (orderly : Orderly inside account pool)
    (here : pool.threads[thread]? = some s) (acted : program s action = some (t,effect))
    (given : pool.share thread effect = some shared) (there : (pool.threads.set thread t)[other]? = some u) :
    inside u = true ↔ shared.holder = some other := by
  have mine := orderly.holder thread s here
  cases effect with
  | quiet =>
    cases given
    rcases set_cases there with ⟨rfl,rfl⟩ | ⟨_,old⟩
    · rw [disciplined.quiet _ _ _ acted]
      exact mine
    · exact orderly.holder other u old
  | acquire =>
    obtain ⟨_,entered⟩ := disciplined.acquire _ _ _ acted
    simp only [Pool.share] at given
    split at given
    · rename_i free
      cases given
      rcases set_cases there with ⟨rfl,rfl⟩ | ⟨apart,old⟩
      · simp [entered]
      · rw [orderly.holder other u old,Option.isNone_iff_eq_none.mp free]
        simp [Ne.symm apart]
    · cases given
  | release =>
    obtain ⟨entered,left⟩ := disciplined.release _ _ _ acted
    cases given
    rcases set_cases there with ⟨rfl,rfl⟩ | ⟨apart,old⟩
    · simp [left]
    · rw [orderly.holder other u old,mine.mp entered]
      simp [Ne.symm apart]
  | call made =>
    obtain ⟨entered,stays⟩ := disciplined.call _ _ _ _ acted
    cases given
    rcases set_cases there with ⟨rfl,rfl⟩ | ⟨_,old⟩
    · simpa [stays] using mine.mp entered
    · exact orderly.holder other u old

theorem share_together (disciplined : Disciplined program inside account) (orderly : Orderly inside account pool)
    (here : pool.threads[thread]? = some s) (acted : program s action = some (t,effect))
    (given : pool.share thread effect = some shared) :
    Together shared.log ∧ ∀ other, shared.holder = some other → Closes other shared.log := by
  cases effect with
  | quiet =>
    cases given
    exact ⟨orderly.together,orderly.closes⟩
  | acquire =>
    have none := disciplined.first _ _ _ _ (orderly.accounts thread s here) acted
    simp only [Pool.share] at given
    split at given
    · cases given
      refine ⟨orderly.together,fun other holding => ?_⟩
      cases Option.some.inj holding
      exact closes_none none
    · cases given
  | release =>
    cases given
    exact ⟨orderly.together,fun other holding => by cases holding⟩
  | call made =>
    have holding := (orderly.holder thread s here).mp (disciplined.call _ _ _ _ acted).1
    cases given
    refine ⟨together_call orderly.together (orderly.closes thread holding) made,fun other held => ?_⟩
    cases Option.some.inj (holding.symm.trans held)
    exact closes_call (orderly.closes thread holding) made

theorem share_held (orderly : Orderly inside account pool) (bound : thread < pool.threads.length)
    (given : pool.share thread effect = some shared) : ∀ other, shared.holder = some other → other < pool.threads.length := by
  intro other holding
  cases effect with
  | quiet =>
    cases given
    exact orderly.held other holding
  | acquire =>
    simp only [Pool.share] at given
    split at given
    · cases given
      cases Option.some.inj holding
      exact bound
    · cases given
  | release =>
    cases given
    cases holding
  | call made =>
    cases given
    exact orderly.held other holding

theorem share_known (orderly : Orderly inside account pool) (bound : thread < pool.threads.length)
    (given : pool.share thread effect = some shared) : ∀ entry ∈ shared.log, entry.1 < pool.threads.length := by
  intro entry member
  have called : entry.2 ∈ own entry.1 shared.log := List.mem_map_of_mem (List.mem_filter.mpr ⟨member,by simp⟩)
  rw [share_own given] at called
  by_cases same : entry.1 = thread
  · rw [same]
    exact bound
  · rw [if_neg same,List.append_nil] at called
    obtain ⟨old,listed,_⟩ := List.mem_map.mp called
    obtain ⟨listed,named⟩ := List.mem_filter.mp listed
    have named : old.1 = entry.1 := by simpa using named
    rw [← named]
    exact orderly.known old listed

theorem orderly_act (disciplined : Disciplined program inside account) (orderly : Orderly inside account pool)
    (taken : step program pool (.act thread action) = some after) : Orderly inside account after := by
  obtain ⟨s,t,effect,shared,here,acted,given,rfl⟩ := act_parts taken
  have bound := (List.getElem?_eq_some_iff.mp here).1
  obtain ⟨together,closes⟩ := share_together disciplined orderly here acted given
  refine ⟨?_,?_,?_,?_,together,closes⟩
  · intro other u there
    have lock := share_holder disciplined orderly here acted given there
    exact lock
  · simpa only [List.length_set] using share_held orderly bound given
  · intro other u there
    rw [share_own given]
    rcases set_cases there with ⟨rfl,rfl⟩ | ⟨apart,old⟩
    · simpa using disciplined.keeps _ _ _ _ _ (orderly.accounts _ s here) acted
    · simpa [apart] using orderly.accounts other u old
  · simpa only [List.length_set] using share_known orderly bound given

def total (work : σ → Nat) (pool : Pool σ κ) : Nat := (pool.threads.map work).sum

theorem total_set {threads : List σ} {work : σ → Nat} (here : threads[thread]? = some s) (less : work t < work s) :
    ((threads.set thread t).map work).sum < (threads.map work).sum := by
  induction threads generalizing thread with
  | nil => cases here
  | cons first rest ih =>
    cases thread with
    | zero =>
      cases Option.some.inj here
      simpa using less
    | succ thread => simpa using ih here

theorem act_costs {work : σ → Nat} (costs : ∀ s a t effect, program s a = some (t,effect) → work t < work s)
    (taken : step program pool (.act thread action) = some after) : total work after < total work pool := by
  obtain ⟨s,t,effect,shared,here,acted,given,rfl⟩ := act_parts taken
  exact total_set here (costs _ _ _ _ acted)

end steps

end LockedThreads
