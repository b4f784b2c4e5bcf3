import DTChat.Aap2Bridge

namespace DTChat.BridgeSessions
open CallLogs Prog Aap2Bridge

def Disconnects (client : Client) : Call → Bool
  | .disconnect other _ => client == other
  | _ => false

def Closed (calls : List Call) : Prop :=
  ∀ client, .connect client true ∈ calls → calls.countP (Disconnects client) = 1

def Configured (calls : List Call) : Prop :=
  ∀ client agentid subscribe secret, .configure client agentid subscribe secret false ∉ calls

-- The moments at which the sessions so far must be over: the next client is made, or
-- the function returns.
inductive Due (result : Result Unit) (calls : List Call) : List Call → Prop where
  | next : calls = moment ++ .makeClient made :: after → Due result calls moment
  | returned : result = .returned () → Due result calls calls

def session : Call → Bool
  | .makeClient _ => true
  | .connect _ _ => true
  | .configure _ _ _ _ _ => true
  | .disconnect _ _ => true
  | _ => false

def sessions (calls : List Call) : List Call := calls.filter session

@[simp] theorem sessions_nil : sessions [] = [] := rfl

@[simp] theorem sessions_append (calls after : List Call) : sessions (calls ++ after) = sessions calls ++ sessions after :=
  List.filter_append calls after

theorem sessions_cons (call : Call) (calls : List Call) :
    sessions (call :: calls) = if session call then call :: sessions calls else sessions calls := List.filter_cons

theorem mem_sessions {call : Call} {calls : List Call} (counted : session call = true) : call ∈ sessions calls ↔ call ∈ calls := by
  simp [sessions,counted]

theorem disconnects_session {client : Client} {call : Call} (matched : Disconnects client call = true) :
    session call = true := by
  cases call <;> simp_all [Disconnects,session]

theorem count_sessions (client : Client) (calls : List Call) :
    (sessions calls).countP (Disconnects client) = calls.countP (Disconnects client) := by
  rw [sessions,List.countP_filter]
  refine List.countP_congr fun call _ => ?_
  simpa using fun matched => disconnects_session matched

theorem closed_sessions {calls : List Call} : Closed (sessions calls) ↔ Closed calls := by
  simp only [Closed,count_sessions]
  exact forall_congr' fun client => imp_congr (mem_sessions rfl) Iff.rfl

theorem configured_sessions {calls : List Call} : Configured (sessions calls) ↔ Configured calls := by
  simp only [Configured]
  exact forall_congr' fun client => forall_congr' fun agentid => forall_congr' fun subscribe =>
    forall_congr' fun secret => not_congr (mem_sessions rfl)

def named : Call → Option Client
  | .connect client _ => some client
  | .disconnect client _ => some client
  | _ => none

theorem named_session {call : Call} {client : Client} (about : named call = some client) : session call = true := by
  cases call <;> simp_all [named,session]

theorem count_absent {client : Client} {calls : List Call} (absent : ∀ call ∈ calls, named call ≠ some client) :
    calls.countP (Disconnects client) = 0 := by
  refine List.countP_eq_zero.mpr fun call listed matched => absent call listed ?_
  cases call <;> simp_all [named,Disconnects]

theorem closed_append {calls after : List Call}
    (apart : ∀ call ∈ calls, ∀ other ∈ after, ∀ client, named call = some client → named other ≠ some client) :
    Closed (calls ++ after) ↔ Closed calls ∧ Closed after := by
  have before : ∀ client, .connect client true ∈ calls → after.countP (Disconnects client) = 0 :=
    fun client connected => count_absent fun other listed => apart _ connected other listed client rfl
  have behind : ∀ client, .connect client true ∈ after → calls.countP (Disconnects client) = 0 :=
    fun client connected => count_absent fun call listed about => apart call listed _ connected client about rfl
  constructor
  · intro closed
    constructor
    · intro client connected
      have counted := closed client (List.mem_append_left after connected)
      rwa [List.countP_append,before client connected] at counted
    · intro client connected
      have counted := closed client (List.mem_append_right calls connected)
      rwa [List.countP_append,behind client connected,Nat.zero_add] at counted
  · rintro ⟨first,second⟩ client connected
    rw [List.countP_append]
    rcases List.mem_append.mp connected with earlier | later
    · rw [first client earlier,before client earlier]
    · rw [second client later,behind client later]

theorem configured_append {calls after : List Call} : Configured (calls ++ after) ↔ Configured calls ∧ Configured after := by
  simp only [Configured,List.mem_append,not_or,forall_and]

section rounds

variable {world : World} {agentid : String} {secret : Option String} {target : String × Nat} {past : List Call}

def Silent (prog : Prog Call α) : Prop := Only (fun call => session call = false) prog

theorem isSet_silent : Silent (isSet world) := only_ask fun _ => rfl

theorem offer_silent (payload : List UInt8) : Silent (offer world target payload) := by
  refine only_bind (only_request fun _ => rfl) fun _ => only_always ?_ (only_ask fun _ => rfl)
  exact only_bind (only_request fun _ => rfl) fun _ => only_request fun _ => rfl

theorem attempts_silent (payload : List UInt8) (left : Nat) : Silent (attempts world target payload left) := by
  induction left with
  | zero => exact only_pure false
  | succ left ih =>
    have waits : Silent (if 0 < left then do wait deliverBackoff; pure false else pure false) := by
      split
      · exact only_bind (only_ask fun _ => rfl) fun _ => only_pure false
      · exact only_pure false
    have tried : Silent (tryOffer world target payload left) :=
      only_orElse (only_bind (offer_silent payload) fun _ => only_pure true) waits
    refine only_bind isSet_silent fun stopped => ?_
    split
    · exact only_pure false
    · refine only_bind tried fun sent => ?_
      split
      · exact only_pure true
      · exact ih

theorem drain_silent (client : Client) (fuel : Nat) : Silent (drain world client target fuel) := by
  refine only_loop (only_bind isSet_silent fun stopped => ?_) fuel
  split
  · exact only_pure false
  · refine only_bind (only_demand fun _ => rfl) fun message => ?_
    split
    · exact only_pure false
    · exact only_pure true
    · refine only_bind ?_ fun _ => only_pure true
      refine only_bind (only_demand fun _ => rfl) fun unpacked => ?_
      exact only_bind (attempts_silent _ _) fun _ => only_request fun _ => rfl

theorem sessions_silent {calls : List Call} (silent : ∀ call ∈ calls, session call = false) : sessions calls = [] :=
  List.filter_eq_nil_iff.mpr fun call listed => by simp [silent call listed]

theorem disconnect_emits (client : Client) : Emits past (orElse (disconnect world client) (pure ())) fun result calls =>
    ∃ done, result = .returned () ∧ calls = [.disconnect client done] := by
  simp only [disconnect,emits_orElse,emits_request]
  constructor
  · intro _
    exact ⟨true,rfl,rfl⟩
  · intro _
    exact ⟨false,rfl,rfl⟩

theorem serve_emits (client : Client) (fuel : Nat) : Emits past (serve world client target fuel) fun result calls =>
    (result = .unfinished ∧ sessions calls = []) ∨
    ∃ done, result = .returned () ∧ sessions calls = [.disconnect client done] := by
  have cleaned : ∀ calls, sessions calls = [] → Cleaned past (orElse (disconnect world client) (pure ()))
      (fun result calls => (result = .unfinished ∧ sessions calls = []) ∨
        ∃ done, result = .returned () ∧ sessions calls = [.disconnect client done]) (.returned ()) calls := by
    intro calls silent
    simp only [Cleaned]
    refine (disconnect_emits client).mono ?_
    rintro _ _ ⟨done,rfl,rfl⟩
    exact .inr ⟨done,rfl,by simp [silent,sessions_cons,session]⟩
  simp only [serve,emits_always,emits_orElse]
  refine (drain_silent client fuel past).mono ?_
  rintro (_ | _ | _) calls silent
  · exact cleaned calls (sessions_silent silent)
  · simp only [Caught,isSet,emits_bind,emits_ask,Then,emits_pure]
    exact cleaned _ (by simp [sessions_silent silent,sessions_cons,session])
  · exact .inl ⟨rfl,sessions_silent silent⟩

inductive Round (agentid : String) (secret : Option String) (client : Client) : Result Bool → List Call → Prop where
  | stopped : Round agentid secret client (.returned false) []
  | unmade : Round agentid secret client (.returned true) [.makeClient none]
  | unconnected : Round agentid secret client (.returned true) [.makeClient (some client),.connect client false]
  | refused : Round agentid secret client (.returned true) [.makeClient (some client),.connect client true,
      .configure client agentid true secret false]
  | served : Round agentid secret client (.returned true) [.makeClient (some client),.connect client true,
      .configure client agentid true secret true,.disconnect client done]
  | serving : Round agentid secret client .unfinished [.makeClient (some client),.connect client true,
      .configure client agentid true secret true]

theorem trySession_emits : Emits past (trySession world agentid secret) fun result calls =>
    (result = .returned none ∧ Round agentid secret past.length (.returned true) (sessions calls)) ∨
    (result = .returned (some past.length) ∧ sessions calls = [.makeClient (some past.length),
      .connect past.length true,.configure past.length agentid true secret true]) := by
  simp only [trySession,openSession,makeClient,emits_orElse,emits_bind,emits_demand]
  constructor
  · intro client named
    have same : client = past.length := by
      split at named
      · exact (Option.some.inj named).symm
      · cases named
    cases same
    simp only [Then,connect,emits_bind,emits_request]
    constructor
    · intro _
      simp only [configure,emits_request]
      constructor
      · intro _
        exact .inr ⟨rfl,rfl⟩
      · intro _
        exact .inl ⟨rfl,.refused⟩
    · intro _
      exact .inl ⟨rfl,.unconnected⟩
  · intro _
    exact .inl ⟨rfl,.unmade⟩

theorem receiverRound_emits (fuel : Nat) : Emits past (receiverRound world agentid secret target fuel) fun result calls =>
    Round agentid secret (past.length + 1) result (sessions calls) ∧ calls ≠ [] := by
  simp only [receiverRound,isSet,emits_bind,emits_ask,Then]
  cases world.isSet past with
  | true => exact ⟨.stopped,List.cons_ne_nil _ _⟩
  | false =>
    have named : (past ++ [Call.isSet false]).length = past.length + 1 := by simp
    simp only [Bool.false_eq_true,if_false,emits_bind]
    refine trySession_emits.mono ?_
    rintro _ calls (⟨rfl,round⟩ | ⟨rfl,opened⟩)
    · rw [named] at round
      simp only [Then,emits_pure]
      exact ⟨by simpa [sessions_cons,session] using round,List.cons_ne_nil _ _⟩
    · rw [named] at opened ⊢
      simp only [Then,emits_bind]
      refine (serve_emits _ fuel).mono ?_
      rintro _ served (⟨rfl,silent⟩ | ⟨done,rfl,ended⟩)
      · exact ⟨by simpa [sessions_cons,session,opened,silent] using Round.serving,List.cons_ne_nil _ _⟩
      · have whole : Round agentid secret (past.length + 1) (.returned true) (sessions calls ++ sessions served) := by
          rw [opened,ended]
          exact .served
        simp only [Then,emits_bind,emits_ask]
        split
        · simp only [emits_pure]
          exact ⟨by simpa [sessions_cons,session] using whole,List.cons_ne_nil _ _⟩
        · simp only [wait,emits_bind,emits_ask,Then,emits_pure]
          exact ⟨by simpa [sessions_cons,session] using whole,List.cons_ne_nil _ _⟩

theorem Round.about (round : Round agentid secret client result calls) :
    ∀ call ∈ calls, ∀ other, named call = some other → other = client := by
  cases round <;> simp [named]

theorem Round.balanced (round : Round agentid secret client (.returned more) calls) : Closed calls ↔ Configured calls := by
  cases round with
  | stopped => simp [Closed,Configured]
  | unmade => simp [Closed,Configured]
  | unconnected => simp [Closed,Configured]
  | refused => simp [Closed,Configured,Disconnects]
  | served => simp [Closed,Configured,Disconnects]

theorem Round.makes_once (round : Round agentid secret client result calls) (made : Option Client) :
    .makeClient made ∉ calls.tail := by
  cases round <;> simp

theorem Round.makes_first (round : Round agentid secret client result (front ++ .makeClient made :: back)) : front = [] := by
  cases front with
  | nil => rfl
  | cons call rest => exact absurd (by simp) (round.makes_once made)

def Timely (calls : List Call) : Prop :=
  ∀ moment made after, calls = moment ++ .makeClient made :: after → (Closed moment ↔ Configured moment)

theorem timely_append (timely : Timely calls) (balanced : Closed calls ↔ Configured calls)
    (round : Round agentid secret client result (sessions after)) : Timely (calls ++ after) := by
  intro moment made rest split
  rcases List.append_eq_append_iff.mp split with ⟨front,rfl,parts⟩ | ⟨front,parts,tail⟩
  · rw [parts,sessions_append,sessions_cons] at round
    have silent : sessions front = [] := Round.makes_first round
    have same : sessions (calls ++ front) = sessions calls := by simp [silent]
    rw [← closed_sessions,← configured_sessions,same,closed_sessions,configured_sessions]
    exact balanced
  · cases front with
    | nil => simpa [parts] using balanced
    | cons call front =>
      obtain ⟨rfl,_⟩ := List.cons_eq_cons.mp tail
      exact timely moment made front parts

-- The invariant of the receiver's rounds: its clients are older than the next one,
-- and the sessions so far are closed if and only if none was refused.
structure Kept (past calls : List Call) : Prop where
  older : ∀ call ∈ calls, ∀ client : Nat, named call = some client → client ≤ past.length + calls.length
  timely : Timely calls
  balanced : Closed calls ↔ Configured calls

theorem kept_nil (past : List Call) : Kept past [] :=
  ⟨by simp,by simp [Timely],by simp [Closed,Configured]⟩

theorem kept_round (kept : Kept past calls)
    (round : Round agentid secret ((past ++ calls).length + 1) (.returned more) (sessions after)) (some : after ≠ []) :
    Kept past (calls ++ after) := by
  have longer := List.length_pos_iff.mpr some
  have about : ∀ call ∈ after, ∀ client : Nat, named call = .some client → client = (past ++ calls).length + 1 :=
    fun call listed client isNamed => round.about call ((mem_sessions (named_session isNamed)).mpr listed) client isNamed
  have apart : ∀ call ∈ calls, ∀ other ∈ after, ∀ client : Nat, named call = .some client → named other ≠ .some client := by
    intro call earlier other later client first second
    have small := kept.older call earlier client first
    have large := about other later client second
    simp only [List.length_append] at large
    omega
  refine ⟨?_,timely_append kept.timely kept.balanced round,?_⟩
  · intro call listed client isNamed
    rw [List.length_append]
    rcases List.mem_append.mp listed with earlier | later
    · have small := kept.older call earlier client isNamed
      omega
    · have large := about call later client isNamed
      simp only [List.length_append] at large
      omega
  · have balanced : Closed after ↔ Configured after := closed_sessions.symm.trans (round.balanced.trans configured_sessions)
    rw [closed_append apart,configured_append,kept.balanced,balanced]

theorem runReceiver_emits (fuel : Nat) : Emits past (runReceiver world agentid secret target fuel) fun result calls =>
    result ≠ .raised ∧ Timely calls ∧ (result = .returned () → (Closed calls ↔ Configured calls)) := by
  refine emits_loop (Kept past) (kept_nil past) ?_ ?_ fuel
  · intro calls kept
    refine (receiverRound_emits fuel).mono ?_
    rintro result after ⟨round,longer⟩
    rcases result with (_ | _) | _ | _
    · have stops := kept_round kept round longer
      exact ⟨by simp,stops.timely,fun _ => stops.balanced⟩
    · exact kept_round kept round longer
    · cases round
    · exact ⟨by simp,timely_append kept.timely kept.balanced round,by simp⟩
  · intro calls kept
    exact ⟨by simp,kept.timely,by simp⟩

end rounds

-- No exception leaves the loop, and at every moment due the sessions are closed
-- as long as no client refused its configuration: that path leaves by `continue`
-- before the clean-up is in place.
theorem sessions_closed_iff (world : World) (agentid : String) (secret : Option String) (target : String × Nat)
    (fuel : Nat) (past : List Call) :
    let run := runReceiver world agentid secret target fuel past
    run.1 ≠ .raised ∧
      ((∀ moment, Due run.1 run.2 moment → Closed moment) ↔ ∀ moment, Due run.1 run.2 moment → Configured moment) := by
  intro run
  obtain ⟨quiet,timely,balanced⟩ : run.1 ≠ .raised ∧ Timely run.2 ∧ (run.1 = .returned () → (Closed run.2 ↔ Configured run.2)) :=
    runReceiver_emits fuel
  have exactly : ∀ moment, Due run.1 run.2 moment → (Closed moment ↔ Configured moment) := by
    intro moment due
    cases due with
    | next split => exact timely moment _ _ split
    | returned ended => exact balanced ended
  exact ⟨quiet,forall_congr' fun moment => forall_congr' fun due => exactly moment due⟩

def refusing : World where
  isSet past := 4 < past.length
  makeClient _ := true
  connect _ := true
  configure _ := false
  disconnect _ := true
  receiveMsg _ := some none
  receiveAdu _ := none
  sendResponseStatus _ := true
  createConnection _ := true
  sendall _ := true
  shutdown _ := true

theorem refused_left_open : ¬ ∀ moment,
    Due (runReceiver refusing "2" none ("127.0.0.1",7720) 2 []).1 (runReceiver refusing "2" none ("127.0.0.1",7720) 2 []).2
      moment → Closed moment := by
  intro closed
  have ended : runReceiver refusing "2" none ("127.0.0.1",7720) 2 [] = (.returned (),[.isSet false,.makeClient (some 1),
      .connect 1 true,.configure 1 "2" true none false,.wait 2000,.isSet true]) := rfl
  rw [ended] at closed
  have once := closed _ (.returned rfl) 1 (by simp)
  simp [Disconnects] at once

end DTChat.BridgeSessions
