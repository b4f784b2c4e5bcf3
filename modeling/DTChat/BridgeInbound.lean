import DTChat.Aap2Bridge

namespace DTChat.BridgeInbound
open CallLogs Aap2Bridge

inductive Attempt where
  | unconnected
  | unsent
  | unshut
  | completed
  deriving DecidableEq

def Attempt.calls (target : String × Nat) (payload : List UInt8) : Attempt → List Call
  | .unconnected => [.createConnection target false]
  | .unsent => [.createConnection target true,.sendall payload false,.close]
  | .unshut => [.createConnection target true,.sendall payload true,.shutdown false,.close]
  | .completed => [.createConnection target true,.sendall payload true,.shutdown true,.close]

def Attempt.result (attempt : Attempt) : Result Unit := if attempt = .completed then .returned () else .raised

-- The calls that the accounting is about: ADUs, their payloads, the attempts, a stop and the responses.
def counted : Call → Bool
  | .isSet stopped => stopped
  | .wait _ => false
  | .receiveMsg _ (some (some (.adu _))) => true
  | .receiveMsg _ _ => false
  | _ => true

def ledger (calls : List Call) : List Call := calls.filter counted

-- No more than `most` attempts, each but the first after a failed one. They end with a
-- completed one, when all are used up, or where the stop event is set.
structure Offered (most : Nat) (attempts : List Attempt) (stopped : Bool) : Prop where
  few : attempts.length ≤ most
  retried : ∀ attempt ∈ attempts.dropLast, attempt ≠ .completed
  ended : stopped = false → .completed ∈ attempts ∨ attempts.length = most
  short : stopped = true → .completed ∉ attempts ∧ attempts.length < most

structure Tries where
  attempts : List Attempt
  stopped : Bool
  offered : Offered deliverAttempts attempts stopped

def stops (stopped : Bool) : List Call := if stopped then [.isSet true] else []

def Tries.calls (target : String × Nat) (payload : List UInt8) (tries : Tries) : List Call :=
  tries.attempts.flatMap (Attempt.calls target payload) ++ stops tries.stopped

structure Account extends Tries where
  adu : BundleADU
  header : BundleADU
  payload : List UInt8
  status : ResponseStatus
  honest : status = .success ↔ .completed ∈ attempts

def Account.calls (client : Client) (target : String × Nat) (answered : Bool) (account : Account) : List Call :=
  [.receiveMsg client (some (some (.adu account.adu))),
    .receiveAdu client account.adu (some (account.header,account.payload))] ++
  account.toTries.calls target account.payload ++ [.sendResponseStatus client account.status answered]

-- How a session ends: by the stop event, without a message, still running, or by an exception of the
-- client: at a message, at the payload of an ADU, or at the response to one.
inductive Ending where
  | stopped
  | left
  | running
  | lost
  | unread (adu : BundleADU)
  | unanswered (account : Account)

def Ending.result : Ending → Result Unit
  | .stopped => .returned ()
  | .left => .returned ()
  | .running => .unfinished
  | _ => .raised

def Ending.calls (client : Client) (target : String × Nat) : Ending → List Call
  | .stopped => [.isSet true]
  | .unread adu => [.receiveMsg client (some (some (.adu adu))),.receiveAdu client adu none]
  | .unanswered account => account.calls client target false
  | _ => []

@[simp] theorem ledger_nil : ledger [] = [] := rfl

@[simp] theorem ledger_append (calls after : List Call) : ledger (calls ++ after) = ledger calls ++ ledger after :=
  List.filter_append calls after

theorem ledger_cons (call : Call) (calls : List Call) :
    ledger (call :: calls) = if counted call then call :: ledger calls else ledger calls := List.filter_cons

@[simp] theorem ledger_attempt (target : String × Nat) (payload : List UInt8) (attempt : Attempt) :
    ledger (attempt.calls target payload) = attempt.calls target payload := by
  cases attempt <;> rfl

section attempts

variable {world : World} {target : String × Nat} {payload : List UInt8} {past : List Call}

theorem offer_emits : Emits past (offer world target payload) fun result calls =>
    ∃ attempt : Attempt, result = attempt.result ∧ calls = attempt.calls target payload := by
  simp only [offer,createConnection,emits_bind,emits_request,Then,emits_always]
  constructor
  · intro _
    simp only [sendall,shutdown,emits_request,Then]
    constructor
    · intro _
      constructor
      · intro _
        exact ⟨.completed,rfl,rfl⟩
      · intro _
        exact ⟨.unshut,rfl,rfl⟩
    · intro _
      exact ⟨.unsent,rfl,rfl⟩
  · intro _
    exact ⟨.unconnected,rfl,rfl⟩

theorem tryOffer_emits (left : Nat) : Emits past (tryOffer world target payload left) fun result calls =>
    ∃ attempt : Attempt, result = .returned (decide (attempt = .completed)) ∧
      ledger calls = attempt.calls target payload := by
  simp only [tryOffer,emits_orElse,emits_bind]
  refine offer_emits.mono ?_
  rintro _ _ ⟨attempt,rfl,rfl⟩
  by_cases completed : attempt = .completed
  · simp [completed,Attempt.result,Then,Caught]
  · have failed : Emits (past ++ attempt.calls target payload)
        (if 0 < left then do wait deliverBackoff; pure false else pure false) fun result after =>
          result = .returned false ∧ ledger after = [] := by
      split
      · exact ⟨rfl,rfl⟩
      · exact ⟨rfl,rfl⟩
    simp only [completed,Attempt.result,Then,Caught,if_false]
    refine failed.mono ?_
    rintro _ after ⟨rfl,waited⟩
    exact ⟨attempt,by simp [completed],by rw [ledger_append,waited,List.append_nil,ledger_attempt]⟩

theorem Offered.later {tries : List Attempt} (offered : Offered left tries stopped) (failed : attempt ≠ .completed) :
    Offered (left+1) (attempt :: tries) stopped := by
  refine ⟨Nat.succ_le_succ offered.few,fun earlier listed => ?_,fun going => ?_,fun set => ?_⟩
  · cases tries with
    | nil => simp at listed
    | cons next others =>
      rcases List.mem_cons.mp listed with rfl | later
      · exact failed
      · exact offered.retried earlier later
  · exact (offered.ended going).imp (List.mem_cons_of_mem _) (congrArg (·+1))
  · obtain ⟨none,less⟩ := offered.short set
    exact ⟨fun member => none (List.mem_of_ne_of_mem (Ne.symm failed) member),Nat.succ_lt_succ less⟩

theorem attempts_emits (left : Nat) : Emits past (attempts world target payload left) fun result calls =>
    ∃ tries stopped, result = .returned (decide (.completed ∈ tries)) ∧
      ledger calls = tries.flatMap (Attempt.calls target payload) ++ stops stopped ∧ Offered left tries stopped := by
  induction left generalizing past with
  | zero => exact ⟨[],false,rfl,rfl,⟨Nat.le_refl _,by simp,fun _ => .inr rfl,by simp⟩⟩
  | succ left ih =>
    simp only [attempts,isSet,emits_bind,emits_ask,Then]
    cases world.isSet past with
    | true =>
      exact ⟨[],true,rfl,rfl,⟨Nat.zero_le _,by simp,by simp,fun _ => ⟨by simp,Nat.succ_pos _⟩⟩⟩
    | false =>
      simp only [Bool.false_eq_true,if_false,emits_bind]
      refine (tryOffer_emits left).mono ?_
      rintro _ calls ⟨attempt,rfl,counts⟩
      by_cases completed : attempt = .completed
      · simp only [completed,Then,decide_true,if_true,emits_pure]
        refine ⟨[.completed],false,by simp,by simp [ledger_cons,counts,completed,counted,stops],?_⟩
        exact ⟨Nat.succ_pos _,by simp,fun _ => .inl List.mem_cons_self,by simp⟩
      · simp only [completed,Then,decide_false,Bool.false_eq_true,if_false]
        refine ih.mono ?_
        rintro _ after ⟨tries,stopped,rfl,others,offered⟩
        refine ⟨attempt :: tries,stopped,?_,?_,offered.later completed⟩
        · simp [Ne.symm completed]
        · simp [ledger_cons,counted,counts,others]

end attempts

section session

variable {world : World} {client : Client} {target : String × Nat} {past : List Call}

inductive Round (client : Client) (target : String × Nat) : Result Bool → List Call → Prop where
  | quiet : Round client target (.returned true) []
  | account (account : Account) : Round client target (.returned true) (account.calls client target true)
  | stopped : Round client target (.returned false) [.isSet true]
  | left : Round client target (.returned false) []
  | raised (ending : Ending) : ending.result = .raised → Round client target .raised (ending.calls client target)

theorem honest_status (completed : Bool) :
    (if completed then ResponseStatus.success else .failure) = .success ↔ completed = true := by
  cases completed <;> simp

def Tries.account (tries : Tries) (adu header : BundleADU) (payload : List UInt8) : Account :=
  ⟨tries,adu,header,payload,if decide (.completed ∈ tries.attempts) then .success else .failure,
    (honest_status _).trans decide_eq_true_iff⟩

theorem relay_emits (adu : BundleADU) : Emits past (relay world client target adu) fun result calls =>
    (∃ account : Account, result = .returned () ∧
      .receiveMsg client (some (some (.adu adu))) :: ledger calls = account.calls client target true) ∨
    ∃ ending : Ending, result = .raised ∧ ending.result = .raised ∧
      .receiveMsg client (some (some (.adu adu))) :: ledger calls = ending.calls client target := by
  simp only [relay,receiveAdu,emits_bind,emits_demand]
  constructor
  · rintro ⟨header,payload⟩ _
    simp only [Then,emits_bind,forwardInbound]
    refine (attempts_emits deliverAttempts).mono ?_
    rintro _ calls ⟨tries,stopped,rfl,counts,offered⟩
    let account := Tries.account ⟨tries,stopped,offered⟩ adu header payload
    simp only [Then,sendResponseStatus,emits_request]
    constructor
    · intro _
      exact .inl ⟨account,trivial,by simp [ledger_cons,counted,counts,Account.calls,Tries.calls,account,Tries.account]⟩
    · intro _
      exact .inr ⟨.unanswered account,trivial,rfl,
        by simp [ledger_cons,counted,counts,Account.calls,Tries.calls,Ending.calls,account,Tries.account]⟩
  · intro _
    exact .inr ⟨.unread adu,rfl,rfl,rfl⟩

theorem drainRound_emits : Emits past (drainRound world client target) fun result calls =>
    Round client target result (ledger calls) := by
  simp only [drainRound,isSet,emits_bind,emits_ask,Then]
  cases world.isSet past with
  | true => exact .stopped
  | false =>
    simp only [Bool.false_eq_true,if_false,receiveMsg,emits_bind,emits_demand]
    constructor
    · rintro (_ | (adu | _)) _
      · exact .left
      · simp only [Then,emits_bind]
        refine (relay_emits adu).mono ?_
        rintro _ calls (⟨account,rfl,counts⟩ | ⟨ending,rfl,raises,counts⟩)
        · simpa [Then,ledger_cons,counted,counts] using Round.account account
        · simpa [Then,ledger_cons,counted,counts] using Round.raised ending raises
      · exact .quiet
    · intro _
      exact .raised .lost rfl

theorem drain_emits (fuel : Nat) : Emits past (drain world client target fuel) fun result calls =>
    ∃ (accounts : List Account) (ending : Ending), result = ending.result ∧
      ledger calls = accounts.flatMap (Account.calls client target true) ++ ending.calls client target := by
  refine emits_loop (fun calls => ∃ accounts : List Account,
    ledger calls = accounts.flatMap (Account.calls client target true)) ⟨[],rfl⟩ ?_ ?_ fuel
  · rintro calls ⟨accounts,counts⟩
    refine drainRound_emits.mono ?_
    intro result after round
    generalize added : ledger after = extra at round
    cases round with
    | quiet => exact ⟨accounts,by simp [counts,added]⟩
    | account account => exact ⟨accounts ++ [account],by simp [counts,added]⟩
    | stopped => exact ⟨accounts,.stopped,rfl,by simp [counts,added,Ending.calls]⟩
    | left => exact ⟨accounts,.left,rfl,by simp [counts,added,Ending.calls]⟩
    | raised ending raises => exact ⟨accounts,ending,raises.symm,by simp [counts,added]⟩
  · rintro calls ⟨accounts,counts⟩
    exact ⟨accounts,.running,rfl,by simp [counts,Ending.calls]⟩

end session

-- A session's ledger is one account after another, in the order the ADUs were received;
-- only the last may lack its payload or its response, and then the client has raised.
theorem inbound_accounted (world : World) (client : Client) (target : String × Nat) (fuel : Nat) (past : List Call) :
    ∃ (accounts : List Account) (ending : Ending), (drain world client target fuel past).1 = ending.result ∧
      ledger (drain world client target fuel past).2 =
        accounts.flatMap (Account.calls client target true) ++ ending.calls client target :=
  drain_emits fuel

def retrying : World where
  isSet _ := false
  makeClient _ := true
  connect _ := true
  configure _ := true
  disconnect _ := true
  receiveMsg past := some (if past.length = 1 then some (.adu ⟨"ipn:20.2",2⟩) else none)
  receiveAdu _ := some (⟨"ipn:20.2",2⟩,[104,105])
  sendResponseStatus _ := true
  createConnection past := 5 < past.length
  sendall _ := true
  shutdown _ := true

example : ledger (drain retrying 0 ("127.0.0.1",7720) 2 []).2 = [.receiveMsg 0 (some (some (.adu ⟨"ipn:20.2",2⟩))),
    .receiveAdu 0 ⟨"ipn:20.2",2⟩ (some (⟨"ipn:20.2",2⟩,[104,105])),.createConnection ("127.0.0.1",7720) false,
    .createConnection ("127.0.0.1",7720) true,.sendall [104,105] true,.shutdown true,.close,
    .sendResponseStatus 0 .success true] := rfl

end DTChat.BridgeInbound
