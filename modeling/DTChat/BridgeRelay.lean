import DTChat.BridgeRoutes
import DTChat.Lib.Runs

namespace DTChat.BridgeRelay
open Aap2Bridge (BundleADU)
open LockedThreads BridgeRoutes Runs

def ending : Bool → Bool → List ClientCall
  | true,received => [.sendAduEnded true,.receiveResponse,.receiveResponseEnded received]
  | false,_ => [.sendAduEnded false]

def exchange (dstEid : String) (payload : List UInt8) (sent received : Bool) : List ClientCall :=
  .sendAdu ⟨dstEid,payload.length⟩ payload :: ending sent received

def adus (made : List ClientCall) : List (BundleADU × List UInt8) :=
  made.filterMap fun
    | .sendAdu adu payload => some (adu,payload)
    | _ => none

inductive Sent (dstEid : String) (payload : List UInt8) : Option Send → List ClientCall → Prop where
  | waiting : Sent dstEid payload (some (.waiting dstEid payload)) []
  | holding : Sent dstEid payload (some (.holding dstEid payload)) []
  | sending : Sent dstEid payload (some .sending) [.sendAdu ⟨dstEid,payload.length⟩ payload]
  | sent : Sent dstEid payload (some .sent) [.sendAdu ⟨dstEid,payload.length⟩ payload,.sendAduEnded true]
  | receiving : Sent dstEid payload (some .receiving)
      [.sendAdu ⟨dstEid,payload.length⟩ payload,.sendAduEnded true,.receiveResponse]
  | releasing (sent received : Bool) : Sent dstEid payload (some .releasing) (exchange dstEid payload sent received)
  | behind (sent received : Bool) : Sent dstEid payload none (exchange dstEid payload sent received)

theorem sent_step (account : Sent dstEid payload (some sender) made) (sends : SendStep sender next effect) :
    Sent dstEid payload next (made ++ effect.calls) := by
  cases sends with
  | enter => cases account; exact .holding
  | request => cases account; exact .sending
  | requested => cases account; exact .sent
  | failed => cases account; exact .releasing false false
  | await => cases account; exact .receiving
  | answered returned => cases account; exact .releasing true returned
  | leave =>
    cases account with
    | releasing sent received =>
      rw [Effect.calls,List.append_nil]
      exact .behind sent received

theorem sent_part (account : Sent dstEid payload sender made) :
    ∃ sent received, made <+: exchange dstEid payload sent received := by
  cases account with
  | waiting => exact ⟨true,true,List.nil_prefix⟩
  | holding => exact ⟨true,true,List.nil_prefix⟩
  | sending => exact ⟨true,true,_,rfl⟩
  | sent => exact ⟨true,true,_,rfl⟩
  | receiving => exact ⟨true,true,_,rfl⟩
  | releasing sent received => exact ⟨sent,received,List.prefix_rfl⟩
  | behind sent received => exact ⟨sent,received,List.prefix_rfl⟩

-- What a handler has called, by the place where it stands. While it reads, the chunks and
-- the unread bytes are the stream.
def Account (handler : Handler) (made : List ClientCall) : Prop :=
  match handler.phase with
  | .reading chunks => chunks.flatten ++ handler.unread = handler.stream ∧ made = []
  | .relaying sender => handler.stream ≠ [] ∧ Sent handler.server.dstEid handler.stream (some sender) made
  | .finished => handler.stream = [] ∧ made = [] ∨
      handler.stream ≠ [] ∧ Sent handler.server.dstEid handler.stream none made
  | .broken => made = []

def inside (handler : Handler) : Bool :=
  match handler.phase with
  | .relaying (.waiting _ _) => false
  | .relaying _ => true
  | _ => false

def ended (handler : Handler) : Bool :=
  match handler.phase with
  | .finished => true
  | .broken => true
  | _ => false

theorem account_step (account : Account handler made) (taken : HandleStep handler next effect) :
    Account next (made ++ effect.calls) := by
  cases taken with
  | receive reading bytes rest =>
    simp only [Account,reading] at account
    obtain ⟨whole,rfl⟩ := account
    exact ⟨by simpa [rest] using whole,rfl⟩
  | discard reading ended empty =>
    simp only [Account,reading] at account
    obtain ⟨whole,rfl⟩ := account
    exact .inl ⟨by simpa [ended,empty] using whole.symm,rfl⟩
  | accept reading ended bytes =>
    simp only [Account,reading,ended,List.append_nil] at account
    obtain ⟨whole,rfl⟩ := account
    refine ⟨whole ▸ bytes,?_⟩
    rw [whole]
    exact .waiting
  | reset reading =>
    simp only [Account,reading] at account
    exact account.2 ▸ rfl
  | @relay _ next _ relaying sends =>
    simp only [Account,relaying] at account
    have calls := sent_step account.2 sends
    cases next with
    | none => exact .inr ⟨account.1,calls⟩
    | some sender => exact ⟨account.1,calls⟩

theorem disciplined : Disciplined handle inside Account where
  quiet handler action next acted := by
    cases handle_step acted with
    | receive reading | discard reading | accept reading | reset reading => simp [inside,reading]
    | relay _ sends => cases sends
  acquire handler action next acted := by
    cases handle_step acted with
    | relay relaying sends =>
      cases sends
      exact ⟨by simp [inside,relaying],rfl⟩
  release handler action next acted := by
    cases handle_step acted with
    | relay relaying sends =>
      cases sends
      exact ⟨by simp [inside,relaying],rfl⟩
  call handler action next made acted := by
    cases handle_step acted with
    | relay relaying sends => cases sends <;> exact ⟨by simp [inside,relaying],rfl⟩
  first handler action next made account acted := by
    cases handle_step acted with
    | relay relaying sends =>
      cases sends
      simp only [Account,relaying] at account
      cases account.2
      rfl
  keeps handler action next effect made account acted := account_step account (handle_step acted)

theorem live (handler : Handler) (unended : ended handler = false) :
    ∃ action next effect, handle handler action = some (next,effect) := by
  cases place : handler.phase with
  | reading chunks =>
    have asked : 0 < 1 ∧ 1 ≤ recvChunk := by simp [recvChunk]
    exact ⟨.recv 1,readToEof handler chunks (handler.unread.take 1),.quiet,by simp only [handle,place,if_pos asked]⟩
  | relaying sender =>
    have going : ∃ action next, send sender action = some next := by
      cases sender with
      | waiting => exact ⟨.go,_,rfl⟩
      | holding => exact ⟨.go,_,rfl⟩
      | sending => exact ⟨.ended true,_,rfl⟩
      | sent => exact ⟨.go,_,rfl⟩
      | receiving => exact ⟨.ended true,_,rfl⟩
      | releasing => exact ⟨.go,_,rfl⟩
    obtain ⟨action,next,going⟩ := going
    refine ⟨action,{handler with phase := next.1.elim .finished .relaying},next.2,?_⟩
    simp only [handle,place,going,Option.map_some]
  | finished => simp [ended,place] at unended
  | broken => simp [ended,place] at unended

def work (handler : Handler) : Nat :=
  match handler.phase with
  | .reading _ => handler.unread.length + 8
  | .relaying (.waiting _ _) => 7
  | .relaying (.holding _ _) => 6
  | .relaying .sending => 5
  | .relaying .sent => 4
  | .relaying .receiving => 3
  | .relaying .releasing => 2
  | .finished => 0
  | .broken => 0

theorem work_less (taken : HandleStep handler next effect) : work next < work handler := by
  cases taken with
  | @receive _ data _ reading bytes rest =>
    have some : 0 < data.length := List.length_pos_iff.mpr bytes
    simp only [work,reading,rest,List.length_append]
    omega
  | discard reading ended empty => simp [work,reading]
  | accept reading ended bytes => simp [work,reading]
  | reset reading => simp [work,reading]
  | relay relaying sends => cases sends <;> simp [work,relaying]

-- What one connection has come to: at most one exchange, for all of its bytes and for the
-- EID of its route.
structure Relayed (dstEid : String) (stream : List UInt8) (phase : Phase) (made : List ClientCall) : Prop where
  order : ∃ sent received, made <+: exchange dstEid stream sent received
  most : adus made = [] ∨ adus made = [(⟨dstEid,stream.length⟩,stream)]
  once : phase = .finished → stream ≠ [] → adus made = [(⟨dstEid,stream.length⟩,stream)]
  empty : stream = [] → made = []
  broken : phase = .broken → made = []

theorem adus_exchange (dstEid : String) (stream : List UInt8) (sent received : Bool) :
    adus (exchange dstEid stream sent received) = [(⟨dstEid,stream.length⟩,stream)] := by
  cases sent <;> rfl

theorem sent_adus (account : Sent dstEid stream sender made) :
    adus made = [] ∨ adus made = [(⟨dstEid,stream.length⟩,stream)] := by
  cases account with
  | waiting => exact .inl rfl
  | holding => exact .inl rfl
  | sending => exact .inr rfl
  | sent => exact .inr rfl
  | receiving => exact .inr rfl
  | releasing sent received => exact .inr (adus_exchange _ _ _ _)
  | behind sent received => exact .inr (adus_exchange _ _ _ _)

theorem relayed_none (unfinished : phase = .finished → stream = []) : Relayed dstEid stream phase [] :=
  ⟨⟨true,true,List.nil_prefix⟩,.inl rfl,fun done bytes => absurd (unfinished done) bytes,fun _ => rfl,fun _ => rfl⟩

theorem relayed_sent (calls : Sent dstEid stream sender made) (bytes : stream ≠ []) (through : phase = .finished → sender = none)
    (whole : phase ≠ .broken) : Relayed dstEid stream phase made := by
  refine ⟨sent_part calls,sent_adus calls,fun done _ => ?_,fun none => absurd none bytes,fun broken => absurd broken whole⟩
  have behind := through done
  subst behind
  cases calls
  exact adus_exchange _ _ _ _

theorem account_relayed (account : Account handler made) :
    Relayed handler.server.dstEid handler.stream handler.phase made := by
  cases place : handler.phase with
  | reading chunks =>
    simp only [Account,place] at account
    obtain ⟨_,rfl⟩ := account
    exact relayed_none Phase.noConfusion
  | relaying sender =>
    simp only [Account,place] at account
    exact relayed_sent account.2 account.1 Phase.noConfusion Phase.noConfusion
  | finished =>
    simp only [Account,place] at account
    rcases account with ⟨none,rfl⟩ | ⟨bytes,calls⟩
    · exact relayed_none fun _ => none
    · exact relayed_sent calls bytes (fun _ => rfl) Phase.noConfusion
  | broken =>
    simp only [Account,place] at account
    subst account
    exact relayed_none Phase.noConfusion

def accepted (events : List ServerEvent) : List (Nat × List UInt8) :=
  events.filterMap fun
    | .accept route stream => some (route,stream)
    | .act _ _ => none

theorem accepted_append (events later : List ServerEvent) : accepted (events ++ later) = accepted events ++ accepted later :=
  List.filterMap_append

theorem serve_parts (taken : serve routes bridge event = some after) :
    (∃ route stream server, event = .accept route stream ∧ (servers routes)[route]? = some server ∧
      after = {bridge with threads := bridge.threads ++ [.start server stream]}) ∨
    (∃ thread action, event = .act thread action ∧ step handle bridge (.act thread action) = some after) := by
  cases event with
  | accept route stream =>
    obtain ⟨server,here,spawned⟩ := Option.bind_eq_some_iff.mp taken
    exact .inl ⟨route,stream,server,rfl,here,(Option.some.inj spawned).symm⟩
  | act thread action => exact .inr ⟨thread,action,rfl,taken⟩

structure Opened (routes : List (Nat × String)) (events : List ServerEvent) (bridge : Bridge) : Prop where
  origins : bridge.threads.map (fun handler => (some handler.server,handler.stream)) =
    (accepted events).map fun connection => ((servers routes)[connection.1]?,connection.2)
  resets : ∀ thread handler, bridge.threads[thread]? = some handler → handler.phase = .broken →
    .act thread .reset ∈ events

theorem handle_origin (taken : HandleStep handler next effect) :
    (some next.server,next.stream) = (some handler.server,handler.stream) := by
  cases taken <;> rfl

theorem read_unbroken (handler : Handler) (chunks : List (List UInt8)) (data : List UInt8) :
    (readToEof handler chunks data).phase ≠ .broken := by
  simp only [readToEof]
  split
  · split <;> exact Phase.noConfusion
  · exact Phase.noConfusion

theorem handle_broken (taken : handle handler action = some (next,effect)) (broken : next.phase = .broken) : action = .reset := by
  unfold handle at taken
  split at taken
  · split at taken
    · cases taken
      exact absurd broken (read_unbroken _ _ _)
    · cases taken
  · rfl
  · obtain ⟨⟨sender,_⟩,_,same⟩ := Option.map_eq_some_iff.mp taken
    cases same
    cases sender <;> cases broken
  · cases taken

theorem opened_serve (opened : Opened routes events bridge) (taken : serve routes bridge event = some after) :
    Opened routes (events ++ [event]) after := by
  rcases serve_parts taken with ⟨route,stream,server,rfl,here,rfl⟩ | ⟨thread,action,rfl,acted⟩
  · refine ⟨?_,fun thread handler found broken => ?_⟩
    · rw [accepted_append,List.map_append,List.map_append,opened.origins]
      simp [accepted,Handler.start,here]
    · rcases spawned_cases found with old | ⟨_,rfl⟩
      · exact List.mem_append_left _ (opened.resets thread handler old broken)
      · cases broken
  · obtain ⟨handler,next,effect,shared,here,handled,_,rfl⟩ := act_parts acted
    refine ⟨?_,fun other waiting found broken => ?_⟩
    · rw [accepted_append,set_map here (handle_origin (handle_step handled)),opened.origins]
      exact congrArg _ (List.append_nil _).symm
    · rcases set_cases found with ⟨rfl,rfl⟩ | ⟨_,old⟩
      · rw [handle_broken handled broken]
        simp
      · exact List.mem_append_left _ (opened.resets other waiting old broken)

theorem orderly_serve (orderly : Orderly inside Account bridge) (taken : serve routes bridge event = some after) :
    Orderly inside Account after := by
  rcases serve_parts taken with ⟨route,stream,server,rfl,here,rfl⟩ | ⟨thread,action,rfl,acted⟩
  · exact orderly_spawn orderly rfl ⟨rfl,rfl⟩
  · exact orderly_act disciplined orderly acted

theorem reached (run : Run (fun s event t => serve routes s event = some t) Pool.empty events bridge) :
    Orderly inside Account bridge ∧ Opened routes events bridge := by
  induction run with
  | nil => exact ⟨orderly_empty,rfl,by simp [Pool.empty]⟩
  | snoc _ taken ih => exact ⟨orderly_serve ih.1 taken,opened_serve ih.2 taken⟩

theorem opened_connection (opened : Opened routes events bridge)
    (connected : (accepted events)[(thread : Nat)]? = some (route,stream)) :
    ∃ (port : Nat) (handler : Handler), routes[route]? = some (port,handler.server.dstEid) ∧ bridge.threads[thread]? = some handler ∧
      handler.stream = stream := by
  have origin := congrArg (·[thread]?) opened.origins
  simp only [List.getElem?_map,connected,Option.map_some] at origin
  obtain ⟨handler,here,same⟩ := Option.map_eq_some_iff.mp origin
  obtain ⟨server,delivered⟩ := Prod.mk.inj same
  rw [servers,List.getElem?_map] at server
  obtain ⟨⟨port,dstEid⟩,listed,same⟩ := Option.map_eq_some_iff.mp server.symm
  exact ⟨port,handler,by rw [listed,← same],here,delivered⟩

theorem ends (run : Run (fun s event t => serve routes s event = some t) bridge later after) (none : accepted later = []) :
    later.length + total work after ≤ total work bridge := by
  induction run with
  | nil => simp
  | snoc _ taken ih =>
    rw [accepted_append,List.append_eq_nil_iff] at none
    have before := ih none.1
    rcases serve_parts taken with ⟨route,stream,server,rfl,_,_⟩ | ⟨thread,action,rfl,acted⟩
    · cases none.2
    · have less : total work _ < total work _ := act_costs (fun _ _ _ _ acted => work_less (handle_step acted)) acted
      rw [List.length_append,List.length_singleton]
      omega

end DTChat.BridgeRelay
