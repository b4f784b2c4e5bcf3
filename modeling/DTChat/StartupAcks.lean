import DTChat.NodeRun
import DTChat.WireFraming

namespace DTChat.StartupAcks
open ClockTime Utf8Text PeerMessages WireCodec WireRoundTrip SortedInsert ChatModels MessageOrder SocketControllers NodeLetters
  NodeRun Runs

def answers (platform : Platform) (s : Machine) (task : Nat) (now : UtcNow) (peerAddr : Option Utf8) : Option ChatMessage :=
  s.reads[task]?.bind fun (listener,payload) =>
    match deserializeMessage now payload s.node.controller.peers with
    | some (.chatMessage message) =>
      (s.node.controller.sendAckIfNeeded platform message (receivedOn listener peerAddr)).map fun _ => message
    | _ => none

-- No task that is to send an ACK gets the mutex before `add_observer` does.
def Heard (platform : Platform) (s : Machine) : NodeEvent → Prop
  | .handle task now peerAddr => answers platform s task now peerAddr ≠ none → s.node.controller.observers ≠ []
  | _ => True

instance (platform : Platform) (s : Machine) : (event : NodeEvent) → Decidable (Heard platform s event)
  | .bind _ => isTrue trivial
  | .addObserver => isTrue trivial
  | .read _ _ => isTrue trivial
  | .handle _ _ _ => inferInstanceAs (Decidable (_ → _))
  | .send _ _ _ _ => isTrue trivial
  | .sort _ => isTrue trivial

theorem sendAck_message {controller : SocketController} {message : ChatMessage}
    (answered : controller.sendAckIfNeeded platform message endpoint = some task) : task.receivedMsg = message := by
  unfold SocketController.sendAckIfNeeded at answered
  split at answered
  · cases answered
  · split at answered
    · cases answered
    · split at answered
      · cases answered
      · split at answered
        · cases answered
        · split at answered
          · cases answered; rfl
          · cases answered

theorem handle_acked (platform : Platform) (s : Machine) (there : s.reads[task]? = some (listener,payload)) (now : UtcNow)
    (peerAddr : Option Utf8) : (s.handle platform task listener payload now peerAddr).acked =
      s.acked ++ (answers platform s task now peerAddr).toList := by
  unfold Machine.handle answers
  rw [there,Option.bind_some]
  simp only
  cases deserializeMessage now payload s.node.controller.peers with
  | none => rfl
  | some read =>
    cases read with
    | ack messageUuid isRead ackTime ackerUuid => rfl
    | chatMessage message =>
      simp only [Node.handleDeserialized]
      cases answered : s.node.controller.sendAckIfNeeded platform message (receivedOn listener peerAddr) with
      | none => rfl
      | some task => simp [sendAck_message answered]

theorem answers_decoded (answered : answers platform s task now peerAddr = some message)
    (there : s.reads[task]? = some (listener,payload)) :
    deserializeMessage now payload s.node.controller.peers = some (.chatMessage message) := by
  unfold answers at answered
  rw [there,Option.bind_some] at answered
  simp only at answered
  split at answered
  · rename_i decoded
    obtain ⟨_,_,same⟩ := Option.map_eq_some_iff.mp answered
    rw [decoded,same]
  · cases answered

structure Kept (s : Machine) : Prop where
  wired : Wired s
  acked : ∀ message ∈ s.acked, message ∈ s.node.model.messages ∧ ∃ tx rx, message.shipmentStatus = .received tx rx

theorem kept_later {s t : Machine} (kept : Kept s) (wired : Wired t) (letters : letters s.node.model ⊆ letters t.node.model)
    (acked : ∀ message ∈ t.acked, message ∈ s.acked ∨
      message ∈ t.node.model.messages ∧ ∃ tx rx, message.shipmentStatus = .received tx rx) : Kept t := by
  refine ⟨wired,fun message member => ?_⟩
  rcases acked message member with old | fresh
  · obtain ⟨inside,tx,rx,received⟩ := kept.acked message old
    exact ⟨received_stays letters inside received,tx,rx,received⟩
  · exact fresh

theorem handle_kept {platform : Platform} {s : Machine} (kept : Kept s)
    (there : s.reads[task]? = some (listener,payload)) (heard : Heard platform s (.handle task now peerAddr))
    (wired : Wired (s.handle platform task listener payload now peerAddr))
    (letters : letters s.node.model ⊆ letters (s.handle platform task listener payload now peerAddr).node.model) :
    Kept (s.handle platform task listener payload now peerAddr) := by
  apply kept_later kept wired letters
  intro message member
  rw [handle_acked platform s there] at member
  rcases List.mem_append.mp member with old | fresh
  · exact .inl old
  · right
    have answered := Option.mem_toList.mp fresh
    have decoded := answers_decoded answered there
    obtain ⟨tx,received⟩ := deserialize_received decoded
    have registered : s.node.controller.observers = [.chatModel] :=
      kept.wired.observed.resolve_left (heard (by rw [answered]; exact Option.some_ne_none message))
    exact ⟨handle_gains kept.wired registered platform task listener peerAddr decoded,tx,_,received⟩

theorem step_kept {platform : Platform} {s t : Machine} (kept : Kept s) (taken : Steps platform s event t)
    (heard : Heard platform s event) : Kept t := by
  obtain ⟨wired,letters⟩ := step_wired kept.wired taken
  rcases step_parts taken with ⟨endpoint,later,bound,_,_,rfl⟩ | ⟨_,_,rfl⟩ | ⟨listener,payload,_,rfl⟩ |
    ⟨task,now,peerAddr,listener,payload,rfl,_,there,rfl⟩ | ⟨uuid,text,now,predict,_,rfl⟩ | ⟨strat,_,rfl⟩
  · exact kept_later kept wired letters fun _ => .inl
  · exact kept_later kept wired letters fun _ => .inl
  · exact kept_later kept wired letters fun _ => .inl
  · exact handle_kept kept there heard wired letters
  · exact kept_later kept wired letters fun _ => .inl
  · exact kept_later kept wired letters fun _ => .inl

theorem unheard_dropped {platform : Platform} {s : Machine} (there : s.reads[task]? = some (listener,payload))
    (answered : answers platform s task now peerAddr = some message) (deaf : s.node.controller.observers = []) :
    (s.handle platform task listener payload now peerAddr).node.model = s.node.model ∧
      message ∈ (s.handle platform task listener payload now peerAddr).acked := by
  have decoded := answers_decoded answered there
  constructor
  · simp only [Machine.handle,decoded,Node.handleDeserialized,Node.notifyObservers,deaf,List.foldl_nil]
  · rw [handle_acked platform s there,answered]
    exact List.mem_append_right _ List.mem_cons_self

theorem acked_kept (run : Run (fun s event t => Steps platform s event t ∧ Heard platform s event)
    (boot localPeer peers demo) events s) : ∀ message ∈ s.acked, message ∈ s.node.model.messages := by
  have climb : ∀ s event t, Kept s → Steps platform s event t ∧ Heard platform s event → Kept t :=
    fun s event t kept taken => step_kept kept taken.1 taken.2
  have start : Kept (boot localPeer peers demo) := ⟨boot_wired localPeer peers demo,fun message member => by cases member⟩
  exact fun message member => ((run.preserves climb start).acked message member).1

def help : ChatMessage :=
  ⟨ascii "4a3bf47e-401b-45d1-8b1b-a23e44321065",none,moon,ascii "help",.sent epoch.time []⟩

def datagram : List UInt8 := (serializeMessage help).getD []

def timely : List NodeEvent := [.bind true,.addObserver,.read earthListener datagram,.handle 0 epoch none]

theorem acked_kept_timely : ∃ s, Run (fun s event t => Steps loopback s event t ∧ Heard loopback s event)
    (boot earth [moon] []) timely s ∧ s.acked.length = 1 ∧ ∀ message ∈ s.acked, message ∈ s.node.model.messages := by
  have done : (follow (fun s event => if Heard loopback s event then step loopback s event else none)
      (boot earth [moon] []) timely).map (fun s => s.acked.length) = some 1 := by decide +kernel
  obtain ⟨s,ended,counted⟩ := Option.map_eq_some_iff.mp done
  have guarded : ∀ s event t, (if Heard loopback s event then step loopback s event else none) = some t →
      Steps loopback s event t ∧ Heard loopback s event := by
    intro s event t taken
    split at taken
    · rename_i heard
      exact ⟨taken,heard⟩
    · cases taken
  have run := (Run.of_follow ended).mono guarded
  exact ⟨s,run,counted,acked_kept run⟩

-- A datagram that is handled once its listener runs, and before the model is added.
def early : List NodeEvent := [.bind true,.read earthListener datagram,.handle 0 epoch none,.addObserver]

theorem early_ack_lost : ∃ s, Run (Steps loopback) (boot earth [moon] []) early s ∧
    ∃ message ∈ s.acked, message ∉ s.node.model.messages := by
  have done : (follow (step loopback) (boot earth [moon] []) early).map (fun s => (s.acked.map ChatMessage.uuid,
      s.node.model.messages)) = some ([help.uuid],[]) := by decide +kernel
  obtain ⟨s,ended,facts⟩ := Option.map_eq_some_iff.mp done
  obtain ⟨acked,messages⟩ := Prod.mk.inj facts
  obtain ⟨message,member,_⟩ := List.mem_map.mp (acked ▸ List.mem_cons_self : help.uuid ∈ s.acked.map ChatMessage.uuid)
  refine ⟨s,Run.of_follow ended,message,member,?_⟩
  rw [messages]
  exact List.not_mem_nil

end DTChat.StartupAcks
