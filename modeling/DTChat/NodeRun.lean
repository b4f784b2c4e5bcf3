import DTChat.NodeLetters
import DTChat.Lib.Runs

namespace DTChat.NodeRun
open ClockTime Utf8Text PeerMessages WireCodec WireRoundTrip SortedInsert ChatModels MessageOrder AckMarks SocketControllers
  MessagePrompts NodeLetters Runs

-- A node from `main` on: the endpoints `init_controller` has still to go through,
-- the listeners that run, the node, and the datagrams and streams that were read.
-- A read gives a task of the read's number, which waits for the controller mutex.
-- The rest is history: the tasks that had the mutex in order, the chat messages
-- they decoded, those that were acknowledged, and all readings of the clock.
structure Machine where
  remaining : List Endpoint
  listening : List Endpoint
  node : Node
  reads : List (Endpoint × List UInt8)
  waiting : List Nat
  ran : List Nat
  handled : List (Nat × ChatMessage)
  acked : List ChatMessage
  readings : List UtcNow
  deriving DecidableEq

inductive NodeEvent where
  | bind (bound : Bool)
  | addObserver
  | read (listener : Endpoint) (payload : List UInt8)
  | handle (task : Nat) (now : UtcNow) (peerAddr : Option Utf8)
  | send (uuid : Utf8) (text : Utf8) (now : UtcNow) (predict : Peer → Option DateTime)
  | sort (strat : SortStrategy)

def receivedOn (listener : Endpoint) (peerAddr : Option Utf8) : Option Endpoint :=
  let datagram (address : Utf8) : Endpoint :=
    if address.startsWith (ascii "ipn:") || address.startsWith (ascii "dtn:") then .bp address else .udp address
  match listener with
  | .udp address => some (datagram address)
  | .bp address => some (datagram address)
  | .tcp _ => peerAddr.map .tcp

def boot (localPeer : Peer) (peers : List Peer) (demo : List ChatMessage) : Machine where
  remaining := localPeer.endpoints
  listening := []
  node := ⟨(SocketController.new.setLocalPeer localPeer).setPeers peers,seeded peers localPeer demo⟩
  reads := []
  waiting := []
  ran := []
  handled := []
  acked := []
  readings := []

-- The loop body of `init_controller`; `bound` tells whether the listener could start.
def Machine.bind (platform : Platform) (s : Machine) (endpoint : Endpoint) (later : List Endpoint) (bound : Bool) : Machine :=
  {s with
    remaining := later
    listening := if isValid platform endpoint && platform.builds endpoint && bound then s.listening ++ [endpoint] else s.listening}

def Machine.addObserver (s : Machine) : Machine :=
  {s with node := {s.node with controller := s.node.controller.addObserver .chatModel}}

def Machine.read (s : Machine) (listener : Endpoint) (payload : List UInt8) : Machine :=
  {s with reads := s.reads ++ [(listener,payload)],waiting := s.waiting ++ [s.reads.length]}

def Machine.handle (platform : Platform) (s : Machine) (task : Nat) (listener : Endpoint) (payload : List UInt8)
    (now : UtcNow) (peerAddr : Option Utf8) : Machine :=
  let read := deserializeMessage now payload s.node.controller.peers
  let result := s.node.handleDeserialized platform (receivedOn listener peerAddr) read
  {s with
    node := result.1
    waiting := s.waiting.erase task
    ran := s.ran ++ [task]
    handled := s.handled ++ (readChat read).map fun message => (task,message)
    acked := s.acked ++ result.2.toList.map AckTask.receivedMsg
    readings := s.readings ++ (readChat read).map fun _ => now}

def Machine.send (platform : Platform) (s : Machine) (uuid text : Utf8) (now : UtcNow) (predict : Peer → Option DateTime) :
    Machine :=
  let msg : ChatMessage := ⟨uuid,none,s.node.model.localpeer,text,.sent now.time []⟩
  {s with
    node := {s.node with model := (manageSend platform predict s.node.model msg).1}
    readings := s.readings ++ [now]}

def Machine.sort (s : Machine) (strat : SortStrategy) : Machine :=
  {s with node := {s.node with model := s.node.model.sortMessages strat}}

-- `main` adds the observer once `init_controller` is through, and opens the window after.
def step (platform : Platform) (s : Machine) : NodeEvent → Option Machine
  | .bind bound =>
    match s.remaining with
    | [] => none
    | endpoint :: later => some (s.bind platform endpoint later bound)
  | .addObserver => if s.remaining = [] ∧ s.node.controller.observers = [] then some s.addObserver else none
  | .read listener payload => if listener ∈ s.listening then some (s.read listener payload) else none
  | .handle task now peerAddr =>
    if task ∈ s.waiting then
      s.reads[task]?.map fun (listener,payload) => s.handle platform task listener payload now peerAddr
    else none
  | .send uuid text now predict =>
    if s.node.controller.observers = [] then none else some (s.send platform uuid text now predict)
  | .sort strat => if s.node.controller.observers = [] then none else some (s.sort strat)

def Steps (platform : Platform) (s : Machine) (event : NodeEvent) (t : Machine) : Prop := step platform s event = some t

theorem step_parts {platform : Platform} {s t : Machine} (taken : Steps platform s event t) :
    (∃ endpoint later bound, event = .bind bound ∧ s.remaining = endpoint :: later ∧ t = s.bind platform endpoint later bound) ∨
    (event = .addObserver ∧ s.node.controller.observers = [] ∧ t = s.addObserver) ∨
    (∃ listener payload, event = .read listener payload ∧ t = s.read listener payload) ∨
    (∃ task now peerAddr listener payload, event = .handle task now peerAddr ∧ task ∈ s.waiting ∧
      s.reads[task]? = some (listener,payload) ∧ t = s.handle platform task listener payload now peerAddr) ∨
    (∃ uuid text now predict, event = .send uuid text now predict ∧ t = s.send platform uuid text now predict) ∨
    ∃ strat, event = .sort strat ∧ t = s.sort strat := by
  unfold Steps step at taken
  cases event with
  | bind bound =>
    simp only at taken
    split at taken
    · cases taken
    · rename_i endpoint later remaining
      exact .inl ⟨endpoint,later,bound,rfl,remaining,(Option.some.inj taken).symm⟩
  | addObserver =>
    simp only at taken
    split at taken
    · rename_i ready
      exact .inr (.inl ⟨rfl,ready.2,(Option.some.inj taken).symm⟩)
    · cases taken
  | read listener payload =>
    simp only at taken
    split at taken
    · exact .inr (.inr (.inl ⟨listener,payload,rfl,(Option.some.inj taken).symm⟩))
    · cases taken
  | handle task now peerAddr =>
    simp only at taken
    split at taken
    · rename_i waiting
      obtain ⟨⟨listener,payload⟩,there,same⟩ := Option.map_eq_some_iff.mp taken
      exact .inr (.inr (.inr (.inl ⟨task,now,peerAddr,listener,payload,rfl,waiting,there,same.symm⟩)))
    · cases taken
  | send uuid text now predict =>
    simp only at taken
    split at taken
    · cases taken
    · exact .inr (.inr (.inr (.inr (.inl ⟨uuid,text,now,predict,rfl,(Option.some.inj taken).symm⟩))))
  | sort strat =>
    simp only at taken
    split at taken
    · cases taken
    · exact .inr (.inr (.inr (.inr (.inr ⟨strat,rfl,(Option.some.inj taken).symm⟩))))

theorem deserialize_received (decoded : deserializeMessage now payload peers = some (.chatMessage message)) :
    ∃ tx, message.shipmentStatus = .received tx now.time := by
  obtain ⟨proto,_,extracted⟩ := Option.bind_eq_some_iff.mp decoded
  unfold extractMessageFromProto at extracted
  simp only at extracted
  split at extracted
  · cases extracted
  all_goals obtain ⟨tx,_,same⟩ := Option.map_eq_some_iff.mp extracted
  · cases same
  · cases same; exact ⟨tx,rfl⟩
  · cases same; exact ⟨tx,rfl⟩
  · cases same; exact ⟨tx,rfl⟩

theorem mem_readChat {read : Option DeserializedMessage} :
    message ∈ readChat read ↔ read = some (.chatMessage message) := by
  unfold readChat
  split
  · simp [eq_comm]
  · rename_i other
    simp only [List.not_mem_nil,false_iff]
    exact other message

theorem readChat_cases (read : Option DeserializedMessage) :
    readChat read = [] ∨ ∃ message, read = some (.chatMessage message) ∧ readChat read = [message] := by
  unfold readChat
  split
  · exact .inr ⟨_,rfl,rfl⟩
  · exact .inl rfl

def Observed (node : Node) : Prop := node.controller.observers = [] ∨ node.controller.observers = [.chatModel]

theorem handleDeserialized_follows {node : Node} (observed : Observed node) (platform : Platform)
    (endpoint : Option Endpoint) (read : Option DeserializedMessage) :
    ∃ added, Follows node (node.handleDeserialized platform endpoint read).1 added ∧
      (node.controller.observers = [.chatModel] → ∀ message ∈ readChat read, message.unacked ∈ added) := by
  cases read with
  | none => exact ⟨0,follows_refl _,fun _ message member => by cases member⟩
  | some read =>
    cases read with
    | chatMessage message =>
      simp only [Node.handleDeserialized]
      rcases observed with deaf | heard
      · have same : node.notifyObservers platform message = node := by
          unfold Node.notifyObservers
          rw [deaf]
          rfl
        refine ⟨0,?_,fun heard => ?_⟩
        · rw [same]; exact follows_refl _
        · rw [deaf] at heard; cases heard
      · have follows := follows_addMessage platform.binary node message .received
          (node.model.addMessage platform.binary message .received).notified
        refine ⟨{message.unacked},?_,fun _ other member => ?_⟩
        · rw [notifyObservers_only heard]; exact follows
        · cases List.mem_singleton.mp member
          exact Multiset.mem_singleton_self _
    | ack messageUuid isRead ackTime ackerUuid =>
      refine ⟨0,?_,fun _ message member => by cases member⟩
      simp only [Node.handleDeserialized]
      rcases observed with deaf | heard
      · have same : node.handleAckReceived messageUuid ackerUuid isRead ackTime = node := by
          unfold Node.handleAckReceived
          rw [deaf]
          rfl
        rw [same]; exact follows_refl _
      · rw [handleAckReceived_only heard]; exact follows_onAckReceived _ _ _ _ _

structure Wired (s : Machine) : Prop where
  observed : Observed s.node
  inOrder : InOrder s.node.model

theorem boot_wired (localPeer : Peer) (peers : List Peer) (demo : List ChatMessage) : Wired (boot localPeer peers demo) :=
  ⟨.inl rfl,sortMessages_inOrder _ _⟩

theorem wired_follows {a b : Machine} {added : Multiset ChatMessage} (wired : Wired a) (follows : Follows a.node b.node added) :
    Wired b ∧ letters a.node.model ⊆ letters b.node.model := by
  refine ⟨⟨?_,follows.inOrder wired.inOrder⟩,?_⟩
  · rw [Observed,follows.controller]
    exact wired.observed
  · rw [follows.letters wired.inOrder]
    exact Multiset.subset_of_le (Multiset.le_add_left _ _)

theorem step_wired {platform : Platform} {s t : Machine} (wired : Wired s) (taken : Steps platform s event t) :
    Wired t ∧ letters s.node.model ⊆ letters t.node.model := by
  rcases step_parts taken with ⟨endpoint,later,bound,_,_,rfl⟩ | ⟨_,deaf,rfl⟩ | ⟨listener,payload,_,rfl⟩ |
    ⟨task,now,peerAddr,listener,payload,_,_,_,rfl⟩ | ⟨uuid,text,now,predict,_,rfl⟩ | ⟨strat,_,rfl⟩
  · exact wired_follows wired (follows_refl s.node)
  · refine ⟨⟨.inr ?_,wired.inOrder⟩,Multiset.Subset.refl _⟩
    simp [Machine.addObserver,SocketController.addObserver,deaf]
  · exact wired_follows wired (follows_refl s.node)
  · obtain ⟨added,follows,_⟩ := handleDeserialized_follows wired.observed platform (receivedOn listener peerAddr)
      (deserializeMessage now payload s.node.controller.peers)
    exact wired_follows wired follows
  · obtain ⟨notified,model⟩ := manageSend_model platform predict s.node.model
      ⟨uuid,none,s.node.model.localpeer,text,.sent now.time []⟩
    have follows := follows_addMessage platform.binary s.node
      (addressed predict s.node.model ⟨uuid,none,s.node.model.localpeer,text,.sent now.time []⟩) .sent notified
    rw [← model] at follows
    exact wired_follows wired follows
  · exact wired_follows wired (follows_sortMessages s.node strat)

theorem letter_received {message : ChatMessage} (letter : message ∈ letters model)
    (received : message.shipmentStatus = .received tx rx) : message ∈ model.messages := by
  obtain ⟨m,inside,same⟩ := mem_letters.mp letter
  cases status : m.shipmentStatus with
  | received tx' rx' =>
    rw [unacked_received status] at same
    rwa [← same]
  | sent tx' deliveries =>
    have sent : m.unacked.shipmentStatus = .sent tx' (deliveries.map Delivery.unacked) := by
      simp only [ChatMessage.unacked,status]
    rw [same,received] at sent
    cases sent

theorem received_stays {s t : Machine} (letters : letters s.node.model ⊆ letters t.node.model)
    (inside : message ∈ s.node.model.messages) (received : message.shipmentStatus = .received tx rx) :
    message ∈ t.node.model.messages :=
  letter_received (letters (mem_letters.mpr ⟨message,inside,unacked_received received⟩)) received

theorem handle_gains {s : Machine} (wired : Wired s) (registered : s.node.controller.observers = [.chatModel])
    (platform : Platform) (task : Nat) (listener : Endpoint) (peerAddr : Option Utf8)
    (decoded : deserializeMessage now payload s.node.controller.peers = some (.chatMessage message)) :
    message ∈ (s.handle platform task listener payload now peerAddr).node.model.messages := by
  obtain ⟨tx,received⟩ := deserialize_received decoded
  obtain ⟨added,follows,gained⟩ := handleDeserialized_follows wired.observed platform (receivedOn listener peerAddr)
    (deserializeMessage now payload s.node.controller.peers)
  have new := gained registered message (mem_readChat.mpr decoded)
  rw [unacked_received received] at new
  apply letter_received _ received
  have grown := follows.letters wired.inOrder
  unfold Machine.handle
  simp only
  rw [grown]
  exact Multiset.mem_add.mpr (.inl new)

-- mesh_integration.rs: two of its nodes over UDP.
def earth : Peer := ⟨ascii "10",ascii "earth",[.udp (ascii "127.0.0.1:7001")],2⟩
def moon : Peer := ⟨ascii "20",ascii "moon",[.udp (ascii "127.0.0.1:7002")],3⟩
def earthListener : Endpoint := .udp (ascii "127.0.0.1:7001")

def loopback : Platform :=
  ⟨fun address => address = ascii "127.0.0.1:7001" || address = ascii "127.0.0.1:7002",isUdp,stdSearch⟩

end DTChat.NodeRun
