import DTChat.MessagePrompt
import DTChat.MessageOrder
import DTChat.WireFraming
import DTChat.Lib.Runs

namespace DTChat.MeshModel
open ClockTime Utf8Text PeerMessages WireCodec WireRoundTrip WireFraming SortedInsert ChatModels MessageOrder SocketControllers
  MessagePrompts Runs

inductive SendTask where
  | chat (task : ChatTask)
  | ack (task : AckTask)
  deriving DecidableEq

def SendTask.endpoint : SendTask → Endpoint
  | .chat task => task.endpoint
  | .ack task => task.endpoint

-- An ACK takes its own uuid and time when the task runs.
def SendTask.frame (uuid : Utf8) (now : UtcNow) : SendTask → SentFrame
  | .chat task => .chat task.message
  | .ack task => .ack uuid now task.receivedMsg task.localPeerUuid task.isRead

-- Nodes of distinct uuids. Each lists every other node once, under that node's
-- uuid, with endpoints that all lead there; of the node itself it may list anything.
structure Mesh (ι : Type) where
  platform : Platform
  localPeer : ι → Peer
  peers : ι → List Peer
  route : ι → Endpoint → ι
  distinct : Function.Injective fun i => (localPeer i).uuid
  listed : ∀ i j, j ≠ i → ((peers i).filter fun p => p.uuid = (localPeer j).uuid).length = 1
  known : ∀ i, ∀ p ∈ peers i, ∃ j, p.uuid = (localPeer j).uuid
  reachable : ∀ i, ∀ p ∈ peers i, p.uuid ≠ (localPeer i).uuid → p.endpoints ≠ []
  usable : ∀ i, ∀ p ∈ peers i, p.uuid ≠ (localPeer i).uuid → ∀ endpoint ∈ p.endpoints,
    isValid platform endpoint = true ∧ platform.builds endpoint = true ∧
      (localPeer (route i endpoint)).uuid = p.uuid

structure Frame (ι : Type) where
  dst : ι
  content : SentFrame

-- `used` holds the uuids of all messages there have been, `decoded` what each node
-- has made of the chat frames it read, `lost` the frames the network dropped.
structure State (ι : Type) where
  node : ι → Node
  pending : List (ι × SendTask)
  network : List (Frame ι)
  lost : List (Frame ι)
  used : List Utf8
  decoded : List (ι × ChatMessage)

inductive Event (ι : Type) where
  | send (i : ι) (uuid : Utf8) (response : Option Utf8) (text : Utf8) (now : UtcNow)
    (predict : Peer → Option DateTime)
  | emit (index : Nat) (uuid : Utf8) (now : UtcNow)
  | receive (index : Nat) (now : UtcNow) (receivedOn : Option Endpoint)
  | duplicate (index : Nat)
  | lose (index : Nat)
  | sort (i : ι) (strat : SortStrategy)

variable {ι : Type}

def Mesh.controller (mesh : Mesh ι) (i : ι) : SocketController :=
  ((SocketController.new.setLocalPeer (mesh.localPeer i)).setPeers (mesh.peers i)).addObserver .chatModel

def State.model (s : State ι) (i : ι) : ChatModel := (s.node i).model

def Mesh.prompted (mesh : Mesh ι) (i : ι) (uuid : Utf8) (response : Option Utf8) (text : Utf8) (now : UtcNow) : ChatMessage :=
  ⟨uuid,response,mesh.localPeer i,text,.sent now.time []⟩

def State.read (s : State ι) (now : UtcNow) (frame : Frame ι) : Option DeserializedMessage :=
  extractMessageFromProto now frame.content.proto (s.node frame.dst).controller.peers

-- The codec in between is faithful: the bytes of a frame are read as the frame.
theorem read_wire (s : State ι) (now : UtcNow) {frame : Frame ι} (encoded : frame.content.wire = some wire) :
    deserializeMessage now wire (s.node frame.dst).controller.peers = s.read now frame := by
  rw [frame.content.wire_eq] at encoded
  obtain ⟨content,present⟩ := frame.content.content
  exact deserialize_decoded (decodeTolerant_wire encoded present) now _

variable [DecidableEq ι]

def Mesh.sent (mesh : Mesh ι) (s : State ι) (i : ι) (msg : ChatMessage) (predict : Peer → Option DateTime) : State ι :=
  let sent := manageSend mesh.platform predict (s.model i) msg
  {s with
    node := Function.update s.node i {s.node i with model := sent.1}
    pending := s.pending ++ sent.2.map fun task => (i,.chat task)
    used := msg.uuid :: s.used}

def Mesh.emitted (mesh : Mesh ι) (s : State ι) (index : Nat) (i : ι) (task : SendTask) (uuid : Utf8) (now : UtcNow) : State ι :=
  {s with
    pending := s.pending.eraseIdx index
    network := ⟨mesh.route i task.endpoint,task.frame uuid now⟩ :: s.network}

def Mesh.received (mesh : Mesh ι) (s : State ι) (index : Nat) (frame : Frame ι) (now : UtcNow)
    (receivedOn : Option Endpoint) : State ι :=
  let read := s.read now frame
  let handled := (s.node frame.dst).handleDeserialized mesh.platform receivedOn read
  {s with
    node := Function.update s.node frame.dst handled.1
    pending := s.pending ++ handled.2.toList.map fun task => (frame.dst,.ack task)
    network := s.network.eraseIdx index
    decoded := s.decoded ++ (readChat read).map fun message => (frame.dst,message)}

def State.sorted (s : State ι) (i : ι) (strat : SortStrategy) : State ι :=
  {s with node := Function.update s.node i {s.node i with model := (s.model i).sortMessages strat}}

def Mesh.step (mesh : Mesh ι) (s : State ι) : Event ι → Option (State ι)
  | .send i uuid response text now predict =>
    if uuid ∈ s.used then none else some (mesh.sent s i (mesh.prompted i uuid response text now) predict)
  | .emit index uuid now => s.pending[index]?.map fun (i,task) => mesh.emitted s index i task uuid now
  | .receive index now receivedOn => s.network[index]?.map fun frame => mesh.received s index frame now receivedOn
  | .duplicate index => s.network[index]?.map fun frame => {s with network := frame :: s.network}
  | .lose index => s.network[index]?.map fun frame =>
    {s with network := s.network.eraseIdx index,lost := frame :: s.lost}
  | .sort i strat => some (s.sorted i strat)

def Mesh.Steps (mesh : Mesh ι) (s : State ι) (event : Event ι) (t : State ι) : Prop := mesh.step s event = some t

structure Mesh.Start (mesh : Mesh ι) (s : State ι) : Prop where
  controller : ∀ i, (s.node i).controller = mesh.controller i
  localpeer : ∀ i, (s.model i).localpeer = mesh.localPeer i
  peers : ∀ i, (s.model i).peers = mesh.peers i
  inOrder : ∀ i, InOrder (s.model i)
  seeds : ∀ i, ∀ m ∈ (s.model i).messages, m.uuid ∈ s.used ∧ ∃ tx rx, m.shipmentStatus = .received tx rx
  pending : s.pending = []
  network : s.network = []
  lost : s.lost = []
  decoded : s.decoded = []

theorem step_parts {mesh : Mesh ι} {s t : State ι} (taken : mesh.Steps s event t) :
    (∃ i uuid response text now predict, event = .send i uuid response text now predict ∧ uuid ∉ s.used ∧
      t = mesh.sent s i (mesh.prompted i uuid response text now) predict) ∨
    (∃ index uuid now i task, event = .emit index uuid now ∧ s.pending[index]? = some (i,task) ∧
      t = mesh.emitted s index i task uuid now) ∨
    (∃ index now receivedOn frame, event = .receive index now receivedOn ∧ s.network[index]? = some frame ∧
      t = mesh.received s index frame now receivedOn) ∨
    (∃ index frame, event = .duplicate index ∧ s.network[index]? = some frame ∧
      t = {s with network := frame :: s.network}) ∨
    (∃ index frame, event = .lose index ∧ s.network[index]? = some frame ∧
      t = {s with network := s.network.eraseIdx index,lost := frame :: s.lost}) ∨
    ∃ i strat, event = .sort i strat ∧ t = s.sorted i strat := by
  unfold Mesh.Steps Mesh.step at taken
  cases event with
  | send i uuid response text now predict =>
    simp only at taken
    split at taken
    · cases taken
    · rename_i fresh
      exact .inl ⟨i,uuid,response,text,now,predict,rfl,fresh,(Option.some.inj taken).symm⟩
  | emit index uuid now =>
    obtain ⟨⟨i,task⟩,there,same⟩ := Option.map_eq_some_iff.mp taken
    exact .inr (.inl ⟨index,uuid,now,i,task,rfl,there,same.symm⟩)
  | receive index now receivedOn =>
    obtain ⟨frame,there,same⟩ := Option.map_eq_some_iff.mp taken
    exact .inr (.inr (.inl ⟨index,now,receivedOn,frame,rfl,there,same.symm⟩))
  | duplicate index =>
    obtain ⟨frame,there,same⟩ := Option.map_eq_some_iff.mp taken
    exact .inr (.inr (.inr (.inl ⟨index,frame,rfl,there,same.symm⟩)))
  | lose index =>
    obtain ⟨frame,there,same⟩ := Option.map_eq_some_iff.mp taken
    exact .inr (.inr (.inr (.inr (.inl ⟨index,frame,rfl,there,same.symm⟩))))
  | sort i strat => exact .inr (.inr (.inr (.inr (.inr ⟨i,strat,rfl,(Option.some.inj taken).symm⟩))))

end DTChat.MeshModel
