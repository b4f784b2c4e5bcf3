import DTChat.ChatModel
import DTChat.WireRoundTrip

namespace DTChat.SocketControllers
open ClockTime Utf8Text PeerMessages ProtoMessages WireCodec WireRoundTrip SortedInsert ChatModels

-- What the node takes from std and the operating system: socket address
-- parsing, whether a socket can be made for an endpoint, and `binary_search_by`.
structure Platform where
  parses : Utf8 → Bool
  builds : Endpoint → Bool
  binary : BinarySearch ChatMessage

def Utf8.contains (text part : Utf8) : Bool := text.bytes.tails.any part.bytes.isPrefixOf

def isValid (platform : Platform) : Endpoint → Bool
  | .udp address => platform.parses address
  | .tcp address => platform.parses address
  | .bp address => !Utf8.contains address (ascii "PLACEHOLDER") && !address.bytes.isEmpty &&
      (address.startsWith (ascii "ipn:") || address.startsWith (ascii "dtn:"))

def isBp : Endpoint → Bool
  | .bp _ => true
  | _ => false

def isTcp : Endpoint → Bool
  | .tcp _ => true
  | _ => false

def isUdp : Endpoint → Bool
  | .udp _ => true
  | _ => false

def familyMatch (receivedEndpoint endpoint : Endpoint) : Bool :=
  match receivedEndpoint with
  | .bp _ => isBp endpoint
  | .tcp _ => isTcp endpoint
  | .udp _ => isUdp endpoint

-- The transport the message arrived on, else BP, TCP, UDP in this order.
def chooseAckEndpoint (platform : Platform) (senderPeer : Peer) (receivedOnEndpoint : Option Endpoint) : Option Endpoint :=
  let byKind (wanted : Endpoint → Bool) := senderPeer.endpoints.find? fun ep => isValid platform ep && wanted ep
  let family := receivedOnEndpoint.bind fun receivedEndpoint => senderPeer.endpoints.find? (familyMatch receivedEndpoint)
  family.or <| (byKind isBp).or <| (byKind isTcp).or <| (byKind isUdp).or <| senderPeer.endpoints.find? (isValid platform)

inductive SocketObserver where
  | chatModel
  deriving DecidableEq

structure SocketController where
  observers : List SocketObserver
  localPeer : Option Peer
  peers : List Peer
  deriving DecidableEq

def SocketController.new : SocketController := ⟨[],none,[]⟩
def SocketController.setPeers (controller : SocketController) (peers : List Peer) : SocketController :=
  {controller with peers := peers}
def SocketController.setLocalPeer (controller : SocketController) (peer : Peer) : SocketController :=
  {controller with localPeer := some peer}
def SocketController.addObserver (controller : SocketController) (observer : SocketObserver) : SocketController :=
  {controller with observers := controller.observers ++ [observer]}

structure AckTask where
  endpoint : Endpoint
  receivedMsg : ChatMessage
  localPeerUuid : Utf8
  isRead : Bool
  deriving DecidableEq

def SocketController.sendAckIfNeeded (platform : Platform) (controller : SocketController) (message : ChatMessage)
    (receivedOnEndpoint : Option Endpoint) : Option AckTask :=
  if message.text.startsWith (ascii "[ACK]") then none
  else match controller.localPeer with
    | none => none
    | some localPeer =>
      match controller.peers.find? fun p => p.uuid = message.sender.uuid with
      | none => none
      | some senderPeer =>
        match chooseAckEndpoint platform senderPeer receivedOnEndpoint with
        | none => none
        | some targetEndpoint =>
          if platform.builds targetEndpoint then some ⟨targetEndpoint,message,localPeer.uuid,false⟩ else none

structure Node where
  controller : SocketController
  model : ChatModel
  deriving DecidableEq

def Node.notifyObservers (platform : Platform) (node : Node) (message : ChatMessage) : Node :=
  let update (model : ChatModel) (_observer : SocketObserver) := model.onSocketEvent platform.binary message
  {node with model := node.controller.observers.foldl update node.model}

def Node.handleAckReceived (node : Node) (messageUuid ackerUuid : Utf8) (isRead : Bool) (ackTime : DateTime) : Node :=
  let update (model : ChatModel) (_observer : SocketObserver) := model.onAckReceived messageUuid ackerUuid isRead ackTime
  {node with model := node.controller.observers.foldl update node.model}

-- The body of a listener task once it holds the mutex: a chat message is
-- acknowledged first and handed to the observers after.
def Node.handleDeserialized (platform : Platform) (node : Node) (receivedOnEndpoint : Option Endpoint) :
    Option DeserializedMessage → Node × Option AckTask
  | none => (node,none)
  | some (.chatMessage message) =>
    (node.notifyObservers platform message,node.controller.sendAckIfNeeded platform message receivedOnEndpoint)
  | some (.ack messageUuid isRead ackTime ackerUuid) => (node.handleAckReceived messageUuid ackerUuid isRead ackTime,none)

def readChat : Option DeserializedMessage → List ChatMessage
  | some (.chatMessage message) => [message]
  | _ => []

theorem notifyObservers_only {node : Node} (only : node.controller.observers = [.chatModel]) (platform : Platform)
    (message : ChatMessage) : node.notifyObservers platform message =
      {node with model := node.model.addMessage platform.binary message .received} := by
  unfold Node.notifyObservers
  rw [only]
  rfl

theorem handleAckReceived_only {node : Node} (only : node.controller.observers = [.chatModel])
    (messageUuid ackerUuid : Utf8) (isRead : Bool) (ackTime : DateTime) :
    node.handleAckReceived messageUuid ackerUuid isRead ackTime =
      {node with model := node.model.onAckReceived messageUuid ackerUuid isRead ackTime} := by
  unfold Node.handleAckReceived
  rw [only]
  rfl

theorem chooseAckEndpoint_listed (chosen : chooseAckEndpoint platform senderPeer receivedOnEndpoint = some endpoint) :
    endpoint ∈ senderPeer.endpoints := by
  simp only [chooseAckEndpoint,Option.or_eq_some_iff,Option.bind_eq_some_iff] at chosen
  rcases chosen with ⟨_,_,found⟩ | ⟨_,found | ⟨_,found | ⟨_,found | ⟨_,found⟩⟩⟩⟩
  · exact List.mem_of_find?_eq_some found
  · exact List.mem_of_find?_eq_some found
  · exact List.mem_of_find?_eq_some found
  · exact List.mem_of_find?_eq_some found
  · exact List.mem_of_find?_eq_some found

theorem chooseAckEndpoint_some (receivedOnEndpoint : Option Endpoint) (listed : endpoint ∈ senderPeer.endpoints)
    (valid : isValid platform endpoint = true) :
    ∃ chosen, chooseAckEndpoint platform senderPeer receivedOnEndpoint = some chosen := by
  have last : (senderPeer.endpoints.find? (isValid platform)).isSome :=
    List.find?_isSome.mpr ⟨endpoint,listed,valid⟩
  apply Option.isSome_iff_exists.mp
  simp [chooseAckEndpoint,Option.isSome_or,last]

end DTChat.SocketControllers
