import DTChat.ClockTime
import DTChat.Lib.Utf8Text

namespace DTChat.PeerMessages
open ClockTime Utf8Text

-- utils/socket.rs
inductive Endpoint where
  | udp (address : Utf8)
  | tcp (address : Utf8)
  | bp (address : Utf8)
  deriving DecidableEq

-- utils/config.rs
structure Peer where
  uuid : Utf8
  name : Utf8
  endpoints : List Endpoint
  color : UInt32
  deriving DecidableEq

def Peer.default : Peer := ⟨ascii "unknown",ascii "Unknown",[],0⟩

-- utils/message.rs
structure Delivery where
  peerUuid : Utf8
  peerName : Utf8
  predictedArrival : Option DateTime
  ackedAt : Option DateTime
  deriving DecidableEq

inductive MessageStatus where
  | sent (tx : DateTime) (deliveries : List Delivery)
  | received (tx rx : DateTime)
  deriving DecidableEq

structure ChatMessage where
  uuid : Utf8
  response : Option Utf8
  sender : Peer
  text : Utf8
  shipmentStatus : MessageStatus
  deriving DecidableEq

def MessageStatus.txTime : MessageStatus → DateTime
  | .sent tx _ => tx
  | .received tx _ => tx

def MessageStatus.deliveries : MessageStatus → List Delivery
  | .sent _ deliveries => deliveries
  | .received _ _ => []

def markDelivery (ackerUuid : Utf8) (ackTime : DateTime) : List Delivery → Option (List Delivery)
  | [] => none
  | delivery :: rest =>
    if delivery.peerUuid = ackerUuid then some ({delivery with ackedAt := some ackTime} :: rest)
    else (markDelivery ackerUuid ackTime rest).map (delivery :: ·)

def ChatMessage.markAck (message : ChatMessage) (ackerUuid : Utf8) (ackTime : DateTime) : ChatMessage × Bool :=
  match message.shipmentStatus with
  | .sent tx deliveries =>
    match markDelivery ackerUuid ackTime deliveries with
    | some marked => ({message with shipmentStatus := .sent tx marked},true)
    | none => (message,false)
  | .received _ _ => (message,false)

theorem markDelivery_parts (marked : markDelivery ackerUuid ackTime sent = some result) :
    ∃ early d late, sent = early ++ d :: late ∧ d.peerUuid = ackerUuid ∧
      result = early ++ {d with ackedAt := some ackTime} :: late := by
  induction sent generalizing result with
  | nil => cases marked
  | cons first rest ih =>
    rw [markDelivery] at marked
    split at marked
    · rename_i same
      cases Option.some.inj marked
      exact ⟨[],first,rest,rfl,same,rfl⟩
    · obtain ⟨later,inner,rfl⟩ := Option.map_eq_some_iff.mp marked
      obtain ⟨early,d,late,rfl,same,rfl⟩ := ih inner
      exact ⟨first :: early,d,late,rfl,same,rfl⟩

-- The message with its ACK times taken out: all that `mark_ack` cannot touch.
def Delivery.unacked (delivery : Delivery) : Delivery := {delivery with ackedAt := none}

def ChatMessage.unacked (message : ChatMessage) : ChatMessage :=
  match message.shipmentStatus with
  | .sent tx deliveries => {message with shipmentStatus := .sent tx (deliveries.map Delivery.unacked)}
  | .received _ _ => message

theorem markDelivery_unacked (marked : markDelivery ackerUuid ackTime deliveries = some result) :
    result.map Delivery.unacked = deliveries.map Delivery.unacked := by
  obtain ⟨early,d,late,rfl,_,rfl⟩ := markDelivery_parts marked
  simp [Delivery.unacked]

theorem markAck_unacked (message : ChatMessage) (ackerUuid : Utf8) (ackTime : DateTime) :
    (message.markAck ackerUuid ackTime).1.unacked = message.unacked := by
  unfold ChatMessage.markAck
  split
  · rename_i tx deliveries status
    split
    · rename_i marked found
      simp [ChatMessage.unacked,status,markDelivery_unacked found]
    · rfl
  · rfl

theorem unacked_uuid (message : ChatMessage) : message.unacked.uuid = message.uuid := by
  unfold ChatMessage.unacked; split <;> rfl

theorem unacked_txTime (message : ChatMessage) :
    message.unacked.shipmentStatus.txTime = message.shipmentStatus.txTime := by
  unfold ChatMessage.unacked
  split
  · rename_i tx deliveries status
    simp [status,MessageStatus.txTime]
  · rfl

end DTChat.PeerMessages
