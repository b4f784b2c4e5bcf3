import DTChat.AckMarks
import DTChat.MessagePrompt

namespace DTChat.NodeLetters
open ClockTime Utf8Text PeerMessages SortedInsert ChatModels MessageOrder AckMarks SocketControllers MessagePrompts

-- The messages of a model up to ACK times and order: what no ACK and no sorting changes.
def letters (model : ChatModel) : Multiset ChatMessage := (model.messages.map ChatMessage.unacked : Multiset ChatMessage)

theorem mem_letters : m ∈ letters model ↔ ∃ message ∈ model.messages, message.unacked = m := by simp [letters]

theorem letters_addMessage (binary : BinarySearch ChatMessage) {model : ChatModel} (ordered : InOrder model)
    (newMsg : ChatMessage) (direction : MessageDirection) :
    letters (model.addMessage binary newMsg direction) = newMsg.unacked ::ₘ letters model := by
  have kept := apply_messages binary ordered (.addMessage newMsg direction)
  simp only [added,List.map_append,List.map_cons,List.map_nil] at kept
  exact Multiset.coe_eq_coe.mpr (kept.trans (List.perm_append_singleton _ _))

theorem letters_sortMessages (model : ChatModel) (strat : SortStrategy) :
    letters (model.sortMessages strat) = letters model := by
  apply Multiset.coe_eq_coe.mpr
  rw [sortMessages_messages]
  exact (sortBy_perm _ _).map _

theorem letters_update (model : ChatModel) (messageUuid ackerUuid : Utf8) (isRead : Bool) (ackTime : DateTime) :
    letters (model.updateMessageWithAck messageUuid ackerUuid isRead ackTime).1 = letters model := by
  unfold letters
  simp only [ChatModel.updateMessageWithAck,markFirst_unacked]

theorem deliveries_unacked (message : ChatMessage) :
    deliveries message.unacked = (deliveries message).map Delivery.unacked := by
  unfold deliveries ChatMessage.unacked
  cases status : message.shipmentStatus with
  | sent tx deliveries => rfl
  | received tx rx => simp [status,MessageStatus.deliveries]

def peerUuids (message : ChatMessage) : List Utf8 := (deliveries message).map Delivery.peerUuid

theorem peerUuids_unacked (message : ChatMessage) : peerUuids message.unacked = peerUuids message := by
  rw [peerUuids,deliveries_unacked,List.map_map]
  rfl

theorem addressed_unacked_ne (member : d ∈ deliveries message) : peerUuids message.unacked ≠ [] := by
  rw [peerUuids_unacked]
  exact List.ne_nil_of_mem (List.mem_map_of_mem member)

theorem unacked_text (message : ChatMessage) : message.unacked.text = message.text := by
  unfold ChatMessage.unacked; split <;> rfl

theorem unacked_received {message : ChatMessage} (received : message.shipmentStatus = .received tx rx) :
    message.unacked = message := by
  unfold ChatMessage.unacked
  split
  · rename_i status
    rw [received] at status
    cases status
  · rfl

-- What one event makes of a node: nothing but its messages changes, and up to
-- ACK times and order they only gain what was added.
structure Follows (a b : Node) (added : Multiset ChatMessage) : Prop where
  controller : b.controller = a.controller
  localpeer : b.model.localpeer = a.model.localpeer
  peers : b.model.peers = a.model.peers
  inOrder : InOrder a.model → InOrder b.model
  letters : InOrder a.model → letters b.model = added + letters a.model

theorem follows_refl (node : Node) : Follows node node 0 := ⟨rfl,rfl,rfl,id,fun _ => (zero_add _).symm⟩

theorem follows_sortMessages (node : Node) (strat : SortStrategy) :
    Follows node {node with model := node.model.sortMessages strat} 0 where
  controller := rfl
  localpeer := rfl
  peers := rfl
  inOrder _ := sortMessages_inOrder _ _
  letters _ := by rw [zero_add]; exact letters_sortMessages _ _

theorem follows_addMessage (binary : BinarySearch ChatMessage) (node : Node) (newMsg : ChatMessage)
    (direction : MessageDirection) (notified : List AppEvent) :
    Follows node {node with model := {node.model.addMessage binary newMsg direction with notified := notified}}
      {newMsg.unacked} where
  controller := rfl
  localpeer := rfl
  peers := rfl
  inOrder ordered := addMessage_inOrder binary ordered newMsg direction
  letters ordered := letters_addMessage binary ordered newMsg direction

theorem onAckReceived_notified (model : ChatModel) (messageUuid ackerUuid : Utf8) (isRead : Bool) (ackTime : DateTime) :
    ∃ notified, model.onAckReceived messageUuid ackerUuid isRead ackTime =
      {(model.updateMessageWithAck messageUuid ackerUuid isRead ackTime).1 with notified := notified} := by
  unfold ChatModel.onAckReceived
  simp only
  split
  · exact ⟨_,rfl⟩
  · exact ⟨_,rfl⟩

theorem follows_onAckReceived (node : Node) (messageUuid ackerUuid : Utf8) (isRead : Bool) (ackTime : DateTime) :
    Follows node {node with model := node.model.onAckReceived messageUuid ackerUuid isRead ackTime} 0 := by
  obtain ⟨notified,same⟩ := onAckReceived_notified node.model messageUuid ackerUuid isRead ackTime
  rw [same]
  refine ⟨rfl,rfl,rfl,?_,?_⟩
  · exact fun ordered => updateMessageWithAck_inOrder ordered messageUuid ackerUuid isRead ackTime
  · intro _
    rw [zero_add]
    exact letters_update node.model messageUuid ackerUuid isRead ackTime

theorem mem_addMessage (binary : BinarySearch ChatMessage) {model : ChatModel} (ordered : InOrder model)
    (newMsg : ChatMessage) (direction : MessageDirection) :
    m ∈ (model.addMessage binary newMsg direction).messages ↔ m = newMsg ∨ m ∈ model.messages := by
  rw [addMessage_messages]
  exact List.mem_insertIdx (binary.index_splits (Sorted.ordered ordered newMsg)).1

theorem addressed_unacked (predict : Peer → Option DateTime) (model : ChatModel) (msg : ChatMessage) :
    (addressed predict model msg).unacked = addressed predict model msg := by
  simp [addressed,ChatMessage.unacked,Delivery.unacked,delivery]

theorem addressed_peerUuids (predict : Peer → Option DateTime) (model : ChatModel) (msg : ChatMessage) :
    peerUuids (addressed predict model msg) = (recipients model).map Peer.uuid := by
  simp [peerUuids,deliveries,addressed,MessageStatus.deliveries,delivery]

theorem manageSend_model (platform : Platform) (predict : Peer → Option DateTime) (model : ChatModel) (msg : ChatMessage) :
    ∃ notified, (manageSend platform predict model msg).1 =
      {model.addMessage platform.binary (addressed predict model msg) .sent with notified := notified} :=
  sendToPeers_model _ _ _ _

end DTChat.NodeLetters
