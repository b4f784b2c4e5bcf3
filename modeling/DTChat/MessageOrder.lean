import DTChat.ChatModel

namespace DTChat.MessageOrder
open ClockTime Utf8Text PeerMessages SortedInsert ChatModels

inductive ModelOp where
  | addMessage (newMsg : ChatMessage) (direction : MessageDirection)
  | sortMessages (strat : SortStrategy)
  | updateMessageWithAck (messageUuid ackerUuid : Utf8) (isRead : Bool) (ackTime : DateTime)

def ModelOp.apply (binary : BinarySearch ChatMessage) (model : ChatModel) : ModelOp → ChatModel
  | .addMessage newMsg direction => model.addMessage binary newMsg direction
  | .sortMessages strat => model.sortMessages strat
  | .updateMessageWithAck messageUuid ackerUuid isRead ackTime =>
    (model.updateMessageWithAck messageUuid ackerUuid isRead ackTime).1

-- main.rs: the seeded messages are sorted before anything is inserted.
def seeded (peers : List Peer) (localpeer : Peer) (demo : List ChatMessage) : ChatModel :=
  ChatModel.sortMessages {ChatModel.new peers localpeer with messages := demo} .standard

def runOps (binary : BinarySearch ChatMessage) (model : ChatModel) (ops : List ModelOp) : ChatModel :=
  ops.foldl (ModelOp.apply binary) model

def added : List ModelOp → List ChatMessage
  | [] => []
  | .addMessage newMsg _ :: later => newMsg :: added later
  | _ :: later => added later

def InOrder (model : ChatModel) : Prop := Sorted model.sortStrategy.cmp model.messages

theorem addMessage_strategy (binary : BinarySearch ChatMessage) (model : ChatModel) (newMsg : ChatMessage)
    (direction : MessageDirection) : (model.addMessage binary newMsg direction).sortStrategy = model.sortStrategy := rfl

theorem sortMessages_strategy (model : ChatModel) (strat : SortStrategy) :
    (model.sortMessages strat).sortStrategy = strat := rfl

theorem addMessage_inOrder (binary : BinarySearch ChatMessage) {model : ChatModel} (ordered : InOrder model)
    (newMsg : ChatMessage) (direction : MessageDirection) : InOrder (model.addMessage binary newMsg direction) := by
  rw [InOrder,addMessage_strategy,addMessage_messages]
  exact Sorted.insertIdx binary ordered newMsg

theorem sortMessages_inOrder (model : ChatModel) (strat : SortStrategy) : InOrder (model.sortMessages strat) := by
  rw [InOrder,sortMessages_strategy,sortMessages_messages]
  exact sortBy_sorted _

theorem updateMessageWithAck_inOrder {model : ChatModel} (ordered : InOrder model) (messageUuid ackerUuid : Utf8)
    (isRead : Bool) (ackTime : DateTime) :
    InOrder (model.updateMessageWithAck messageUuid ackerUuid isRead ackTime).1 := by
  apply (sorted_unacked _ _).mp
  simp only [ChatModel.updateMessageWithAck,markFirst_unacked]
  exact (sorted_unacked _ _).mpr ordered

theorem apply_inOrder (binary : BinarySearch ChatMessage) {model : ChatModel} (ordered : InOrder model) (op : ModelOp) :
    InOrder (op.apply binary model) := by
  cases op with
  | addMessage newMsg direction => exact addMessage_inOrder binary ordered newMsg direction
  | sortMessages strat => exact sortMessages_inOrder model strat
  | updateMessageWithAck messageUuid ackerUuid isRead ackTime =>
    exact updateMessageWithAck_inOrder ordered messageUuid ackerUuid isRead ackTime

theorem apply_messages (binary : BinarySearch ChatMessage) {model : ChatModel} (ordered : InOrder model) (op : ModelOp) :
    ((op.apply binary model).messages.map ChatMessage.unacked).Perm
      ((model.messages ++ added [op]).map ChatMessage.unacked) := by
  cases op with
  | addMessage newMsg direction =>
    obtain ⟨inside,_⟩ := binary.index_splits (Sorted.ordered ordered newMsg)
    simp only [ModelOp.apply,addMessage_messages,added]
    apply List.Perm.map
    exact (List.perm_insertIdx newMsg model.messages inside).trans (List.perm_append_singleton _ _).symm
  | sortMessages strat =>
    simp only [ModelOp.apply,sortMessages_messages,added,List.append_nil]
    exact (sortBy_perm _ _).map _
  | updateMessageWithAck messageUuid ackerUuid isRead ackTime =>
    simp only [ModelOp.apply,ChatModel.updateMessageWithAck,markFirst_unacked,added,List.append_nil]
    exact List.Perm.refl _

theorem added_append (before after : List ModelOp) : added (before ++ after) = added before ++ added after := by
  induction before with
  | nil => rfl
  | cons op later ih => cases op <;> simp [added,ih]

theorem runOps_inOrder (binary : BinarySearch ChatMessage) {model : ChatModel} (ordered : InOrder model)
    (ops : List ModelOp) : InOrder (runOps binary model ops) := by
  induction ops generalizing model with
  | nil => exact ordered
  | cons op later ih => exact ih (apply_inOrder binary ordered op)

theorem runOps_messages (binary : BinarySearch ChatMessage) {model : ChatModel} (ordered : InOrder model)
    (ops : List ModelOp) : ((runOps binary model ops).messages.map ChatMessage.unacked).Perm
      ((model.messages ++ added ops).map ChatMessage.unacked) := by
  induction ops generalizing model with
  | nil => simp [runOps,added]
  | cons op later ih =>
    have split := added_append [op] later
    have here := apply_messages binary ordered op
    have rest := ih (apply_inOrder binary ordered op)
    rw [List.singleton_append] at split
    rw [split,← List.append_assoc,List.map_append]
    rw [List.map_append] at rest
    exact rest.trans (here.append_right _)

theorem message_list_invariant (binary : BinarySearch ChatMessage) (peers : List Peer) (localpeer : Peer)
    (demo : List ChatMessage) (ops : List ModelOp) :
    InOrder (runOps binary (seeded peers localpeer demo) ops) ∧
    (∀ newMsg, Ordered (fun msg => (runOps binary (seeded peers localpeer demo) ops).sortStrategy.cmp msg newMsg)
      (runOps binary (seeded peers localpeer demo) ops).messages) ∧
    ((runOps binary (seeded peers localpeer demo) ops).messages.map ChatMessage.unacked).Perm
      ((demo ++ added ops).map ChatMessage.unacked) := by
  have start : InOrder (seeded peers localpeer demo) := sortMessages_inOrder _ _
  have ordered := runOps_inOrder binary start ops
  refine ⟨ordered,fun newMsg => Sorted.ordered ordered newMsg,?_⟩
  have kept := runOps_messages binary start ops
  rw [List.map_append] at kept ⊢
  refine kept.trans (List.Perm.append_right _ (List.Perm.map _ ?_))
  exact sortBy_perm _ _

end DTChat.MessageOrder
