import DTChat.PeerMessages
import DTChat.Lib.SortedInsert

namespace DTChat.ChatModels
open ClockTime Utf8Text PeerMessages SortedInsert

-- app.rs
inductive SortStrategy where
  | standard
  | relative (peer : Peer)
  deriving DecidableEq

def arrivalTime : MessageStatus → DateTime
  | .sent tx _ => tx
  | .received _ rx => rx

def standardCmp (a b : ChatMessage) : Ordering :=
  (DateTime.cmp (arrivalTime a.shipmentStatus) (arrivalTime b.shipmentStatus)).then
    (DateTime.cmp a.shipmentStatus.txTime b.shipmentStatus.txTime)

def anchor (ctxPeerUuid : Utf8) (m : ChatMessage) : DateTime :=
  match m.shipmentStatus with
  | .sent tx _ => tx
  | .received tx rx => if m.sender.uuid = ctxPeerUuid then tx else rx

def relativeCmp (a b : ChatMessage) (ctxPeerUuid : Utf8) : Ordering :=
  DateTime.cmp (anchor ctxPeerUuid a) (anchor ctxPeerUuid b)

def SortStrategy.cmp : SortStrategy → ChatMessage → ChatMessage → Ordering
  | .standard,a,b => standardCmp a b
  | .relative peer,a,b => relativeCmp a b peer.uuid

inductive AppEvent where
  | error (text : Utf8)
  | sent (text : Utf8)
  | received (text : Utf8)
  deriving DecidableEq

-- `notified` is what `notify_observers` has told the model's observers, in order.
structure ChatModel where
  sortStrategy : SortStrategy
  localpeer : Peer
  peers : List Peer
  messages : List ChatMessage
  notified : List AppEvent
  deriving DecidableEq

inductive MessageDirection where
  | sent
  | received
  deriving DecidableEq

def ChatModel.new (peers : List Peer) (localpeer : Peer) : ChatModel := ⟨.standard,localpeer,peers,[],[]⟩

def ChatModel.notifyObservers (model : ChatModel) (event : AppEvent) : ChatModel :=
  {model with notified := model.notified ++ [event]}

def ChatModel.addMessage (binary : BinarySearch ChatMessage) (model : ChatModel) (newMsg : ChatMessage)
    (direction : MessageDirection) : ChatModel :=
  let idx := match model.sortStrategy with
    | .standard => binary.index model.messages fun msg => standardCmp msg newMsg
    | .relative peer => binary.index model.messages fun msg => relativeCmp msg newMsg peer.uuid
  let inserted : ChatModel := {model with messages := model.messages.insertIdx idx newMsg}
  inserted.notifyObservers <| match direction with
    | .sent => .sent (ascii "Message sent.")
    | .received => .received ((ascii "New message from ").append newMsg.sender.name)

def ChatModel.sortMessages (model : ChatModel) (strat : SortStrategy) : ChatModel :=
  {model with
    sortStrategy := strat
    messages := match strat with
      | .standard => sortBy standardCmp model.messages
      | .relative forPeer => sortBy (fun a b => relativeCmp a b forPeer.uuid) model.messages}

def markFirst (messageUuid ackerUuid : Utf8) (ackTime : DateTime) : List ChatMessage → List ChatMessage × Bool
  | [] => ([],false)
  | message :: rest =>
    if message.uuid = messageUuid then
      let marked := message.markAck ackerUuid ackTime
      (marked.1 :: rest,marked.2)
    else
      let later := markFirst messageUuid ackerUuid ackTime rest
      (message :: later.1,later.2)

def ChatModel.updateMessageWithAck (model : ChatModel) (messageUuid ackerUuid : Utf8) (_isRead : Bool)
    (ackTime : DateTime) : ChatModel × Bool :=
  let updated := markFirst messageUuid ackerUuid ackTime model.messages
  ({model with messages := updated.1},updated.2)

def ChatModel.onSocketEvent (binary : BinarySearch ChatMessage) (model : ChatModel) (message : ChatMessage) : ChatModel :=
  model.addMessage binary message .received

def ChatModel.onAckReceived (model : ChatModel) (messageUuid ackerUuid : Utf8) (isRead : Bool) (ackTime : DateTime) :
    ChatModel :=
  let updated := model.updateMessageWithAck messageUuid ackerUuid isRead ackTime
  if updated.2 then updated.1.notifyObservers (.sent (ascii "Message status updated")) else updated.1

theorem then_trans {first second : α → α → Ordering} [one : Std.TransCmp first] [two : Std.TransCmp second] :
    Std.TransCmp fun a b => (first a b).then (second a b) := inferInstanceAs (Std.TransCmp (compareLex first second))

theorem key_trans (key : α → DateTime) : Std.TransCmp fun a b => DateTime.cmp (key a) (key b) where
  eq_swap := Std.OrientedCmp.eq_swap
  isLE_trans := Std.TransCmp.isLE_trans

instance SortStrategy.trans (strategy : SortStrategy) : Std.TransCmp strategy.cmp := by
  cases strategy with
  | standard =>
    have arrival := key_trans fun m : ChatMessage => arrivalTime m.shipmentStatus
    have sent := key_trans fun m : ChatMessage => m.shipmentStatus.txTime
    exact then_trans
  | relative peer => exact key_trans (anchor peer.uuid)

theorem addMessage_messages (binary : BinarySearch ChatMessage) (model : ChatModel) (newMsg : ChatMessage)
    (direction : MessageDirection) : (model.addMessage binary newMsg direction).messages = model.messages.insertIdx
      (binary.index model.messages fun msg => model.sortStrategy.cmp msg newMsg) newMsg := by
  obtain ⟨strategy,localpeer,peers,messages,notified⟩ := model
  cases strategy <;> rfl

theorem sortMessages_messages (model : ChatModel) (strat : SortStrategy) :
    (model.sortMessages strat).messages = sortBy strat.cmp model.messages := by cases strat <;> rfl

theorem cmp_unacked (strategy : SortStrategy) (a b : ChatMessage) :
    strategy.cmp a.unacked b.unacked = strategy.cmp a b := by
  have arrival : ∀ m : ChatMessage, arrivalTime m.unacked.shipmentStatus = arrivalTime m.shipmentStatus := by
    intro m
    unfold ChatMessage.unacked
    split
    · rename_i tx deliveries status
      rw [status]
      rfl
    · rfl
  have anchored : ∀ uuid (m : ChatMessage), anchor uuid m.unacked = anchor uuid m := by
    intro uuid m
    unfold ChatMessage.unacked
    split
    · rename_i tx deliveries status
      simp only [anchor,status]
    · rfl
  cases strategy with
  | standard => simp only [SortStrategy.cmp,standardCmp,arrival,unacked_txTime]
  | relative peer => simp only [SortStrategy.cmp,relativeCmp,anchored]

theorem sorted_unacked (strategy : SortStrategy) (messages : List ChatMessage) :
    Sorted strategy.cmp (messages.map ChatMessage.unacked) ↔ Sorted strategy.cmp messages := by
  rw [Sorted,List.pairwise_map]
  simp only [cmp_unacked]
  rfl

theorem markFirst_unacked (messageUuid ackerUuid : Utf8) (ackTime : DateTime) (messages : List ChatMessage) :
    (markFirst messageUuid ackerUuid ackTime messages).1.map ChatMessage.unacked = messages.map ChatMessage.unacked := by
  induction messages with
  | nil => rfl
  | cons message rest ih =>
    rw [markFirst]
    split
    · simp only [List.map_cons,markAck_unacked]
    · simp only [List.map_cons,ih]

end DTChat.ChatModels
