import DTChat.AckMarks
import DTChat.Lib.StableSort

namespace DTChat.ViewOrder
open ClockTime Utf8Text PeerMessages SortedInsert ChatModels MessageOrder AckMarks

-- A call of `update_message_with_ack`, whose `_is_read` nothing depends on.
structure AckEvent where
  messageUuid : Utf8
  ackerUuid : Utf8
  ackTime : DateTime
  deriving DecidableEq

def AckEvent.delivery (event : AckEvent) : Utf8 × Utf8 := (event.messageUuid,event.ackerUuid)

def acks : List ModelOp → List AckEvent
  | [] => []
  | .updateMessageWithAck messageUuid ackerUuid _ ackTime :: later => ⟨messageUuid,ackerUuid,ackTime⟩ :: acks later
  | _ :: later => acks later

-- Each ACK comes after the add of its message; `seen` are the uuids added before.
def AcksFollow (seen : List Utf8) : List ModelOp → Prop
  | [] => True
  | .addMessage newMsg _ :: later => AcksFollow (seen ++ [newMsg.uuid]) later
  | .sortMessages _ :: later => AcksFollow seen later
  | .updateMessageWithAck messageUuid _ _ _ :: later => messageUuid ∈ seen ∧ AcksFollow seen later

def AckEvent.mark (message : ChatMessage) (event : AckEvent) : ChatMessage :=
  if message.uuid = event.messageUuid then (message.markAck event.ackerUuid event.ackTime).1 else message

def settled (events : List AckEvent) (message : ChatMessage) : ChatMessage := events.foldl AckEvent.mark message

def marked (ackerUuid : Utf8) (ackTime : DateTime) (sent : List Delivery) : List Delivery :=
  (markDelivery ackerUuid ackTime sent).getD sent

theorem marked_cons (ackerUuid : Utf8) (ackTime : DateTime) (first : Delivery) (rest : List Delivery) :
    marked ackerUuid ackTime (first :: rest) = if first.peerUuid = ackerUuid
      then {first with ackedAt := some ackTime} :: rest else first :: marked ackerUuid ackTime rest := by
  unfold marked
  rw [markDelivery]
  split
  · rfl
  · cases markDelivery ackerUuid ackTime rest <;> rfl

theorem marked_comm (apart : left ≠ right) (early late : DateTime) (sent : List Delivery) :
    marked right late (marked left early sent) = marked left early (marked right late sent) := by
  induction sent with
  | nil => rfl
  | cons first rest ih =>
    rw [marked_cons left,marked_cons right]
    by_cases one : first.peerUuid = left
    · have two : first.peerUuid ≠ right := fun same => apart (one.symm.trans same)
      rw [if_pos one,if_neg two,marked_cons,marked_cons,if_neg two,if_pos one]
    · by_cases two : first.peerUuid = right
      · rw [if_neg one,if_pos two,marked_cons,marked_cons,if_neg one,if_pos two]
      · rw [if_neg one,if_neg two,marked_cons,marked_cons,if_neg one,if_neg two,ih]

theorem markAck_marked (message : ChatMessage) (ackerUuid : Utf8) (ackTime : DateTime) :
    (message.markAck ackerUuid ackTime).1 = match message.shipmentStatus with
      | .sent tx sent => {message with shipmentStatus := .sent tx (marked ackerUuid ackTime sent)}
      | .received _ _ => message := by
  obtain ⟨uuid,response,sender,text,status⟩ := message
  cases status with
  | received tx rx => rfl
  | sent tx sent =>
    simp only [ChatMessage.markAck,marked]
    cases markDelivery ackerUuid ackTime sent <;> rfl

theorem markAck_comm (apart : left ≠ right) (message : ChatMessage) (early late : DateTime) :
    ((message.markAck left early).1.markAck right late).1 = ((message.markAck right late).1.markAck left early).1 := by
  simp only [markAck_marked]
  cases status : message.shipmentStatus with
  | received tx rx => simp only [status]
  | sent tx sent => simp only [marked_comm apart]

theorem mark_uuid (message : ChatMessage) (event : AckEvent) : (event.mark message).uuid = message.uuid := by
  unfold AckEvent.mark
  split
  · exact markAck_uuid _ _ _
  · rfl

theorem mark_comm {one two : AckEvent} (apart : one.delivery ≠ two.delivery) (message : ChatMessage) :
    two.mark (one.mark message) = one.mark (two.mark message) := by
  have first := mark_uuid message one
  have second := mark_uuid message two
  unfold AckEvent.mark at first second ⊢
  rw [first,second]
  by_cases here : message.uuid = one.messageUuid
  · by_cases there : message.uuid = two.messageUuid
    · have ackers : one.ackerUuid ≠ two.ackerUuid := by
        intro same
        exact apart (Prod.ext (here.symm.trans there) same)
      simp only [if_pos here,if_pos there]
      exact markAck_comm ackers _ _ _
    · simp only [if_neg there]
  · simp only [if_neg here]

theorem settled_uuid (events : List AckEvent) (message : ChatMessage) : (settled events message).uuid = message.uuid := by
  unfold settled
  induction events generalizing message with
  | nil => rfl
  | cons event later ih => rw [List.foldl_cons,ih,mark_uuid]

theorem settled_unacked (events : List AckEvent) (message : ChatMessage) :
    (settled events message).unacked = message.unacked := by
  unfold settled
  induction events generalizing message with
  | nil => rfl
  | cons event later ih =>
    rw [List.foldl_cons,ih]
    unfold AckEvent.mark
    split
    · exact markAck_unacked _ _ _
    · rfl

theorem settled_other {message : ChatMessage} (other : ∀ event ∈ events, message.uuid ≠ event.messageUuid) :
    settled events message = message := by
  unfold settled
  induction events with
  | nil => rfl
  | cons event later ih =>
    rw [List.foldl_cons,AckEvent.mark,if_neg (other event List.mem_cons_self)]
    exact ih fun event member => other event (List.mem_cons_of_mem _ member)

theorem settled_perm (same : events.Perm others) (once : (events.map AckEvent.delivery).Nodup) (message : ChatMessage) :
    settled events message = settled others message := by
  apply same.foldl_eq'
  intro one first two second m
  by_cases equal : one = two
  · rw [equal]
  · exact mark_comm (fun key => equal (List.inj_on_of_nodup_map once first second key)) m

theorem markFirst_map {messages : List ChatMessage} (distinct : (messages.map ChatMessage.uuid).Nodup) (event : AckEvent) :
    (markFirst event.messageUuid event.ackerUuid event.ackTime messages).1 = messages.map event.mark := by
  induction messages with
  | nil => rfl
  | cons message rest ih =>
    obtain ⟨fresh,distinct⟩ := List.nodup_cons.mp distinct
    rw [markFirst,List.map_cons,AckEvent.mark]
    split
    · rename_i here
      have others : rest.map event.mark = rest := by
        refine (List.map_congr_left fun m member => ?_).trans (List.map_id rest)
        refine if_neg fun same => fresh ?_
        rw [here,← same]
        exact List.mem_map_of_mem member
      rw [others]
    · exact congrArg (message :: ·) (ih distinct)

structure Seen (model : ChatModel) (known : List ChatMessage) (events : List AckEvent) : Prop where
  inOrder : InOrder model
  messages : model.messages.Perm (known.map (settled events))
  distinct : (known.map ChatMessage.uuid).Nodup
  concerned : ∀ event ∈ events, event.messageUuid ∈ known.map ChatMessage.uuid

theorem Seen.uuids (seen : Seen model known events) : (model.messages.map ChatMessage.uuid).Nodup := by
  have same := seen.messages.map ChatMessage.uuid
  rw [List.map_map,show ChatMessage.uuid ∘ settled events = ChatMessage.uuid from funext (settled_uuid events)] at same
  exact same.nodup_iff.mpr seen.distinct

theorem addMessage_seen (binary : BinarySearch ChatMessage) (seen : Seen model known events) (newMsg : ChatMessage)
    (direction : MessageDirection) (fresh : newMsg.uuid ∉ known.map ChatMessage.uuid) :
    Seen (model.addMessage binary newMsg direction) (known ++ [newMsg]) events := by
  have unmarked : settled events newMsg = newMsg := by
    apply settled_other
    intro event member same
    exact fresh (same ▸ seen.concerned event member)
  refine ⟨addMessage_inOrder binary seen.inOrder newMsg direction,?_,?_,?_⟩
  · obtain ⟨inside,_⟩ := binary.index_splits (Sorted.ordered seen.inOrder newMsg)
    rw [addMessage_messages,List.map_append,List.map_singleton,unmarked]
    have placed := (List.perm_insertIdx newMsg model.messages inside).trans (List.perm_append_singleton _ _).symm
    exact placed.trans (seen.messages.append_right _)
  · rw [List.map_append,List.map_singleton]
    exact List.nodup_append_comm.mp (List.nodup_cons.mpr ⟨fresh,seen.distinct⟩)
  · intro event member
    rw [List.map_append]
    exact List.mem_append_left _ (seen.concerned event member)

theorem sortMessages_seen (seen : Seen model known events) (strat : SortStrategy) :
    Seen (model.sortMessages strat) known events := by
  refine ⟨sortMessages_inOrder model strat,?_,seen.distinct,seen.concerned⟩
  rw [sortMessages_messages]
  exact (sortBy_perm _ _).trans seen.messages

theorem updateMessageWithAck_seen (seen : Seen model known events) (event : AckEvent) (isRead : Bool)
    (concerned : event.messageUuid ∈ known.map ChatMessage.uuid) :
    Seen (model.updateMessageWithAck event.messageUuid event.ackerUuid isRead event.ackTime).1 known (events ++ [event]) := by
  refine ⟨updateMessageWithAck_inOrder seen.inOrder _ _ _ _,?_,seen.distinct,?_⟩
  · have after : settled (events ++ [event]) = event.mark ∘ settled events := by
      funext message
      exact List.foldl_append
    rw [after,← List.map_map]
    change (markFirst event.messageUuid event.ackerUuid event.ackTime model.messages).1.Perm _
    rw [markFirst_map seen.uuids]
    exact seen.messages.map _
  · intro other member
    rcases List.mem_append.mp member with earlier | last
    · exact seen.concerned other earlier
    · rw [List.mem_singleton.mp last]
      exact concerned

theorem runOps_seen (binary : BinarySearch ChatMessage) (seen : Seen model known events) {ops : List ModelOp}
    (distinct : ((known ++ added ops).map ChatMessage.uuid).Nodup) (follow : AcksFollow (known.map ChatMessage.uuid) ops) :
    Seen (runOps binary model ops) (known ++ added ops) (events ++ acks ops) := by
  induction ops generalizing model known events with
  | nil =>
    rw [added,acks,List.append_nil,List.append_nil]
    exact seen
  | cons op later ih =>
    cases op with
    | addMessage newMsg direction =>
      rw [added,List.append_cons] at distinct ⊢
      have fresh : newMsg.uuid ∉ known.map ChatMessage.uuid := by
        rw [List.map_append,List.map_append] at distinct
        have apart := List.disjoint_of_nodup_append distinct.of_append_left
        exact fun member => apart member List.mem_cons_self
      apply ih (addMessage_seen binary seen newMsg direction fresh) distinct
      rw [List.map_append]
      exact follow
    | sortMessages strat => exact ih (sortMessages_seen seen strat) distinct follow
    | updateMessageWithAck messageUuid ackerUuid isRead ackTime =>
      obtain ⟨concerned,follow⟩ := follow
      have next := ih (updateMessageWithAck_seen seen ⟨messageUuid,ackerUuid,ackTime⟩ isRead concerned) distinct follow
      rwa [List.append_assoc,List.singleton_append] at next

theorem new_seen (peers : List Peer) (localpeer : Peer) : Seen (ChatModel.new peers localpeer) [] [] := by
  refine ⟨List.Pairwise.nil,List.Perm.refl _,List.Pairwise.nil,?_⟩
  intro event member
  cases member

theorem view_order_independent (binary : BinarySearch ChatMessage) (peers : List Peer) (localpeer : Peer)
    (strategy : SortStrategy) {ops others : List ModelOp} (sameAdds : (added ops).Perm (added others))
    (sameAcks : (acks ops).Perm (acks others)) (distinct : ((added ops).map ChatMessage.uuid).Nodup)
    (once : ((acks ops).map AckEvent.delivery).Nodup)
    (apart : (added ops).Pairwise fun a b => strategy.cmp a b ≠ .eq)
    (opsFollow : AcksFollow [] ops) (othersFollow : AcksFollow [] others)
    (opsForce : (runOps binary (ChatModel.new peers localpeer) ops).sortStrategy = strategy)
    (othersForce : (runOps binary (ChatModel.new peers localpeer) others).sortStrategy = strategy) :
    (runOps binary (ChatModel.new peers localpeer) ops).messages =
      (runOps binary (ChatModel.new peers localpeer) others).messages := by
  have left := runOps_seen binary (new_seen peers localpeer) distinct opsFollow
  have right := runOps_seen binary (new_seen peers localpeer) (((sameAdds.map _).nodup_iff).mp distinct) othersFollow
  rw [List.nil_append,List.nil_append] at left right
  have sorted := left.inOrder
  have sortedToo := right.inOrder
  rw [InOrder,opsForce] at sorted
  rw [InOrder,othersForce] at sortedToo
  have same : ((added ops).map (settled (acks ops))).Perm ((added others).map (settled (acks others))) := by
    rw [show settled (acks others) = settled (acks ops) from funext fun m => (settled_perm sameAcks once m).symm]
    exact sameAdds.map _
  refine Sorted.unique sorted sortedToo (left.messages.trans (same.trans right.messages.symm)) ?_
  intro a first b second key
  obtain ⟨m,oneAdded,rfl⟩ := List.mem_map.mp (left.messages.subset first)
  obtain ⟨n,twoAdded,rfl⟩ := List.mem_map.mp (left.messages.subset second)
  rw [← cmp_unacked,settled_unacked,settled_unacked,cmp_unacked] at key
  by_cases equal : m = n
  · rw [equal]
  · have symmetric : Std.Symm fun a b => strategy.cmp a b ≠ .eq :=
      ⟨fun _ _ unequal same => unequal (Std.OrientedCmp.eq_symm same)⟩
    exact absurd key (apart.forall oneAdded twoAdded equal)

theorem tick_secs (n : Nat) : minSecs ≤ (n % 60 : Nat) ∧ ((n % 60 : Nat) : Int) ≤ maxSecs := by
  simp only [minSecs,maxSecs]
  omega

theorem tick_nanos (n : Nat) : n % 60 < 2000000000 := by omega

def tick (n : Nat) : DateTime := ⟨(n % 60 : Nat),n % 60,tick_secs n,tick_nanos n⟩

def ours : ChatMessage := ⟨ascii "ours",none,⟨ascii "10",ascii "earth",[],2⟩,ascii "hi",
  .sent (tick 20) [⟨ascii "20",ascii "moon",none,none⟩,⟨ascii "30",ascii "mars",none,none⟩]⟩

def theirs : ChatMessage := ⟨ascii "theirs",none,⟨ascii "20",ascii "moon",[],1⟩,ascii "hello",.received (tick 10) (tick 30)⟩

def early : List ModelOp := [.addMessage ours .sent,.addMessage theirs .received,
  .updateMessageWithAck (ascii "ours") (ascii "20") false (tick 40),
  .updateMessageWithAck (ascii "ours") (ascii "30") false (tick 50)]

def late : List ModelOp := [.sortMessages (.relative theirs.sender),.addMessage ours .sent,
  .updateMessageWithAck (ascii "ours") (ascii "30") false (tick 50),.addMessage theirs .received,
  .updateMessageWithAck (ascii "ours") (ascii "20") false (tick 40),.sortMessages .standard]

theorem view_order_independent_late :
    (runOps stdSearch (ChatModel.new [] ours.sender) early).messages =
      (runOps stdSearch (ChatModel.new [] ours.sender) late).messages := by
  refine view_order_independent stdSearch [] ours.sender .standard (List.Perm.refl [ours,theirs]) (List.Perm.swap _ _ [])
    (by decide +kernel) (by decide +kernel) (by decide +kernel) ?_ ?_ rfl rfl
  · exact ⟨by decide +kernel,by decide +kernel,trivial⟩
  · exact ⟨by decide +kernel,by decide +kernel,trivial⟩

end DTChat.ViewOrder
