import DTChat.ViewOrder

namespace DTChat.AckExact
open ClockTime Utf8Text PeerMessages SortedInsert ChatModels MessageOrder AckMarks ViewOrder

-- A sent message with a delivery to the acker; a received one has no deliveries.
def Awaits (ackerUuid : Utf8) (message : ChatMessage) : Prop := ∃ d ∈ deliveries message, d.peerUuid = ackerUuid

instance (ackerUuid : Utf8) (message : ChatMessage) : Decidable (Awaits ackerUuid message) :=
  inferInstanceAs (Decidable (∃ d ∈ deliveries message, d.peerUuid = ackerUuid))

def OneMark (ackerUuid : Utf8) (ackTime : DateTime) (before after : ChatMessage) : Prop :=
  ∃ tx early d late, before.shipmentStatus = .sent tx (early ++ d :: late) ∧ d.peerUuid = ackerUuid ∧
    after = {before with shipmentStatus := .sent tx (early ++ {d with ackedAt := some ackTime} :: late)}

structure Exact (model : ChatModel) (messageUuid ackerUuid : Utf8) (isRead : Bool) (ackTime : DateTime) : Prop where
  returns : (model.updateMessageWithAck messageUuid ackerUuid isRead ackTime).2 = true ↔
    ∃ m ∈ model.messages, m.uuid = messageUuid ∧ Awaits ackerUuid m
  marks : (model.updateMessageWithAck messageUuid ackerUuid isRead ackTime).2 = true →
    ∃ before m after marked, model.messages = before ++ m :: after ∧ m.uuid = messageUuid ∧
      OneMark ackerUuid ackTime m marked ∧
      (model.updateMessageWithAck messageUuid ackerUuid isRead ackTime).1 = {model with messages := before ++ marked :: after}
  unchanged : (model.updateMessageWithAck messageUuid ackerUuid isRead ackTime).2 = false →
    (model.updateMessageWithAck messageUuid ackerUuid isRead ackTime).1 = model
  again : ((model.updateMessageWithAck messageUuid ackerUuid isRead ackTime).1.updateMessageWithAck
    messageUuid ackerUuid isRead ackTime).1 = (model.updateMessageWithAck messageUuid ackerUuid isRead ackTime).1

-- The first message with the uuid awaits the acker, if any message with the uuid does.
def Unshadowed (messageUuid ackerUuid : Utf8) (messages : List ChatMessage) : Prop :=
  ∀ first ∈ (withUuid messageUuid messages).head?, (∃ m ∈ withUuid messageUuid messages, Awaits ackerUuid m) →
    Awaits ackerUuid first

theorem marked_again (ackerUuid : Utf8) (ackTime : DateTime) (sent : List Delivery) :
    marked ackerUuid ackTime (marked ackerUuid ackTime sent) = marked ackerUuid ackTime sent := by
  induction sent with
  | nil => rfl
  | cons first rest ih =>
    rw [marked_cons]
    split
    · rename_i same
      rw [marked_cons,if_pos same]
    · rename_i other
      rw [marked_cons,if_neg other,ih]

theorem markAck_parts (message : ChatMessage) (ackerUuid : Utf8) (ackTime : DateTime) :
    ((message.markAck ackerUuid ackTime).2 = true ∧ Awaits ackerUuid message ∧
      OneMark ackerUuid ackTime message (message.markAck ackerUuid ackTime).1) ∨
    ((message.markAck ackerUuid ackTime).2 = false ∧ ¬Awaits ackerUuid message ∧
      (message.markAck ackerUuid ackTime).1 = message) := by
  unfold ChatMessage.markAck Awaits deliveries
  cases status : message.shipmentStatus with
  | received tx rx =>
    refine .inr ⟨rfl,?_,rfl⟩
    intro awaits
    obtain ⟨d,member,_⟩ := awaits
    cases member
  | sent tx sent =>
    simp only [MessageStatus.deliveries]
    cases found : markDelivery ackerUuid ackTime sent with
    | none =>
      refine .inr ⟨rfl,?_,rfl⟩
      intro awaits
      obtain ⟨d,member,same⟩ := awaits
      exact markDelivery_none found d member same
    | some result =>
      obtain ⟨early,d,late,rfl,same,rfl⟩ := markDelivery_parts found
      exact .inl ⟨rfl,⟨d,by simp,same⟩,⟨tx,early,d,late,status,same,rfl⟩⟩

theorem markAck_again (message : ChatMessage) (ackerUuid : Utf8) (ackTime : DateTime) :
    ((message.markAck ackerUuid ackTime).1.markAck ackerUuid ackTime).1 = (message.markAck ackerUuid ackTime).1 := by
  simp only [markAck_marked]
  cases status : message.shipmentStatus with
  | received tx rx => simp only [status]
  | sent tx sent => simp only [marked_again]

theorem markFirst_at (earlier : ∀ b ∈ before, b.uuid ≠ messageUuid) (same : m.uuid = messageUuid) (ackerUuid : Utf8)
    (ackTime : DateTime) (after : List ChatMessage) : markFirst messageUuid ackerUuid ackTime (before ++ m :: after) =
      (before ++ (m.markAck ackerUuid ackTime).1 :: after,(m.markAck ackerUuid ackTime).2) := by
  induction before with
  | nil => rw [List.nil_append,markFirst,if_pos same]; rfl
  | cons b rest ih =>
    rw [List.cons_append,markFirst,if_neg (earlier b List.mem_cons_self),
      ih fun c member => earlier c (List.mem_cons_of_mem _ member)]
    rfl

theorem markFirst_parts (messageUuid ackerUuid : Utf8) (ackTime : DateTime) (messages : List ChatMessage) :
    (withUuid messageUuid messages = [] ∧ markFirst messageUuid ackerUuid ackTime messages = (messages,false)) ∨
    ∃ before m after, messages = before ++ m :: after ∧ m.uuid = messageUuid ∧ (∀ b ∈ before, b.uuid ≠ messageUuid) ∧
      markFirst messageUuid ackerUuid ackTime messages =
        (before ++ (m.markAck ackerUuid ackTime).1 :: after,(m.markAck ackerUuid ackTime).2) := by
  induction messages with
  | nil => exact .inl ⟨rfl,rfl⟩
  | cons message rest ih =>
    by_cases same : message.uuid = messageUuid
    · have earlier : ∀ b ∈ ([] : List ChatMessage), b.uuid ≠ messageUuid := by
        intro b member
        cases member
      exact .inr ⟨[],message,rest,rfl,same,earlier,markFirst_at earlier same ackerUuid ackTime rest⟩
    · rcases ih with absent | present
      · obtain ⟨none,result⟩ := absent
        refine .inl ⟨?_,?_⟩
        · rw [withUuid,List.filter_cons_of_neg (by simpa using same)]
          exact none
        · rw [markFirst,if_neg same,result]
      · obtain ⟨before,m,after,rfl,here,earlier,_⟩ := present
        have others : ∀ b ∈ message :: before, b.uuid ≠ messageUuid := by
          intro b member
          rcases List.mem_cons.mp member with rfl | member
          · exact same
          · exact earlier b member
        exact .inr ⟨message :: before,m,after,rfl,here,others,markFirst_at others here ackerUuid ackTime after⟩

theorem withUuid_first (earlier : ∀ b ∈ before, b.uuid ≠ messageUuid) (same : m.uuid = messageUuid) (after : List ChatMessage) :
    withUuid messageUuid (before ++ m :: after) = m :: withUuid messageUuid after := by
  have none : withUuid messageUuid before = [] := by
    apply List.filter_eq_nil_iff.mpr
    intro b member
    simpa using earlier b member
  unfold withUuid at none ⊢
  rw [List.filter_append,none,List.filter_cons_of_pos (by simpa using same),List.nil_append]

theorem mem_withUuid : m ∈ withUuid messageUuid messages ↔ m ∈ messages ∧ m.uuid = messageUuid := by
  simp [withUuid]

theorem update_parts (model : ChatModel) (messageUuid ackerUuid : Utf8) (isRead : Bool) (ackTime : DateTime) :
    (withUuid messageUuid model.messages = [] ∧
      model.updateMessageWithAck messageUuid ackerUuid isRead ackTime = (model,false)) ∨
    ∃ before m after, model.messages = before ++ m :: after ∧ m.uuid = messageUuid ∧ (∀ b ∈ before, b.uuid ≠ messageUuid) ∧
      model.updateMessageWithAck messageUuid ackerUuid isRead ackTime =
        ({model with messages := before ++ (m.markAck ackerUuid ackTime).1 :: after},(m.markAck ackerUuid ackTime).2) := by
  unfold ChatModel.updateMessageWithAck
  rcases markFirst_parts messageUuid ackerUuid ackTime model.messages with absent | present
  · obtain ⟨none,result⟩ := absent
    exact .inl ⟨none,by rw [result]⟩
  · obtain ⟨before,m,after,split,same,earlier,result⟩ := present
    exact .inr ⟨before,m,after,split,same,earlier,by rw [result]⟩

theorem ack_again (model : ChatModel) (messageUuid ackerUuid : Utf8) (isRead : Bool) (ackTime : DateTime) :
    ((model.updateMessageWithAck messageUuid ackerUuid isRead ackTime).1.updateMessageWithAck
      messageUuid ackerUuid isRead ackTime).1 = (model.updateMessageWithAck messageUuid ackerUuid isRead ackTime).1 := by
  rcases update_parts model messageUuid ackerUuid isRead ackTime with absent | present
  · obtain ⟨_,result⟩ := absent
    rw [result,result]
  · obtain ⟨before,m,after,_,same,earlier,result⟩ := present
    rw [result]
    simp only [ChatModel.updateMessageWithAck]
    rw [markFirst_at earlier ((markAck_uuid m ackerUuid ackTime).trans same),markAck_again]

theorem waiting_iff : (∃ m ∈ messages, m.uuid = messageUuid ∧ Awaits ackerUuid m) ↔
    ∃ m ∈ withUuid messageUuid messages, Awaits ackerUuid m := by
  simp only [mem_withUuid,and_assoc]

theorem exact_refused {model : ChatModel} (result : model.updateMessageWithAck messageUuid ackerUuid isRead ackTime = (model,false))
    (nobody : ¬∃ m ∈ withUuid messageUuid model.messages, Awaits ackerUuid m) :
    Exact model messageUuid ackerUuid isRead ackTime := by
  refine ⟨?_,?_,fun _ => by rw [result],ack_again model messageUuid ackerUuid isRead ackTime⟩
  · rw [result,waiting_iff]
    exact ⟨fun returned => (by cases returned),fun someone => absurd someone nobody⟩
  · rw [result]
    exact fun returned => by cases returned

theorem exact_marked {model : ChatModel} (split : model.messages = before ++ m :: after) (same : m.uuid = messageUuid)
    (one : OneMark ackerUuid ackTime m changed) (awaits : Awaits ackerUuid m)
    (result : model.updateMessageWithAck messageUuid ackerUuid isRead ackTime =
      ({model with messages := before ++ changed :: after},true)) : Exact model messageUuid ackerUuid isRead ackTime := by
  have here : m ∈ model.messages := by
    rw [split]
    exact List.mem_append_right before List.mem_cons_self
  refine ⟨?_,?_,?_,ack_again model messageUuid ackerUuid isRead ackTime⟩
  · rw [result]
    exact ⟨fun _ => ⟨m,here,same,awaits⟩,fun _ => rfl⟩
  · rw [result]
    exact fun _ => ⟨before,m,after,changed,split,same,one,rfl⟩
  · rw [result]
    exact fun returned => by cases returned

theorem ack_exact_iff (model : ChatModel) (messageUuid ackerUuid : Utf8) (isRead : Bool) (ackTime : DateTime) :
    Exact model messageUuid ackerUuid isRead ackTime ↔ Unshadowed messageUuid ackerUuid model.messages := by
  rcases update_parts model messageUuid ackerUuid isRead ackTime with absent | present
  · obtain ⟨none,result⟩ := absent
    have unshadowed : Unshadowed messageUuid ackerUuid model.messages := by simp [Unshadowed,none]
    have nobody : ¬∃ m ∈ withUuid messageUuid model.messages, Awaits ackerUuid m := by simp [none]
    exact ⟨fun _ => unshadowed,fun _ => exact_refused result nobody⟩
  · obtain ⟨before,m,after,split,same,earlier,result⟩ := present
    have first : (withUuid messageUuid model.messages).head? = some m := by
      rw [split,withUuid_first earlier same]
      rfl
    rcases markAck_parts m ackerUuid ackTime with taken | missed
    · obtain ⟨marked,awaits,one⟩ := taken
      have unshadowed : Unshadowed messageUuid ackerUuid model.messages := by
        intro other head _
        cases Option.some.inj (first.symm.trans head)
        exact awaits
      rw [marked] at result
      exact ⟨fun _ => unshadowed,fun _ => exact_marked split same one awaits result⟩
    · obtain ⟨unmarked,refused,kept⟩ := missed
      rw [unmarked,kept,← split] at result
      constructor
      · intro precise other head someone
        have returned := precise.returns.mpr (waiting_iff.mpr someone)
        rw [result] at returned
        cases returned
      · intro unshadowed
        exact exact_refused result fun someone => refused (unshadowed m first someone)

-- A moon node sends our uuid back; seen from the moon its message stands first.
def echo : ChatMessage := ⟨ascii "ours",none,theirs.sender,ascii "hello",.received (tick 10) (tick 30)⟩

def echoed : List ModelOp := [.addMessage ours .sent,.sortMessages (.relative theirs.sender),.addMessage echo .received]

theorem echo_shadows : (runOps stdSearch (ChatModel.new [] ours.sender) echoed).messages = [echo,ours] ∧
    Awaits (ascii "20") ours ∧
    ((runOps stdSearch (ChatModel.new [] ours.sender) echoed).updateMessageWithAck (ascii "ours") (ascii "20") false
      (tick 40)).2 = false ∧
    ¬∀ model messageUuid ackerUuid isRead ackTime, Exact model messageUuid ackerUuid isRead ackTime := by
  have messages : (runOps stdSearch (ChatModel.new [] ours.sender) echoed).messages = [echo,ours] := by decide +kernel
  have awaits : Awaits (ascii "20") ours := by decide +kernel
  have unmarked : ((runOps stdSearch (ChatModel.new [] ours.sender) echoed).updateMessageWithAck (ascii "ours")
      (ascii "20") false (tick 40)).2 = false := by decide +kernel
  refine ⟨messages,awaits,unmarked,fun claimed => ?_⟩
  have returns := (claimed (runOps stdSearch (ChatModel.new [] ours.sender) echoed) (ascii "ours") (ascii "20") false
    (tick 40)).returns
  rw [unmarked,messages] at returns
  have marked := returns.mpr ⟨ours,List.mem_cons_of_mem _ List.mem_cons_self,rfl,awaits⟩
  cases marked

end DTChat.AckExact
