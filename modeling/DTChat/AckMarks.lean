import DTChat.MessageOrder

namespace DTChat.AckMarks
open ClockTime Utf8Text PeerMessages SortedInsert ChatModels

-- What an ACK does to a list of deliveries, to a message and to the list of messages.
theorem markDelivery_origin (marked : markDelivery ackerUuid ackTime deliveries = some result) :
    ∀ d ∈ result, d ∈ deliveries ∨ d.peerUuid = ackerUuid := by
  obtain ⟨early,first,late,rfl,same,rfl⟩ := markDelivery_parts marked
  intro d member
  rcases List.mem_append.mp member with before | behind
  · exact .inl (List.mem_append_left _ before)
  · rcases List.mem_cons.mp behind with rfl | after
    · exact .inr same
    · exact .inl (List.mem_append_right _ (List.mem_cons_of_mem _ after))

theorem markDelivery_image (marked : markDelivery ackerUuid ackTime deliveries = some result) :
    ∀ d ∈ deliveries, ∃ d' ∈ result, d'.peerUuid = d.peerUuid ∧ (d.ackedAt.isSome → d'.ackedAt.isSome) := by
  obtain ⟨early,first,late,rfl,same,rfl⟩ := markDelivery_parts marked
  intro d member
  rcases List.mem_append.mp member with before | behind
  · exact ⟨d,List.mem_append_left _ before,rfl,id⟩
  · rcases List.mem_cons.mp behind with rfl | after
    · exact ⟨_,List.mem_append_right _ List.mem_cons_self,rfl,fun _ => rfl⟩
    · exact ⟨d,List.mem_append_right _ (List.mem_cons_of_mem _ after),rfl,id⟩

theorem markDelivery_peers (marked : markDelivery ackerUuid ackTime deliveries = some result) :
    result.map Delivery.peerUuid = deliveries.map Delivery.peerUuid := by
  have same := congrArg (List.map Delivery.peerUuid) (markDelivery_unacked marked)
  rw [List.map_map,List.map_map] at same
  exact same

theorem markDelivery_closes (marked : markDelivery ackerUuid ackTime deliveries = some result)
    (distinct : (deliveries.map Delivery.peerUuid).Nodup) :
    ∀ d ∈ result, d.peerUuid = ackerUuid → d.ackedAt.isSome := by
  obtain ⟨early,first,late,rfl,same,rfl⟩ := markDelivery_parts marked
  rw [List.map_append,List.map_cons,List.nodup_middle,← List.map_append] at distinct
  have apart := (List.nodup_cons.mp distinct).1
  intro d member acker
  have listed : d ∈ early ++ late → first.peerUuid ∈ (early ++ late).map Delivery.peerUuid :=
    fun other => List.mem_map.mpr ⟨d,other,acker.trans same.symm⟩
  rcases List.mem_append.mp member with before | behind
  · exact absurd (listed (List.mem_append_left _ before)) apart
  · rcases List.mem_cons.mp behind with rfl | after
    · rfl
    · exact absurd (listed (List.mem_append_right _ after)) apart

theorem markDelivery_none (missed : markDelivery ackerUuid ackTime deliveries = none) :
    ∀ d ∈ deliveries, d.peerUuid ≠ ackerUuid := by
  induction deliveries with
  | nil => intro d member; cases member
  | cons first rest ih =>
    rw [markDelivery] at missed
    intro d member
    split at missed
    · cases missed
    · rename_i other
      rcases List.mem_cons.mp member with rfl | member
      · exact other
      · exact ih (Option.map_eq_none_iff.mp missed) d member

def deliveries (message : ChatMessage) : List Delivery := message.shipmentStatus.deliveries

theorem markAck_cases (message : ChatMessage) (ackerUuid : Utf8) (ackTime : DateTime) :
    ((message.markAck ackerUuid ackTime).1 = message ∧ ∀ d ∈ deliveries message, d.peerUuid ≠ ackerUuid) ∨
    ∃ result, markDelivery ackerUuid ackTime (deliveries message) = some result ∧
      deliveries (message.markAck ackerUuid ackTime).1 = result := by
  unfold deliveries ChatMessage.markAck
  cases status : message.shipmentStatus with
  | received tx rx =>
    refine .inl ⟨rfl,fun d member => ?_⟩
    cases member
  | sent tx sent =>
    simp only [MessageStatus.deliveries]
    cases marked : markDelivery ackerUuid ackTime sent with
    | none => exact .inl ⟨rfl,markDelivery_none marked⟩
    | some result => exact .inr ⟨result,rfl,rfl⟩

theorem markAck_uuid (message : ChatMessage) (ackerUuid : Utf8) (ackTime : DateTime) :
    (message.markAck ackerUuid ackTime).1.uuid = message.uuid := by
  rw [← unacked_uuid,markAck_unacked,unacked_uuid]

theorem markAck_origin (message : ChatMessage) (ackerUuid : Utf8) (ackTime : DateTime) :
    ∀ d ∈ deliveries (message.markAck ackerUuid ackTime).1, d ∈ deliveries message ∨ d.peerUuid = ackerUuid := by
  rcases markAck_cases message ackerUuid ackTime with ⟨same,_⟩ | ⟨result,marked,same⟩
  · rw [same]; exact fun d member => .inl member
  · rw [same]; exact markDelivery_origin marked

theorem markAck_image (message : ChatMessage) (ackerUuid : Utf8) (ackTime : DateTime) :
    ∀ d ∈ deliveries message, ∃ d' ∈ deliveries (message.markAck ackerUuid ackTime).1,
      d'.peerUuid = d.peerUuid ∧ (d.ackedAt.isSome → d'.ackedAt.isSome) := by
  rcases markAck_cases message ackerUuid ackTime with ⟨same,_⟩ | ⟨result,marked,same⟩
  · rw [same]; exact fun d member => ⟨d,member,rfl,id⟩
  · rw [same]; exact markDelivery_image marked

theorem markAck_peers (message : ChatMessage) (ackerUuid : Utf8) (ackTime : DateTime) :
    (deliveries (message.markAck ackerUuid ackTime).1).map Delivery.peerUuid =
      (deliveries message).map Delivery.peerUuid := by
  rcases markAck_cases message ackerUuid ackTime with ⟨same,_⟩ | ⟨result,marked,same⟩
  · rw [same]
  · rw [same]; exact markDelivery_peers marked

theorem markAck_closes {message : ChatMessage} (distinct : ((deliveries message).map Delivery.peerUuid).Nodup)
    (ackerUuid : Utf8) (ackTime : DateTime) :
    ∀ d ∈ deliveries (message.markAck ackerUuid ackTime).1, d.peerUuid = ackerUuid → d.ackedAt.isSome := by
  rcases markAck_cases message ackerUuid ackTime with ⟨same,missed⟩ | ⟨result,marked,same⟩
  · rw [same]; exact fun d member acker => absurd acker (missed d member)
  · rw [same]; exact markDelivery_closes marked distinct

theorem markFirst_origin (messageUuid ackerUuid : Utf8) (ackTime : DateTime) (messages : List ChatMessage) :
    ∀ m ∈ (markFirst messageUuid ackerUuid ackTime messages).1, m ∈ messages ∨
      ∃ old ∈ messages, old.uuid = messageUuid ∧ m = (old.markAck ackerUuid ackTime).1 := by
  induction messages with
  | nil => intro m member; cases member
  | cons message rest ih =>
    intro m member
    rw [markFirst] at member
    split at member
    · rename_i same
      rcases List.mem_cons.mp member with rfl | member
      · exact .inr ⟨message,List.mem_cons_self,same,rfl⟩
      · exact .inl (List.mem_cons_of_mem _ member)
    · rcases List.mem_cons.mp member with rfl | member
      · exact .inl List.mem_cons_self
      · rcases ih m member with inside | ⟨old,inside,same,marked⟩
        · exact .inl (List.mem_cons_of_mem _ inside)
        · exact .inr ⟨old,List.mem_cons_of_mem _ inside,same,marked⟩

theorem markFirst_image (messageUuid ackerUuid : Utf8) (ackTime : DateTime) (messages : List ChatMessage) :
    ∀ m ∈ messages, ∃ m' ∈ (markFirst messageUuid ackerUuid ackTime messages).1,
      m' = m ∨ m' = (m.markAck ackerUuid ackTime).1 := by
  induction messages with
  | nil => intro m member; cases member
  | cons message rest ih =>
    intro m member
    rw [markFirst]
    split
    · rcases List.mem_cons.mp member with rfl | member
      · exact ⟨_,List.mem_cons_self,.inr rfl⟩
      · exact ⟨m,List.mem_cons_of_mem _ member,.inl rfl⟩
    · rcases List.mem_cons.mp member with rfl | member
      · exact ⟨m,List.mem_cons_self,.inl rfl⟩
      · obtain ⟨m',inside,same⟩ := ih m member
        exact ⟨m',List.mem_cons_of_mem _ inside,same⟩

def withUuid (uuid : Utf8) (messages : List ChatMessage) : List ChatMessage := messages.filter fun m => m.uuid = uuid

theorem markFirst_only {messageUuid : Utf8} {message : ChatMessage} (messages : List ChatMessage)
    (only : withUuid messageUuid messages = [message]) (ackerUuid : Utf8) (ackTime : DateTime) :
    withUuid messageUuid (markFirst messageUuid ackerUuid ackTime messages).1 =
      [(message.markAck ackerUuid ackTime).1] := by
  induction messages with
  | nil => cases only
  | cons first rest ih =>
    rw [markFirst]
    unfold withUuid at ih only ⊢
    split
    · rename_i same
      simp only [List.filter_cons,same,decide_true,↓reduceIte,List.cons.injEq] at only
      obtain ⟨rfl,empty⟩ := only
      simp [markAck_uuid,same,empty]
    · rename_i other
      simp only [List.filter_cons,other,decide_false,Bool.false_eq_true,↓reduceIte] at only ⊢
      exact ih only

end DTChat.AckMarks
