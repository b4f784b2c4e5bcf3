import DTChat.ViewOrder

namespace DTChat.ViewSwitch
open ClockTime Utf8Text PeerMessages SortedInsert ChatModels MessageOrder ViewOrder

theorem anchor_times (ctxPeerUuid : Utf8) (m : ChatMessage) : anchor ctxPeerUuid m =
    if m.sender.uuid = ctxPeerUuid then m.shipmentStatus.txTime else arrivalTime m.shipmentStatus := by
  unfold anchor
  split
  · rename_i status
    simp [status,MessageStatus.txTime,arrivalTime]
  · rename_i status
    simp [status,MessageStatus.txTime,arrivalTime]

theorem standard_tie (tie : standardCmp a b = .eq) :
    arrivalTime a.shipmentStatus = arrivalTime b.shipmentStatus ∧ a.shipmentStatus.txTime = b.shipmentStatus.txTime := by
  obtain ⟨arrival,sent⟩ := Ordering.then_eq_eq.mp tie
  exact ⟨DateTime.cmp_eq_iff.mp arrival,DateTime.cmp_eq_iff.mp sent⟩

-- Two messages of the same times: every peer's view keeps their order exactly when one peer sent
-- both, or they came when they were sent.
theorem tie_views (tie : standardCmp a b = .eq) : (∀ peer : Peer, (relativeCmp a b peer.uuid).isLE) ↔
    a.sender.uuid = b.sender.uuid ∨ a.shipmentStatus.txTime = arrivalTime a.shipmentStatus := by
  obtain ⟨arrival,sent⟩ := standard_tie tie
  simp only [relativeCmp,anchor_times,← arrival,← sent]
  constructor
  · intro views
    by_cases same : a.sender.uuid = b.sender.uuid
    · exact .inl same
    · right
      have first := views a.sender
      have second := views b.sender
      simp only [↓reduceIte,if_neg same,if_neg (Ne.symm same)] at first second
      exact DateTime.cmp_eq_iff.mp (Std.OrientedCmp.isLE_antisymm first second)
  · rintro (same | prompt) peer
    · rw [same,DateTime.cmp_eq_iff.mpr rfl]
      rfl
    · rw [prompt,ite_self,ite_self,DateTime.cmp_eq_iff.mpr rfl]
      rfl

theorem switch_messages (ordered : InOrder model) (via : SortStrategy) :
    ((model.sortMessages via).sortMessages model.sortStrategy).messages = model.messages ↔
      model.messages.Pairwise fun a b => model.sortStrategy.cmp a b = .eq → (via.cmp a b).isLE := by
  have here : sortBy model.sortStrategy.cmp model.messages = model.messages := Sorted.sortBy_same ordered
  rw [← sortBy_restored_iff,here,sortMessages_messages,sortMessages_messages]

theorem local_same (ordered : Sorted SortStrategy.standard.cmp messages)
    (foreign : ∀ m ∈ messages, ∀ tx rx, m.shipmentStatus = .received tx rx → m.sender.uuid ≠ uuid) :
    messages.Pairwise fun a b => (relativeCmp a b uuid).isLE := by
  have arrival : ∀ m ∈ messages, anchor uuid m = arrivalTime m.shipmentStatus := by
    intro m member
    unfold anchor
    split
    · rename_i status
      rw [status]
      rfl
    · rename_i tx rx status
      rw [if_neg (foreign m member tx rx status),status]
      rfl
  refine List.Pairwise.imp_of_mem (fun {a b} first second below => ?_) ordered
  rw [relativeCmp,arrival a first,arrival b second]
  change ((DateTime.cmp _ _).then _).isLE = true at below
  cases order : DateTime.cmp (arrivalTime a.shipmentStatus) (arrivalTime b.shipmentStatus) with
  | gt => simp [order] at below
  | _ => rfl

-- In every state that is reached: to look at another view and come back leaves the list as it was exactly when no two
-- messages with one key stand in an order that the other view reverses. From the standard view no peer's view disturbs
-- the list exactly when no two messages of the same two times came later than they were sent, from different senders.
theorem view_restored_iff (binary : BinarySearch ChatMessage) {start : ChatModel} (sorted : InOrder start) (ops : List ModelOp) :
    (∀ via, (((runOps binary start ops).sortMessages via).sortMessages (runOps binary start ops).sortStrategy).messages =
      (runOps binary start ops).messages ↔ (runOps binary start ops).messages.Pairwise fun a b =>
        (runOps binary start ops).sortStrategy.cmp a b = .eq → (via.cmp a b).isLE) ∧
    ((runOps binary start ops).sortStrategy = .standard →
      ((∀ peer, (((runOps binary start ops).sortMessages (.relative peer)).sortMessages .standard).messages =
        (runOps binary start ops).messages) ↔ (runOps binary start ops).messages.Pairwise fun a b =>
          standardCmp a b = .eq → a.sender.uuid = b.sender.uuid ∨ a.shipmentStatus.txTime = arrivalTime a.shipmentStatus) ∧
      ∀ peer, (∀ m ∈ (runOps binary start ops).messages, ∀ tx rx, m.shipmentStatus = .received tx rx → m.sender.uuid ≠ peer.uuid) →
        ((runOps binary start ops).sortMessages (.relative peer)).messages = (runOps binary start ops).messages) := by
  have ordered := runOps_inOrder binary sorted ops
  generalize runOps binary start ops = model at ordered ⊢
  refine ⟨switch_messages ordered,fun standard => ⟨?_,fun peer foreign => ?_⟩⟩
  · have switched := fun peer => switch_messages ordered (.relative peer)
    rw [standard] at switched
    simp only [switched,List.pairwise_iff_getElem]
    constructor
    · intro views i j inside within order tie
      exact (tie_views tie).mp fun peer => views peer i j inside within order tie
    · intro times peer i j inside within order tie
      exact (tie_views tie).mpr (times i j inside within order tie) peer
  · unfold InOrder at ordered
    rw [standard] at ordered
    rw [sortMessages_messages]
    exact Sorted.sortBy_same (local_same ordered foreign)

def exchanged : ChatModel := runOps stdSearch (ChatModel.new [] ours.sender) [.addMessage ours .sent,.addMessage theirs .received]

theorem view_restored_iff_exchanged :
    (∀ peer, ((exchanged.sortMessages (.relative peer)).sortMessages .standard).messages = exchanged.messages) ∧
    (exchanged.sortMessages (.relative ours.sender)).messages = exchanged.messages := by
  have sorted : InOrder (ChatModel.new [] ours.sender) := List.Pairwise.nil
  have views := (view_restored_iff stdSearch sorted [.addMessage ours .sent,.addMessage theirs .received]).2 rfl
  refine ⟨views.1.mpr (by decide +kernel),views.2 _ ?_⟩
  have listed : exchanged.messages = [ours,theirs] := by decide +kernel
  intro m member tx rx received
  have inside : m ∈ [ours,theirs] := listed ▸ member
  rcases List.mem_cons.mp inside with rfl | last
  · cases received
  · rw [List.mem_singleton.mp last]
    decide +kernel

def twin : ChatMessage := {theirs with uuid := ascii "twin",sender := ours.sender}

example : ¬[theirs,twin].Pairwise fun a b => standardCmp a b = .eq →
    a.sender.uuid = b.sender.uuid ∨ a.shipmentStatus.txTime = arrivalTime a.shipmentStatus := by decide +kernel

end DTChat.ViewSwitch
