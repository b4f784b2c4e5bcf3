import DTChat.MeshLetters

namespace DTChat.MeshAddressees
open ClockTime Utf8Text PeerMessages MessagePrompts NodeLetters MeshModel MeshLetters Runs

variable {ι : Type}

-- A message that node `i` sent has one delivery for each of the other nodes. One it received has none.
def ForOthers (mesh : Mesh ι) (i : ι) (m : ChatMessage) : Prop :=
  ∀ tx deliveries, m.shipmentStatus = .sent tx deliveries →
    (deliveries.map Delivery.peerUuid).Nodup ∧
    ∀ uuid, uuid ∈ deliveries.map Delivery.peerUuid ↔ ∃ j, j ≠ i ∧ (mesh.localPeer j).uuid = uuid

theorem recipients_others {mesh : Mesh ι} {s : State ι} (valid : Consistent mesh s) :
    uuid ∈ (recipients (s.model i)).map Peer.uuid ↔ ∃ j, j ≠ i ∧ (mesh.localPeer j).uuid = uuid := by
  constructor
  · intro member
    obtain ⟨p,recipient,rfl⟩ := List.mem_map.mp member
    obtain ⟨listed,other,_⟩ := mem_recipients.mp recipient
    rw [valid.peers] at listed
    rw [valid.localpeer] at other
    obtain ⟨j,named⟩ := mesh.known i p listed
    refine ⟨j,?_,named.symm⟩
    rintro rfl
    exact other named
  · rintro ⟨j,apart,rfl⟩
    obtain ⟨p,listed,_,named⟩ := findPeer_listed mesh apart
    have foreign : p.uuid ≠ (mesh.localPeer i).uuid := fun own => apart (mesh.distinct (named.symm.trans own))
    refine List.mem_map.mpr ⟨p,mem_recipients.mpr ⟨?_,?_,?_⟩,named⟩
    · rwa [valid.peers]
    · rwa [valid.localpeer]
    · exact mesh.reachable i p listed foreign

theorem others_received {mesh : Mesh ι} {m : ChatMessage} (received : m.shipmentStatus = .received tx rx) :
    ForOthers mesh i m := by
  intro tx deliveries sent
  rw [received] at sent
  cases sent

theorem others_unacked {mesh : Mesh ι} {m : ChatMessage} (others : ForOthers mesh i m.unacked) : ForOthers mesh i m := by
  intro tx deliveries sent
  have bare : m.unacked.shipmentStatus = .sent tx (deliveries.map Delivery.unacked) := by
    simp only [ChatMessage.unacked,sent]
  have same : (deliveries.map Delivery.unacked).map Delivery.peerUuid = deliveries.map Delivery.peerUuid := by
    rw [List.map_map]
    rfl
  have addressed := others tx _ bare
  rwa [same] at addressed

theorem others_addressed {mesh : Mesh ι} {s : State ι} (valid : Consistent mesh s) (predict : Peer → Option DateTime)
    (msg : ChatMessage) : ForOthers mesh i (addressed predict (s.model i) msg) := by
  intro tx deliveries sent
  cases sent
  have same : ((recipients (s.model i)).map (delivery predict)).map Delivery.peerUuid =
      (recipients (s.model i)).map Peer.uuid := by
    rw [List.map_map]
    rfl
  rw [same]
  exact ⟨recipients_distinct mesh (valid.localpeer i) (valid.peers i),fun uuid => recipients_others valid⟩

def AllOthers (mesh : Mesh ι) (s : State ι) : Prop := ∀ i, ∀ m ∈ letters (s.model i), ForOthers mesh i m

theorem others_follow {mesh : Mesh ι} {s t : State ι} (valid : Consistent mesh s) (others : AllOthers mesh s)
    (nodes : ∀ i, ∃ added, Follows (s.node i) (t.node i) added ∧ ∀ m ∈ added, ForOthers mesh i m) : AllOthers mesh t := by
  intro i m inside
  obtain ⟨added,follows,new⟩ := nodes i
  have grown : letters (t.model i) = added + letters (s.model i) := follows.letters (valid.inOrder i)
  rw [grown] at inside
  rcases Multiset.mem_add.mp inside with here | old
  · exact new m here
  · exact others i m old

theorem mem_placed {p : Prop} [Decidable p] {new m : ChatMessage}
    (member : m ∈ (if p then ({new} : Multiset ChatMessage) else 0)) : p ∧ m = new := by
  split at member
  · rename_i here
    exact ⟨here,Multiset.mem_singleton.mp member⟩
  · cases member

theorem step_others [DecidableEq ι] {mesh : Mesh ι} {s t : State ι} (valid : Consistent mesh s) (others : AllOthers mesh s)
    (taken : mesh.Steps s event t) : AllOthers mesh t := by
  have quiet : ∀ i, ∀ m ∈ (0 : Multiset ChatMessage), ForOthers mesh i m :=
    fun _ m member => absurd member (Multiset.notMem_zero m)
  rcases step_parts taken with ⟨i,uuid,response,text,now,predict,_,_,rfl⟩ | ⟨index,uuid,now,i,task,_,there,rfl⟩ |
    ⟨index,now,receivedOn,⟨j,content⟩,_,there,rfl⟩ | ⟨index,frame,_,_,rfl⟩ | ⟨index,frame,_,_,rfl⟩ | ⟨i,strat,_,rfl⟩
  · refine others_follow valid others fun k => ⟨_,sent_follows mesh s i _ predict k,fun m member => ?_⟩
    obtain ⟨rfl,rfl⟩ := mem_placed member
    exact others_addressed valid predict _
  · exact others_follow valid others fun k => ⟨0,follows_refl _,quiet k⟩
  · cases content with
    | chat m =>
      obtain ⟨i,copy,tasks,read⟩ := received_chat valid there now receivedOn
      obtain ⟨tx,rx,received⟩ := read.stamped
      refine others_follow valid others fun k => ⟨_,chat_follows read k,fun m member => ?_⟩
      obtain ⟨_,rfl⟩ := mem_placed member
      exact others_received received
    | ack uuid ackNow receivedMsg localPeerUuid isRead =>
      exact others_follow valid others fun k =>
        ⟨0,ack_follows valid index j uuid ackNow receivedMsg localPeerUuid isRead now receivedOn k,quiet k⟩
  · exact others_follow valid others fun k => ⟨0,follows_refl _,quiet k⟩
  · exact others_follow valid others fun k => ⟨0,follows_refl _,quiet k⟩
  · exact others_follow valid others fun k => ⟨0,sorted_follows s i strat k,quiet k⟩

theorem start_others {mesh : Mesh ι} {s : State ι} (start : mesh.Start s) : AllOthers mesh s := by
  intro i m member
  obtain ⟨message,inside,rfl⟩ := mem_letters.mp member
  obtain ⟨_,tx,rx,received⟩ := start.seeds i message inside
  rw [unacked_received received]
  exact others_received received

theorem run_others [DecidableEq ι] {mesh : Mesh ι} {start s : State ι} (run : Run mesh.Steps start events s)
    (fresh : mesh.Start start) (inside : m ∈ (s.model i).messages) : ForOthers mesh i m := by
  have kept : ∀ u event v, Consistent mesh u ∧ AllOthers mesh u → mesh.Steps u event v →
      Consistent mesh v ∧ AllOthers mesh v :=
    fun u event v both taken => ⟨step_consistent both.1 taken,step_others both.1 both.2 taken⟩
  have others := (run.preserves kept ⟨start_consistent fresh,start_others fresh⟩).2
  exact others_unacked (others i _ (mem_letters.mpr ⟨m,inside,rfl⟩))

theorem others_length [DecidableEq ι] [Fintype ι] {mesh : Mesh ι} {i : ι} {uuids : List Utf8} (distinct : uuids.Nodup)
    (others : ∀ uuid, uuid ∈ uuids ↔ ∃ j, j ≠ i ∧ (mesh.localPeer j).uuid = uuid) : uuids.length = Fintype.card ι - 1 := by
  have same : uuids.toFinset = (Finset.univ.erase i).image fun j => (mesh.localPeer j).uuid := by
    ext uuid
    simp [others]
  rw [← List.toFinset_card_of_nodup distinct,same,Finset.card_image_of_injective _ mesh.distinct,
    Finset.card_erase_of_mem (Finset.mem_univ i),Finset.card_univ]

theorem recipients_length [DecidableEq ι] [Fintype ι] {mesh : Mesh ι} {s : State ι} (valid : Consistent mesh s) (i : ι) :
    (recipients (s.model i)).length = Fintype.card ι - 1 := by
  have distinct := recipients_distinct mesh (valid.localpeer i) (valid.peers i)
  have counted := others_length distinct fun uuid => recipients_others valid
  rwa [List.length_map] at counted

end DTChat.MeshAddressees
