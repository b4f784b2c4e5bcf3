import DTChat.MeshRun
import DTChat.MessageList

namespace DTChat.MeshCounts
open ClockTime Utf8Text PeerMessages NodeLetters MeshModel MeshLetters MeshAddressees MeshRun Runs
open MessageList (toJst joined clockText middleDot number ackedCount timestampsStr entry)

variable {ι : Type}

def counter (tx : DateTime) (acked total : Nat) : Utf8 :=
  joined [ascii "sent ",clockText (toJst tx),middleDot,number acked,ascii "/",number total,ascii " ack"]

theorem acked_known [Fintype ι] {mesh : Mesh ι} {s : State ι} (accounted : Accounted mesh s)
    (inside : m ∈ (s.model i).messages) (sent : m.shipmentStatus = .sent tx deliveries) :
    ackedCount deliveries ≤ {p | ∃ copy, (p,copy) ∈ s.decoded ∧ CopyOf copy m}.ncard := by
  have listed : AckMarks.deliveries m = deliveries := by simp [AckMarks.deliveries,sent,MessageStatus.deliveries]
  have distinct : ((deliveries.filter fun d => d.ackedAt.isSome).map Delivery.peerUuid).Nodup := by
    by_cases none : deliveries = []
    · simp [none]
    · have letter : m.unacked ∈ letters (s.model i) := mem_letters.mpr ⟨m,inside,rfl⟩
      have uuids : peerUuids m.unacked = deliveries.map Delivery.peerUuid := by rw [peerUuids_unacked,peerUuids,listed]
      have apart := (accounted.valid.sent i _ letter (by simpa [uuids] using none)).distinct
      rw [uuids] at apart
      exact (List.filter_sublist.map _).nodup apart
  have named : (((deliveries.filter fun d => d.ackedAt.isSome).map Delivery.peerUuid).toFinset : Set Utf8) ⊆
      (fun p => (mesh.localPeer p).uuid) '' {p | ∃ copy, (p,copy) ∈ s.decoded ∧ CopyOf copy m} := by
    intro uuid member
    obtain ⟨d,acked,rfl⟩ := List.mem_map.mp (List.mem_toFinset.mp member)
    obtain ⟨open_or_acked,marked⟩ := List.mem_filter.mp acked
    obtain ⟨p,copy,peer,decoded,copied⟩ := acked_decoded accounted inside (by rwa [listed]) marked
    exact ⟨p,⟨copy,decoded,copied⟩,peer⟩
  calc ackedCount deliveries
      = ((deliveries.filter fun d => d.ackedAt.isSome).map Delivery.peerUuid).toFinset.card := by
        rw [List.toFinset_card_of_nodup distinct,List.length_map,ackedCount]
    _ ≤ ((fun p => (mesh.localPeer p).uuid) '' {p | ∃ copy, (p,copy) ∈ s.decoded ∧ CopyOf copy m}).ncard := by
        rw [← Set.ncard_coe_finset]
        exact Set.ncard_le_ncard named (Set.toFinite _)
    _ ≤ {p | ∃ copy, (p,copy) ∈ s.decoded ∧ CopyOf copy m}.ncard := Set.ncard_image_le (Set.toFinite _)

-- In any interleaving the counter of a sent message is over all other nodes and counts none that has not
-- decoded it, and once nothing is under way and nothing was lost it counts them all.
theorem counters_honest [DecidableEq ι] [Fintype ι] (mesh : Mesh ι) (fresh : mesh.Start start)
    (run : Run mesh.Steps start events s) (inside : m ∈ (s.model i).messages) (sent : m.shipmentStatus = .sent tx deliveries) :
    (entry m).timestamps = counter tx (ackedCount deliveries) (Fintype.card ι - 1) ∧
    ackedCount deliveries ≤ {p | ∃ copy, (p,copy) ∈ s.decoded ∧ CopyOf copy m}.ncard ∧
    (s.pending = [] → s.network = [] → s.lost = [] → m.text.startsWith (ascii "[ACK]") = false →
      (entry m).timestamps = counter tx (Fintype.card ι - 1) (Fintype.card ι - 1)) := by
  have accounted := run_accounted run fresh
  obtain ⟨distinct,others⟩ := run_others run fresh inside tx deliveries sent
  have length := others_length distinct others
  rw [List.length_map] at length
  have shown : (entry m).timestamps = counter tx (ackedCount deliveries) deliveries.length := by
    change timestampsStr m.shipmentStatus = _
    rw [sent]
    rfl
  rw [length] at shown
  refine ⟨shown,acked_known accounted inside sent,fun pending network lost plain => ?_⟩
  have listed : AckMarks.deliveries m = deliveries := by simp [AckMarks.deliveries,sent,MessageStatus.deliveries]
  have all : deliveries.filter (fun d => d.ackedAt.isSome) = deliveries := by
    refine List.filter_eq_self.mpr fun d member => ?_
    exact settled_acked accounted pending network lost inside plain (by rwa [listed])
  rw [shown,ackedCount,all,length]

theorem counters_honest_round_trip : ∃ s, Run threeNodes.Steps threeStart roundTrip s ∧
    ∃ m ∈ (s.model 0).messages, ∃ tx, (entry m).timestamps = counter tx 2 2 := by
  have done : (follow threeNodes.step threeStart roundTrip).map (fun s => (s.pending.length,s.network.length,s.lost.length,
      (s.model 0).messages.map fun m => (m.text.startsWith (ascii "[ACK]"),m.shipmentStatus.deliveries.length))) =
      some (0,0,0,[(false,2)]) := by decide +kernel
  obtain ⟨s,ended,facts⟩ := Option.map_eq_some_iff.mp done
  simp only [Prod.mk.injEq,List.length_eq_zero_iff] at facts
  obtain ⟨pending,network,lost,only⟩ := facts
  have run : Run threeNodes.Steps threeStart roundTrip s := Run.of_follow ended
  obtain ⟨m,rest,messages,same,_⟩ := List.map_eq_cons_iff.mp only
  have inside : m ∈ (s.model 0).messages := by simp [messages]
  obtain ⟨plain,two⟩ := Prod.mk.inj same
  refine ⟨s,run,m,inside,m.shipmentStatus.txTime,?_⟩
  cases status : m.shipmentStatus with
  | sent tx deliveries =>
    exact (counters_honest threeNodes threeStart_start run inside status).2.2 pending network lost plain
  | received tx rx =>
    rw [status] at two
    cases two

end DTChat.MeshCounts
