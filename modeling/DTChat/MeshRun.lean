import DTChat.MeshAddressees
import DTChat.Lib.AckLedger

namespace DTChat.MeshRun
open ClockTime Utf8Text PeerMessages SortedInsert ChatModels AckMarks SocketControllers MessagePrompts NodeLetters MeshModel
  MeshLetters MeshAddressees Runs AckLedger

variable {ι : Type}

-- The deliveries of a mesh: what message is for whom.
def ledger (mesh : Mesh ι) (s : State ι) : Ledger (Utf8 × Utf8) where
  owed := {k | ∃ i, ∃ m ∈ letters (s.model i), m.text.startsWith (ascii "[ACK]") = false ∧ m.uuid = k.1 ∧ k.2 ∈ peerUuids m}
  decoded := {k | ∃ j copy, (j,copy) ∈ s.decoded ∧ copy.uuid = k.1 ∧ (mesh.localPeer j).uuid = k.2}
  acked := {k | ∃ i, ∃ m ∈ (s.model i).messages, m.uuid = k.1 ∧ ∃ d ∈ deliveries m, d.peerUuid = k.2 ∧ d.ackedAt.isSome}
  copies := {k | ∃ j m, .chat j m ∈ cargo mesh s ∧ m.text.startsWith (ascii "[ACK]") = false ∧ m.uuid = k.1 ∧
    (mesh.localPeer j).uuid = k.2}
  acks := {k | ∃ i, .ack i k.1 k.2 ∈ cargo mesh s}
  lost := s.lost ≠ []

theorem ledger_same (mesh : Mesh ι) {s t : State ι} (messages : ∀ i m, m ∈ (t.model i).messages ↔ m ∈ (s.model i).messages)
    (under : ∀ c, c ∈ cargo mesh t ↔ c ∈ cargo mesh s) (decoded : t.decoded = s.decoded) (lost : t.lost = s.lost) :
    ledger mesh t = ledger mesh s := by
  simp only [ledger,mem_letters,messages,under,decoded,lost]

theorem lose_step (mesh : Mesh ι) {s : State ι} (there : s.network[index]? = some frame) :
    (ledger mesh s).Step (ledger mesh {s with network := s.network.eraseIdx index,lost := frame :: s.lost}) := by
  have under : ∀ c, c ∈ cargo mesh {s with network := s.network.eraseIdx index,lost := frame :: s.lost} →
      c ∈ cargo mesh s := fun _ member => cargo_rest mesh there member
  have lost : (ledger mesh {s with network := s.network.eraseIdx index,lost := frame :: s.lost}).lost :=
    List.cons_ne_nil _ _
  refine ⟨subset_rfl,subset_rfl,Set.subset_union_left,?_,fun _ => lost,?_,?_,?_⟩
  · intro k entry
    obtain ⟨i,ack⟩ := entry
    exact .inl ⟨i,under _ ack⟩
  · exact fun whole => absurd lost whole
  · exact fun whole => absurd lost whole
  · exact fun whole => absurd lost whole

structure Marks (s t : State ι) (i : ι) (messageUuid ackerUuid : Utf8) (ackTime : DateTime) : Prop where
  others : ∀ j, j ≠ i → t.model j = s.model j
  messages : (t.model i).messages = (markFirst messageUuid ackerUuid ackTime (s.model i).messages).1

theorem withUuid_only {mesh : Mesh ι} {s : State ι} (valid : Consistent mesh s) {message : ChatMessage}
    (there : message ∈ (s.model i).messages) (addressed : peerUuids message ≠ []) :
    withUuid message.uuid (s.model i).messages = [message] := by
  have once := valid.once i message.unacked (mem_letters.mpr ⟨message,there,rfl⟩) (by rwa [peerUuids_unacked])
  have counted := congrArg Multiset.card once
  rw [letters,Multiset.filter_coe,Multiset.coe_card,List.filter_map,List.length_map,Multiset.card_singleton] at counted
  obtain ⟨first,single⟩ := List.length_eq_one_iff.mp counted
  have picked : (fun n : ChatMessage => decide (n.uuid = message.unacked.uuid)) ∘ ChatMessage.unacked =
      fun n => decide (n.uuid = message.uuid) := by
    funext n
    simp only [Function.comp,unacked_uuid]
  rw [picked] at single
  have member : message ∈ withUuid message.uuid (s.model i).messages := List.mem_filter.mpr ⟨there,decide_eq_true rfl⟩
  rw [withUuid,single] at member
  rw [withUuid,single,List.mem_singleton.mp member]

theorem marks_acked {mesh : Mesh ι} {s t : State ι} (valid : Consistent mesh s)
    (marks : Marks s t i messageUuid ackerUuid ackTime) (inside : m ∈ letters (s.model i)) (same : m.uuid = messageUuid)
    (addressed : ackerUuid ∈ peerUuids m) : (messageUuid,ackerUuid) ∈ (ledger mesh t).acked := by
  have sent := valid.sent i m inside (List.ne_nil_of_mem addressed)
  obtain ⟨message,there,rfl⟩ := mem_letters.mp inside
  rw [peerUuids_unacked] at addressed
  rw [unacked_uuid] at same
  have distinct := sent.distinct
  rw [peerUuids_unacked] at distinct
  have only := withUuid_only valid there (List.ne_nil_of_mem addressed)
  rw [same] at only
  have marked := markFirst_only _ only ackerUuid ackTime
  have member : (message.markAck ackerUuid ackTime).1 ∈ (t.model i).messages := by
    rw [marks.messages]
    have single := List.mem_singleton.mpr (Eq.refl (message.markAck ackerUuid ackTime).1)
    rw [← marked] at single
    exact (List.mem_filter.mp single).1
  have peers := markAck_peers message ackerUuid ackTime
  have addressee : ackerUuid ∈ (deliveries (message.markAck ackerUuid ackTime).1).map Delivery.peerUuid := by
    rw [peers]
    exact addressed
  obtain ⟨d,listed,named⟩ := List.mem_map.mp addressee
  exact ⟨i,_,member,by rw [markAck_uuid]; exact same,d,listed,named,markAck_closes distinct ackerUuid ackTime d listed named⟩

theorem entry_acked {mesh : Mesh ι} {s : State ι} (valid : Consistent mesh s) (inside : m ∈ (s.model i).messages)
    (member : d ∈ deliveries m) (acked : (m.uuid,d.peerUuid) ∈ (ledger mesh s).acked) : d.ackedAt.isSome := by
  obtain ⟨j,m',inside',uuid,d',member',peer,marked⟩ := acked
  have addressed := addressed_unacked_ne member
  have letter : m.unacked ∈ letters (s.model i) := mem_letters.mpr ⟨m,inside,rfl⟩
  have letter' : m'.unacked ∈ letters (s.model j) := mem_letters.mpr ⟨m',inside',rfl⟩
  obtain ⟨here,_⟩ := letter_unique valid letter' letter (addressed_unacked_ne member') addressed
    (by rw [unacked_uuid,unacked_uuid,uuid])
  subst here
  have only := withUuid_only valid inside (by rwa [← peerUuids_unacked])
  have same : m' = m := by
    have picked : m' ∈ withUuid m.uuid (s.model j).messages := List.mem_filter.mpr ⟨inside',decide_eq_true uuid⟩
    rw [only] at picked
    exact List.mem_singleton.mp picked
  subst same
  have distinct := (valid.sent j m'.unacked letter addressed).distinct
  rw [peerUuids_unacked] at distinct
  have entry : d' = d := List.inj_on_of_nodup_map distinct member' member peer
  rw [← entry]
  exact marked

theorem copyOf_unacked {copy m : ChatMessage} (copied : CopyOf copy m.unacked) : CopyOf copy m := by
  have same : m.unacked.uuid = m.uuid ∧ m.unacked.response = m.response ∧ m.unacked.sender = m.sender ∧
      m.unacked.text = m.text := by
    unfold ChatMessage.unacked
    split <;> exact ⟨rfl,rfl,rfl,rfl⟩
  obtain ⟨uuid,response,sender,text⟩ := same
  exact ⟨copied.uuid.trans uuid,copied.response.trans response,copied.sender.trans (congrArg Peer.uuid sender),
    copied.text.trans text⟩

theorem start_sound {mesh : Mesh ι} (start : mesh.Start s) : (ledger mesh s).Sound := by
  have seeds : ∀ i, ∀ m ∈ (s.model i).messages, deliveries m = [] := by
    intro i m inside
    obtain ⟨_,tx,rx,status⟩ := start.seeds i m inside
    rw [deliveries,status]
    rfl
  have idle : cargo mesh s = 0 := by simp [cargo,start.pending,start.network]
  refine ⟨?_,?_,?_⟩
  · intro key entry
    obtain ⟨i,m,inside,_,d,member,_⟩ := entry
    rw [seeds i m inside] at member
    cases member
  · intro key entry
    obtain ⟨i,ack⟩ := entry
    rw [idle] at ack
    cases ack
  · intro _ key entry
    obtain ⟨i,m,inside,_,_,addressed⟩ := entry
    obtain ⟨message,there,rfl⟩ := mem_letters.mp inside
    rw [peerUuids_unacked,peerUuids,seeds i message there] at addressed
    cases addressed

structure Accounted (mesh : Mesh ι) (s : State ι) : Prop where
  valid : Consistent mesh s
  sound : (ledger mesh s).Sound

theorem acked_decoded {mesh : Mesh ι} (accounted : Accounted mesh s) (inside : m ∈ (s.model i).messages)
    (member : d ∈ deliveries m) (acked : d.ackedAt.isSome) :
    ∃ p copy, (mesh.localPeer p).uuid = d.peerUuid ∧ (p,copy) ∈ s.decoded ∧ CopyOf copy m := by
  obtain ⟨valid,sound⟩ := accounted
  have entry : (m.uuid,d.peerUuid) ∈ (ledger mesh s).acked := ⟨i,m,inside,rfl,d,member,rfl,acked⟩
  obtain ⟨p,copy,decoded,uuid,peer⟩ := sound.acked entry
  obtain ⟨j,n,letter,addressed,copied⟩ := valid.copies p copy decoded
  have letter' : m.unacked ∈ letters (s.model i) := mem_letters.mpr ⟨m,inside,rfl⟩
  have same : n.uuid = m.unacked.uuid := by rw [unacked_uuid,← copied.uuid,uuid]
  obtain ⟨_,whole⟩ := letter_unique valid letter letter' (List.ne_nil_of_mem addressed) (addressed_unacked_ne member) same
  subst whole
  exact ⟨p,copy,peer,decoded,copyOf_unacked copied⟩

theorem settled_acked {mesh : Mesh ι} {s : State ι} (accounted : Accounted mesh s) (pending : s.pending = [])
    (network : s.network = []) (lost : s.lost = []) (inside : m ∈ (s.model i).messages)
    (plain : m.text.startsWith (ascii "[ACK]") = false) (member : d ∈ deliveries m) : d.ackedAt.isSome := by
  obtain ⟨valid,sound⟩ := accounted
  have idle : cargo mesh s = 0 := by simp [cargo,pending,network]
  have copies : (ledger mesh s).copies = ∅ := by simp [ledger,idle]
  have acks : (ledger mesh s).acks = ∅ := by simp [ledger,idle]
  have whole : ¬(ledger mesh s).lost := fun some => some lost
  apply entry_acked valid inside member
  apply sound.settled whole copies acks
  refine ⟨i,m.unacked,mem_letters.mpr ⟨m,inside,rfl⟩,?_,unacked_uuid m,?_⟩
  · rw [unacked_text]; exact plain
  · rw [peerUuids_unacked]; exact List.mem_map_of_mem member

structure Gains (s t : State ι) (k : ι) (new : ChatMessage) : Prop where
  others : ∀ i, i ≠ k → t.model i = s.model i
  messages : ∀ m, m ∈ (t.model k).messages ↔ m = new ∨ m ∈ (s.model k).messages
  pending : ∀ d ∈ deliveries new, d.ackedAt = none

theorem gains_acked (mesh : Mesh ι) {s t : State ι} (gains : Gains s t k new) :
    (ledger mesh t).acked = (ledger mesh s).acked := by
  ext key
  constructor
  · intro entry
    obtain ⟨i,m,inside,same,d,member,peer,acked⟩ := entry
    by_cases here : i = k
    · subst here
      rcases (gains.messages m).mp inside with rfl | old
      · rw [gains.pending d member] at acked
        cases acked
      · exact ⟨i,m,old,same,d,member,peer,acked⟩
    · rw [gains.others i here] at inside
      exact ⟨i,m,inside,same,d,member,peer,acked⟩
  · intro entry
    obtain ⟨i,m,inside,rest⟩ := entry
    by_cases here : i = k
    · subst here
      exact ⟨i,m,(gains.messages m).mpr (.inr inside),rest⟩
    · rw [← gains.others i here] at inside
      exact ⟨i,m,inside,rest⟩

theorem gains_owed (mesh : Mesh ι) {s t : State ι} (gains : Gains s t k new) :
    ∀ key ∈ (ledger mesh t).owed, key ∈ (ledger mesh s).owed ∨
      new.text.startsWith (ascii "[ACK]") = false ∧ new.uuid = key.1 ∧ key.2 ∈ peerUuids new := by
  intro key entry
  obtain ⟨i,m,inside,plain,same,addressed⟩ := entry
  obtain ⟨message,there,rfl⟩ := mem_letters.mp inside
  by_cases here : i = k
  · subst here
    rcases (gains.messages message).mp there with rfl | old
    · rw [unacked_text] at plain
      rw [unacked_uuid] at same
      rw [peerUuids_unacked] at addressed
      exact .inr ⟨plain,same,addressed⟩
    · exact .inl ⟨i,_,mem_letters.mpr ⟨message,old,rfl⟩,plain,same,addressed⟩
  · rw [gains.others i here] at there
    exact .inl ⟨i,_,mem_letters.mpr ⟨message,there,rfl⟩,plain,same,addressed⟩

variable [DecidableEq ι]

theorem sent_gains {mesh : Mesh ι} {s : State ι} (valid : Consistent mesh s) (i : ι) (msg : ChatMessage)
    (predict : Peer → Option DateTime) :
    Gains s (mesh.sent s i msg predict) i (addressed predict (s.model i) msg) := by
  obtain ⟨notified,model⟩ := manageSend_model mesh.platform predict (s.model i) msg
  refine ⟨?_,?_,?_⟩
  · intro j other
    simp only [State.model,Mesh.sent,Function.update_of_ne other]
  · intro m
    have here : ((mesh.sent s i msg predict).model i) = (manageSend mesh.platform predict (s.model i) msg).1 := by
      simp only [State.model,Mesh.sent,Function.update_self]
    rw [here,model]
    exact mem_addMessage mesh.platform.binary (valid.inOrder i) _ .sent
  · intro d member
    obtain ⟨peer,_,rfl⟩ := List.mem_map.mp (show d ∈ (recipients (s.model i)).map (delivery predict) from member)
    rfl

theorem send_step {mesh : Mesh ι} {s : State ι} (valid : Consistent mesh s) (i : ι) (msg : ChatMessage)
    (predict : Peer → Option DateTime) : (ledger mesh s).Step (ledger mesh (mesh.sent s i msg predict)) := by
  have gains := sent_gains valid i msg predict
  have acked := gains_acked mesh gains
  have under := cargo_sent mesh s i msg predict
  refine ⟨acked.symm.subset,subset_rfl,?_,?_,id,?_,?_,?_⟩
  · rw [acked]
    exact Set.subset_union_left
  · intro k ack
    obtain ⟨j,ack⟩ := ack
    rcases (under _).mp ack with old | ⟨task,_,same⟩
    · exact .inl ⟨j,old⟩
    · cases same
  · intro _ key owed
    rcases gains_owed mesh gains key owed with old | ⟨plain,same,addressee⟩
    · exact .inl old
    · rw [addressed_peerUuids] at addressee
      obtain ⟨receiver,recipient,named⟩ := List.mem_map.mp addressee
      obtain ⟨known,other,reachable⟩ := mem_recipients.mp recipient
      rw [valid.peers] at known
      rw [valid.localpeer] at other
      obtain ⟨endpoint,others,listed⟩ := List.exists_cons_of_ne_nil reachable
      obtain ⟨_,builds,leads⟩ := mesh.usable i receiver known other endpoint (by rw [listed]; exact List.mem_cons_self)
      have copy := sendToPeers_copy mesh.platform
        ((s.model i).addMessage mesh.platform.binary (addressed predict (s.model i) msg) .sent)
        (addressed predict (s.model i) msg) recipient listed builds
      exact .inr ⟨_,_,(under _).mpr (.inr ⟨_,copy,rfl⟩),plain,same,leads.trans named⟩
  · intro _ key copy
    obtain ⟨j,m,copy,rest⟩ := copy
    exact .inl ⟨j,m,(under _).mpr (.inl copy),rest⟩
  · intro _ key ack
    obtain ⟨j,ack⟩ := ack
    exact .inl ⟨j,(under _).mpr (.inl ack)⟩

theorem chat_gains {mesh : Mesh ι} {s t : State ι} (valid : Consistent mesh s)
    (read : ChatReceived mesh s t index i j m copy tasks) : Gains s t j copy := by
  obtain ⟨tx,rx,status⟩ := read.stamped
  refine ⟨?_,?_,?_⟩
  · intro k other
    rw [State.model,read.node,Function.update_of_ne other]
    rfl
  · intro n
    rw [State.model,read.node,Function.update_self]
    exact mem_addMessage mesh.platform.binary (valid.inOrder j) copy .received
  · intro d member
    rw [deliveries,status] at member
    cases member

theorem chat_step {mesh : Mesh ι} {s t : State ι} (valid : Consistent mesh s)
    (there : s.network[index]? = some ⟨j,.chat m⟩) (read : ChatReceived mesh s t index i j m copy tasks) :
    (ledger mesh s).Step (ledger mesh t) := by
  have gains := chat_gains valid read
  have acked := gains_acked mesh gains
  obtain ⟨tx,rx,status⟩ := read.stamped
  have origin := cargo_origin mesh there read.pending read.network
  have left := cargo_left mesh there read.pending read.network
  have answered : m.text.startsWith (ascii "[ACK]") = false → .ack i m.uuid (mesh.localPeer j).uuid ∈ cargo mesh t := by
    intro plain
    rw [cargo_received mesh read.pending read.network,read.answer,plain]
    exact Multiset.mem_add.mpr (.inl List.mem_cons_self)
  refine ⟨acked.symm.subset,?_,?_,?_,?_,?_,?_,?_⟩
  · intro key entry
    obtain ⟨k,received,decoded,rest⟩ := entry
    refine ⟨k,received,?_,rest⟩
    rw [read.decoded]
    exact List.mem_append_left _ decoded
  · rw [acked]
    exact Set.subset_union_left
  · intro key entry
    obtain ⟨uuid,acker⟩ := key
    obtain ⟨k,ack⟩ := entry
    rcases origin _ ack with answer | old
    · rw [read.answer] at answer
      split at answer
      · cases answer
      · cases List.mem_singleton.mp answer
        refine .inr ⟨j,copy,?_,read.copied.uuid,rfl⟩
        rw [read.decoded]
        exact List.mem_append_right _ List.mem_cons_self
    · exact .inl ⟨k,old⟩
  · simp only [ledger,read.lost]
    exact id
  · intro _ key owed
    rcases gains_owed mesh gains key owed with old | ⟨_,_,addressee⟩
    · exact .inl old
    · rw [peerUuids,deliveries,status] at addressee
      cases addressee
  · intro _ key entry
    obtain ⟨k,n,chat,plain,same,peer⟩ := entry
    rcases left _ chat with frame | rest
    · cases frame
      refine .inr ⟨i,?_⟩
      rw [← same,← peer]
      exact answered plain
    · exact .inl ⟨k,n,rest,plain,same,peer⟩
  · intro _ key entry
    obtain ⟨k,ack⟩ := entry
    rcases left _ ack with frame | rest
    · cases frame
    · exact .inl ⟨k,rest⟩

theorem ack_marks {mesh : Mesh ι} {s : State ι} (valid : Consistent mesh s) (index : Nat) (i : ι) (uuid : Utf8)
    (ackNow : UtcNow) (receivedMsg : ChatMessage) (localPeerUuid : Utf8) (isRead : Bool) (now : UtcNow)
    (receivedOn : Option Endpoint) :
    Marks s (mesh.received s index ⟨i,.ack uuid ackNow receivedMsg localPeerUuid isRead⟩ now receivedOn) i
      receivedMsg.uuid localPeerUuid ackNow.time.floorMillis := by
  obtain ⟨notified,model⟩ := onAckReceived_notified (s.model i) receivedMsg.uuid localPeerUuid isRead
    ackNow.time.floorMillis
  rw [received_ack valid]
  refine ⟨?_,?_⟩
  · intro j other
    simp only [State.model,Function.update_of_ne other]
  · simp only [State.model,Function.update_self] at model ⊢
    rw [model]
    rfl

theorem marks_kept {mesh : Mesh ι} {s t : State ι} (marks : Marks s t i messageUuid ackerUuid ackTime) :
    (ledger mesh s).acked ⊆ (ledger mesh t).acked := by
  intro key entry
  obtain ⟨j,m,inside,same,d,member,peer,acked⟩ := entry
  by_cases here : j = i
  · subst here
    obtain ⟨m',inside',which⟩ := markFirst_image messageUuid ackerUuid ackTime _ m inside
    rw [← marks.messages] at inside'
    rcases which with rfl | rfl
    · exact ⟨j,m',inside',same,d,member,peer,acked⟩
    · obtain ⟨d',member',peer',kept⟩ := markAck_image m ackerUuid ackTime d member
      exact ⟨j,_,inside',by rw [markAck_uuid]; exact same,d',member',peer'.trans peer,kept acked⟩
  · rw [← marks.others j here] at inside
    exact ⟨j,m,inside,same,d,member,peer,acked⟩

theorem marks_only {mesh : Mesh ι} {s t : State ι} (marks : Marks s t i messageUuid ackerUuid ackTime) :
    ∀ key ∈ (ledger mesh t).acked, key ∈ (ledger mesh s).acked ∨ key = (messageUuid,ackerUuid) := by
  intro key entry
  obtain ⟨j,m,inside,same,d,member,peer,acked⟩ := entry
  by_cases here : j = i
  · subst here
    rw [marks.messages] at inside
    rcases markFirst_origin _ _ _ _ m inside with old | ⟨old,there,uuid,rfl⟩
    · exact .inl ⟨j,m,old,same,d,member,peer,acked⟩
    · rw [markAck_uuid] at same
      rcases markAck_origin old ackerUuid ackTime d member with kept | acker
      · exact .inl ⟨j,old,there,same,d,kept,peer,acked⟩
      · exact .inr (Prod.ext (same.symm.trans uuid) (peer.symm.trans acker))
  · rw [marks.others j here] at inside
    exact .inl ⟨j,m,inside,same,d,member,peer,acked⟩

theorem ack_step {mesh : Mesh ι} {s : State ι} (valid : Consistent mesh s)
    (there : s.network[index]? = some ⟨i,.ack uuid ackNow receivedMsg localPeerUuid isRead⟩) (now : UtcNow)
    (receivedOn : Option Endpoint) : (ledger mesh s).Step (ledger mesh
      (mesh.received s index ⟨i,.ack uuid ackNow receivedMsg localPeerUuid isRead⟩ now receivedOn)) := by
  have marks := ack_marks valid index i uuid ackNow receivedMsg localPeerUuid isRead now receivedOn
  have next := received_ack valid index i uuid ackNow receivedMsg localPeerUuid isRead now receivedOn
  have valid' := consistent_received valid there now receivedOn
  generalize mesh.received s index ⟨i,.ack uuid ackNow receivedMsg localPeerUuid isRead⟩ now receivedOn = t at *
  have pending : t.pending = s.pending ++ [] := by rw [next,List.append_nil]
  have network : t.network = s.network.eraseIdx index := by rw [next]
  have origin := cargo_origin mesh there pending network
  have left := cargo_left mesh there pending network
  have under : Cargo.ack i receivedMsg.uuid localPeerUuid ∈ cargo mesh s := cargo_there mesh there
  have decoded : t.decoded = s.decoded := by rw [next]
  have lost : t.lost = s.lost := by rw [next]
  have nodes : ∀ k, letters (t.model k) = letters (s.model k) := by
    intro k
    by_cases here : k = i
    · subst here
      unfold letters
      rw [marks.messages,markFirst_unacked]
    · rw [marks.others k here]
  refine ⟨marks_kept marks,?_,?_,?_,?_,?_,?_,?_⟩
  · simp only [ledger,decoded]
    exact subset_rfl
  · intro key acked
    rcases marks_only marks key acked with old | rfl
    · exact .inl old
    · exact .inr ⟨i,under⟩
  · intro key entry
    obtain ⟨k,ack⟩ := entry
    exact .inl ⟨k,(origin _ ack).resolve_left (by simp)⟩
  · simp only [ledger,lost]
    exact id
  · intro _ key owed
    left
    simpa only [ledger,nodes] using owed
  · intro _ key entry
    obtain ⟨k,m,chat,rest⟩ := entry
    rcases left _ chat with frame | later
    · cases frame
    · exact .inl ⟨k,m,later,rest⟩
  · intro _ key entry
    obtain ⟨messageUuid,ackerUuid⟩ := key
    obtain ⟨k,ack⟩ := entry
    rcases left _ ack with frame | later
    · cases frame
      obtain ⟨m,inside,same,addressed⟩ := valid.acks i _ _ under
      exact .inr (marks_acked valid marks inside same addressed)
    · exact .inl ⟨k,later⟩

theorem step_ledger {mesh : Mesh ι} {s t : State ι} (valid : Consistent mesh s) (taken : mesh.Steps s event t) :
    (ledger mesh s).Step (ledger mesh t) := by
  rcases step_parts taken with ⟨i,uuid,response,text,now,predict,_,fresh,rfl⟩ | ⟨index,uuid,now,i,task,_,there,rfl⟩ |
    ⟨index,now,receivedOn,frame,_,there,rfl⟩ | ⟨index,frame,_,there,rfl⟩ | ⟨index,frame,_,there,rfl⟩ | ⟨i,strat,_,rfl⟩
  · exact send_step valid i _ predict
  · rw [ledger_same mesh (s := s) (t := mesh.emitted s index i task uuid now) (fun _ _ => Iff.rfl)
      (fun c => by rw [cargo_emitted mesh there]) rfl rfl]
    exact .refl _
  · obtain ⟨j,content⟩ := frame
    cases content with
    | chat m =>
      obtain ⟨i,copy,tasks,read⟩ := received_chat valid there now receivedOn
      exact chat_step valid there read
    | ack uuid ackNow receivedMsg localPeerUuid isRead => exact ack_step valid there now receivedOn
  · have same : ∀ c, c ∈ cargo mesh {s with network := frame :: s.network} ↔ c ∈ cargo mesh s := by
      intro c
      rw [cargo_duplicated,cargo_erase mesh there]
      simp
    rw [ledger_same mesh (s := s) (t := {s with network := frame :: s.network}) (fun _ _ => Iff.rfl) same rfl rfl]
    exact .refl _
  · exact lose_step mesh there
  · have same : ∀ k m, m ∈ ((s.sorted i strat).model k).messages ↔ m ∈ (s.model k).messages := by
      intro k m
      by_cases here : k = i
      · subst here
        simp only [State.model,State.sorted,Function.update_self,sortMessages_messages]
        exact (sortBy_perm _ _).mem_iff
      · simp only [State.model,State.sorted,Function.update_of_ne here]
    rw [ledger_same mesh same (fun _ => Iff.rfl) rfl rfl]
    exact .refl _

theorem run_accounted {mesh : Mesh ι} (run : Run mesh.Steps start events s) (fresh : mesh.Start start) :
    Accounted mesh s := by
  have kept : ∀ s event t, Accounted mesh s → mesh.Steps s event t → Accounted mesh t := by
    intro s event t ⟨valid,sound⟩ taken
    exact ⟨step_consistent valid taken,(step_ledger valid taken).sound sound⟩
  exact run.preserves kept ⟨start_consistent fresh,start_sound fresh⟩

structure Grows (mesh : Mesh ι) (s t : State ι) : Prop where
  valid : Consistent mesh t
  letters : ∀ i, letters (s.model i) ⊆ letters (t.model i)
  acked : (ledger mesh s).acked ⊆ (ledger mesh t).acked

theorem run_grows {mesh : Mesh ι} {s t : State ι} (run : Run mesh.Steps s events t) (valid : Consistent mesh s) :
    Grows mesh s t := by
  have climb : ∀ s event t, mesh.Steps s event t → Consistent mesh s → Grows mesh s t := by
    intro s event t taken valid
    exact ⟨step_consistent valid taken,step_letters valid taken,(step_ledger valid taken).kept⟩
  have trans : ∀ s t u, (Consistent mesh s → Grows mesh s t) → (Consistent mesh t → Grows mesh t u) →
      Consistent mesh s → Grows mesh s u := by
    intro s t u first second valid
    have early := first valid
    have late := second early.valid
    exact ⟨late.valid,fun i => Multiset.Subset.trans (early.letters i) (late.letters i),Set.Subset.trans early.acked late.acked⟩
  have refl : ∀ s, Consistent mesh s → Grows mesh s s :=
    fun s valid => ⟨valid,fun _ => Multiset.Subset.refl _,subset_rfl⟩
  exact run.climbs refl trans climb valid

theorem acked_later {mesh : Mesh ι} (valid : Consistent mesh s) (further : Run mesh.Steps s later t)
    (inside : m ∈ (s.model i).messages) (member : d ∈ deliveries m) (acked : d.ackedAt.isSome) :
    ∃ m', withUuid m.uuid (t.model i).messages = [m'] ∧ m'.unacked = m.unacked ∧
      ∀ d' ∈ deliveries m', d'.peerUuid = d.peerUuid → d'.ackedAt.isSome := by
  have grows := run_grows further valid
  have kept := grows.letters i (mem_letters.mpr ⟨m,inside,rfl⟩)
  obtain ⟨m',inside',same⟩ := mem_letters.mp kept
  have uuid : m'.uuid = m.uuid := by rw [← unacked_uuid,same,unacked_uuid]
  have addressed : peerUuids m' ≠ [] := by
    rw [← peerUuids_unacked,same]
    exact addressed_unacked_ne member
  have only := withUuid_only grows.valid inside' addressed
  rw [uuid] at only
  refine ⟨m',only,same,fun d' member' peer => ?_⟩
  apply entry_acked grows.valid inside' member'
  rw [uuid,peer]
  exact grows.acked ⟨i,m,inside,rfl,d,member,rfl,acked⟩

theorem ack_silent {mesh : Mesh ι} (valid : Consistent mesh s)
    (there : s.network[index]? = some ⟨i,.ack uuid ackNow receivedMsg localPeerUuid isRead⟩)
    (taken : mesh.Steps s (.receive index now receivedOn) t) :
    t.pending = s.pending ∧ t.network = s.network.eraseIdx index := by
  have next : t = mesh.received s index ⟨i,.ack uuid ackNow receivedMsg localPeerUuid isRead⟩ now receivedOn := by
    simp only [Mesh.Steps,Mesh.step,there,Option.map_some] at taken
    exact (Option.some.inj taken).symm
  rw [next,received_ack valid]
  exact ⟨rfl,rfl⟩

theorem ack_protocol (mesh : Mesh ι) (fresh : mesh.Start start) (run : Run mesh.Steps start events s) :
    (∀ i, ∀ m ∈ (s.model i).messages, ForOthers mesh i m) ∧
    (∀ i, ∀ m ∈ (s.model i).messages, ∀ d ∈ m.shipmentStatus.deliveries, d.ackedAt.isSome →
      ∃ p copy, (mesh.localPeer p).uuid = d.peerUuid ∧ (p,copy) ∈ s.decoded ∧ CopyOf copy m) ∧
    (∀ later t, Run mesh.Steps s later t →
      ∀ i, ∀ m ∈ (s.model i).messages, ∀ d ∈ m.shipmentStatus.deliveries, d.ackedAt.isSome →
        ∃ m', withUuid m.uuid (t.model i).messages = [m'] ∧ m'.unacked = m.unacked ∧
          ∀ d' ∈ m'.shipmentStatus.deliveries, d'.peerUuid = d.peerUuid → d'.ackedAt.isSome) ∧
    (∀ index now receivedOn t i uuid ackNow receivedMsg localPeerUuid isRead,
      s.network[index]? = some ⟨i,.ack uuid ackNow receivedMsg localPeerUuid isRead⟩ →
      mesh.Steps s (.receive index now receivedOn) t → t.pending = s.pending ∧ t.network = s.network.eraseIdx index) ∧
    (s.pending = [] → s.network = [] → s.lost = [] →
      ∀ i, ∀ m ∈ (s.model i).messages, m.text.startsWith (ascii "[ACK]") = false →
        ∀ d ∈ m.shipmentStatus.deliveries, d.ackedAt.isSome) := by
  have accounted := run_accounted run fresh
  refine ⟨?_,?_,?_,?_,?_⟩
  · intro i m inside
    exact run_others run fresh inside
  · intro i m inside d member acked
    exact acked_decoded accounted inside member acked
  · intro later t further i m inside d member acked
    exact acked_later accounted.valid further inside member acked
  · intro index now receivedOn t i uuid ackNow receivedMsg localPeerUuid isRead there taken
    exact ack_silent accounted.valid there taken
  · intro pending network lost i m inside plain d member
    exact settled_acked accounted pending network lost inside plain member

-- mesh_integration.rs: a message and its ACKs among three nodes over UDP.
def nodePeer : Fin 3 → Peer
  | 0 => ⟨ascii "10",ascii "earth",[.udp (ascii "127.0.0.1:7001")],2⟩
  | 1 => ⟨ascii "20",ascii "moon",[.udp (ascii "127.0.0.1:7002")],3⟩
  | 2 => ⟨ascii "30",ascii "mars",[.udp (ascii "127.0.0.1:7003")],1⟩

def addresses : List Utf8 := [ascii "127.0.0.1:7001",ascii "127.0.0.1:7002",ascii "127.0.0.1:7003"]

def threeNodes : Mesh (Fin 3) where
  platform := ⟨fun address => address ∈ addresses,isUdp,stdSearch⟩
  localPeer := nodePeer
  peers i := ((List.finRange 3).filter fun j => j ≠ i).map nodePeer
  route _ endpoint := ((List.finRange 3).find? fun j => endpoint ∈ (nodePeer j).endpoints).getD 0
  distinct := by
    intro i j
    revert i j
    decide +kernel
  listed := by decide +kernel
  known := by decide +kernel
  reachable := by decide +kernel
  usable := by decide +kernel

def threeStart : State (Fin 3) :=
  ⟨fun i => ⟨threeNodes.controller i,ChatModel.new (threeNodes.peers i) (nodePeer i)⟩,[],[],[],[],[]⟩

def roundTrip : List (Event (Fin 3)) :=
  let now := WireRoundTrip.epoch
  [.send 0 (ascii "m") none (ascii "hello mesh") now fun _ => none,.emit 0 (ascii "") now,.emit 0 (ascii "") now,
    .receive 0 now none,.receive 0 now none,.emit 0 (ascii "a") now,.emit 0 (ascii "b") now,
    .receive 0 now none,.receive 0 now none]

theorem threeStart_start : threeNodes.Start threeStart where
  controller _ := rfl
  localpeer _ := rfl
  peers _ := rfl
  inOrder _ := List.Pairwise.nil
  seeds i m member := by cases member
  pending := rfl
  network := rfl
  lost := rfl
  decoded := rfl

theorem ack_protocol_round_trip : ∃ s, Run threeNodes.Steps threeStart roundTrip s ∧
    (s.model 0).messages.length = 1 ∧ ∀ m ∈ (s.model 0).messages, ∀ d ∈ m.shipmentStatus.deliveries, d.ackedAt.isSome := by
  have done : (follow threeNodes.step threeStart roundTrip).map (fun s => (s.pending.length,s.network.length,s.lost.length,
      (s.model 0).messages.map fun m => m.text.startsWith (ascii "[ACK]"))) = some (0,0,0,[false]) := by decide +kernel
  obtain ⟨s,ended,facts⟩ := Option.map_eq_some_iff.mp done
  simp only [Prod.mk.injEq,List.length_eq_zero_iff] at facts
  obtain ⟨pending,network,lost,texts⟩ := facts
  have run : Run threeNodes.Steps threeStart roundTrip s := Run.of_follow ended
  have counted := congrArg List.length texts
  rw [List.length_map] at counted
  refine ⟨s,run,counted,fun m inside => ?_⟩
  have plain : m.text.startsWith (ascii "[ACK]") = false := by
    have text : m.text.startsWith (ascii "[ACK]") ∈ [false] := texts ▸ List.mem_map_of_mem inside
    exact List.mem_singleton.mp text
  exact (ack_protocol threeNodes threeStart_start run).2.2.2.2 pending network lost 0 m inside plain

end DTChat.MeshRun
