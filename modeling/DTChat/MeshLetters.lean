import DTChat.MeshModel
import DTChat.NodeLetters

namespace DTChat.MeshLetters
open ClockTime Utf8Text PeerMessages ProtoMessages WireCodec WireRoundTrip WireFraming SortedInsert ChatModels MessageOrder
  AckMarks SocketControllers MessagePrompts NodeLetters MeshModel

variable {ι : Type}

-- What is under way to a node, still to be put on a socket or in the network.
inductive Cargo (ι : Type) where
  | chat (dst : ι) (message : ChatMessage)
  | ack (dst : ι) (messageUuid ackerUuid : Utf8)

def frameCargo (frame : Frame ι) : Cargo ι :=
  match frame.content with
  | .chat message => .chat frame.dst message
  | .ack _ _ receivedMsg localPeerUuid _ => .ack frame.dst receivedMsg.uuid localPeerUuid

def taskCargo (mesh : Mesh ι) : ι × SendTask → Cargo ι
  | (i,.chat task) => .chat (mesh.route i task.endpoint) task.message
  | (i,.ack task) => .ack (mesh.route i task.endpoint) task.receivedMsg.uuid task.localPeerUuid

def cargo (mesh : Mesh ι) (s : State ι) : Multiset (Cargo ι) :=
  (s.pending.map (taskCargo mesh) : Multiset (Cargo ι)) + (s.network.map frameCargo : Multiset (Cargo ι))

theorem map_eraseIdx {xs : List α} (there : xs[index]? = some x) (f : α → β) :
    ((xs.map f : List β) : Multiset β) = f x ::ₘ ((xs.eraseIdx index).map f : List β) := by
  obtain ⟨inside,rfl⟩ := List.getElem?_eq_some_iff.mp there
  apply Multiset.coe_eq_coe.mpr
  exact ((List.getElem_cons_eraseIdx_perm inside).symm.map f)

theorem cargo_erase (mesh : Mesh ι) {s : State ι} (there : s.network[index]? = some frame) :
    cargo mesh s = frameCargo frame ::ₘ cargo mesh {s with network := s.network.eraseIdx index} := by
  unfold cargo
  rw [map_eraseIdx there,Multiset.add_cons]

theorem cargo_there (mesh : Mesh ι) {s : State ι} {index : Nat} (there : s.network[index]? = some frame) :
    frameCargo frame ∈ cargo mesh s := by
  rw [cargo_erase mesh there]
  exact Multiset.mem_cons_self _ _

theorem cargo_rest (mesh : Mesh ι) {s : State ι} (there : s.network[index]? = some frame) :
    cargo mesh {s with network := s.network.eraseIdx index} ⊆ cargo mesh s := by
  rw [cargo_erase mesh there]
  exact Multiset.subset_of_le (Multiset.le_cons_self _ _)

theorem cargo_received (mesh : Mesh ι) {s t : State ι} (pending : t.pending = s.pending ++ tasks)
    (network : t.network = s.network.eraseIdx index) : cargo mesh t =
      (tasks.map (taskCargo mesh) : Multiset (Cargo ι)) + cargo mesh {s with network := s.network.eraseIdx index} := by
  unfold cargo
  rw [pending,network,List.map_append,← Multiset.coe_add]
  abel

theorem cargo_origin (mesh : Mesh ι) {s t : State ι} (there : s.network[index]? = some frame)
    (pending : t.pending = s.pending ++ tasks) (network : t.network = s.network.eraseIdx index) :
    ∀ c ∈ cargo mesh t, c ∈ tasks.map (taskCargo mesh) ∨ c ∈ cargo mesh s := by
  intro c under
  rw [cargo_received mesh pending network] at under
  rw [cargo_erase mesh there]
  exact (Multiset.mem_add.mp under).imp id Multiset.mem_cons_of_mem

theorem cargo_left (mesh : Mesh ι) {s t : State ι} (there : s.network[index]? = some frame)
    (pending : t.pending = s.pending ++ tasks) (network : t.network = s.network.eraseIdx index) :
    ∀ c ∈ cargo mesh s, c = frameCargo frame ∨ c ∈ cargo mesh t := by
  intro c under
  rw [cargo_erase mesh there] at under
  rw [cargo_received mesh pending network]
  exact (Multiset.mem_cons.mp under).imp id fun rest => Multiset.mem_add.mpr (.inr rest)

theorem cargo_duplicated (mesh : Mesh ι) (s : State ι) (frame : Frame ι) :
    cargo mesh {s with network := frame :: s.network} = frameCargo frame ::ₘ cargo mesh s := by
  unfold cargo
  rw [List.map_cons,← Multiset.cons_coe,Multiset.add_cons]

theorem cargo_emitted [DecidableEq ι] (mesh : Mesh ι) {s : State ι} (there : s.pending[index]? = some (i,task)) (uuid : Utf8)
    (now : UtcNow) : cargo mesh (mesh.emitted s index i task uuid now) = cargo mesh s := by
  have same : frameCargo ⟨mesh.route i task.endpoint,task.frame uuid now⟩ = taskCargo mesh (i,task) := by
    cases task <;> rfl
  unfold cargo Mesh.emitted
  rw [map_eraseIdx there,List.map_cons,same,← Multiset.cons_coe,Multiset.add_cons,Multiset.cons_add]

structure SentFrom (mesh : Mesh ι) (i : ι) (m : ChatMessage) : Prop where
  sender : m.sender = mesh.localPeer i
  stamped : m.shipmentStatus.txTime.Regular
  others : (mesh.localPeer i).uuid ∉ peerUuids m
  distinct : (peerUuids m).Nodup

structure CopyOf (copy m : ChatMessage) : Prop where
  uuid : copy.uuid = m.uuid
  response : copy.response = m.response
  sender : copy.sender.uuid = m.sender.uuid
  text : copy.text = m.text

-- Who holds which message, and what the copies and ACKs under way and the copies
-- already decoded go back to.
structure Consistent (mesh : Mesh ι) (s : State ι) : Prop where
  controller : ∀ i, (s.node i).controller = mesh.controller i
  localpeer : ∀ i, (s.model i).localpeer = mesh.localPeer i
  peers : ∀ i, (s.model i).peers = mesh.peers i
  inOrder : ∀ i, InOrder (s.model i)
  used : ∀ i, ∀ m ∈ letters (s.model i), m.uuid ∈ s.used
  sent : ∀ i, ∀ m ∈ letters (s.model i), peerUuids m ≠ [] → SentFrom mesh i m
  once : ∀ i, ∀ m ∈ letters (s.model i), peerUuids m ≠ [] → ((letters (s.model i)).filter fun n => n.uuid = m.uuid) = {m}
  apart : ∀ i j, ∀ m ∈ letters (s.model i), ∀ n ∈ letters (s.model j), peerUuids m ≠ [] → peerUuids n ≠ [] →
    m.uuid = n.uuid → i = j
  chats : ∀ j m, .chat j m ∈ cargo mesh s → ∃ i, m ∈ letters (s.model i) ∧ (mesh.localPeer j).uuid ∈ peerUuids m
  acks : ∀ i uuid acker, .ack i uuid acker ∈ cargo mesh s → ∃ m ∈ letters (s.model i), m.uuid = uuid ∧ acker ∈ peerUuids m
  copies : ∀ j copy, (j,copy) ∈ s.decoded →
    ∃ i, ∃ m ∈ letters (s.model i), (mesh.localPeer j).uuid ∈ peerUuids m ∧ CopyOf copy m

theorem letter_unique {mesh : Mesh ι} {s : State ι} (valid : Consistent mesh s) (inside : m ∈ letters (s.model i))
    (inside' : n ∈ letters (s.model j)) (addressed : peerUuids m ≠ []) (addressed' : peerUuids n ≠ [])
    (same : m.uuid = n.uuid) : i = j ∧ m = n := by
  have here := valid.apart i j m inside n inside' addressed addressed' same
  subst here
  refine ⟨rfl,?_⟩
  have picked : m ∈ (letters (s.model i)).filter fun k => k.uuid = n.uuid := Multiset.mem_filter.mpr ⟨inside,same⟩
  rw [valid.once i n inside' addressed'] at picked
  exact Multiset.mem_singleton.mp picked

theorem start_consistent {mesh : Mesh ι} (start : mesh.Start s) : Consistent mesh s := by
  have seeds : ∀ i, ∀ m ∈ letters (s.model i), m.uuid ∈ s.used ∧ peerUuids m = [] := by
    intro i m member
    obtain ⟨message,inside,rfl⟩ := mem_letters.mp member
    obtain ⟨used,tx,rx,received⟩ := start.seeds i message inside
    rw [unacked_received received]
    exact ⟨used,by simp [peerUuids,deliveries,received,MessageStatus.deliveries]⟩
  have idle : cargo mesh s = 0 := by simp [cargo,start.pending,start.network]
  refine ⟨start.controller,start.localpeer,start.peers,start.inOrder,?_,?_,?_,?_,?_,?_,?_⟩
  · exact fun i m member => (seeds i m member).1
  · exact fun i m member addressed => absurd (seeds i m member).2 addressed
  · exact fun i m member addressed => absurd (seeds i m member).2 addressed
  · exact fun i j m member n _ addressed => absurd (seeds i m member).2 addressed
  · intro j m under
    rw [idle] at under
    cases under
  · intro i uuid acker under
    rw [idle] at under
    cases under
  · intro j copy decoded
    rw [start.decoded] at decoded
    cases decoded

theorem consistent_quiet {mesh : Mesh ι} {s t : State ι} (valid : Consistent mesh s)
    (nodes : ∀ i, Follows (s.node i) (t.node i) 0) (used : t.used = s.used) (decoded : t.decoded = s.decoded)
    (shrunk : cargo mesh t ⊆ cargo mesh s) : Consistent mesh t := by
  have same : ∀ i, letters (t.model i) = letters (s.model i) := fun i => by
    rw [State.model,(nodes i).letters (valid.inOrder i),zero_add]
    rfl
  refine ⟨?_,?_,?_,?_,?_,?_,?_,?_,?_,?_,?_⟩
  · exact fun i => (nodes i).controller.trans (valid.controller i)
  · exact fun i => (nodes i).localpeer.trans (valid.localpeer i)
  · exact fun i => (nodes i).peers.trans (valid.peers i)
  · exact fun i => (nodes i).inOrder (valid.inOrder i)
  all_goals simp only [same,used,decoded]
  · exact valid.used
  · exact valid.sent
  · exact valid.once
  · exact valid.apart
  · exact fun j m under => valid.chats j m (shrunk under)
  · exact fun i uuid acker under => valid.acks i uuid acker (shrunk under)
  · exact valid.copies

theorem recipients_distinct (mesh : Mesh ι) {model : ChatModel} (localpeer : model.localpeer = mesh.localPeer i)
    (peers : model.peers = mesh.peers i) : ((recipients model).map Peer.uuid).Nodup := by
  rw [List.nodup_iff_count_le_one]
  intro uuid
  by_cases inside : uuid ∈ (recipients model).map Peer.uuid
  · obtain ⟨p,recipient,rfl⟩ := List.mem_map.mp inside
    obtain ⟨listed,other,_⟩ := mem_recipients.mp recipient
    rw [peers] at listed
    rw [localpeer] at other
    obtain ⟨j,named⟩ := mesh.known i p listed
    have apart : j ≠ i := by rintro rfl; exact other named
    have once := mesh.listed i j apart
    have part : (recipients model).Sublist (mesh.peers i) := by rw [← peers]; exact List.filter_sublist
    calc ((recipients model).map Peer.uuid).count p.uuid
        ≤ ((mesh.peers i).map Peer.uuid).count p.uuid := (part.map _).count_le _
      _ = ((mesh.peers i).filter fun q => q.uuid = (mesh.localPeer j).uuid).length := by
        rw [named,List.count,List.countP_map,List.countP_eq_length_filter]
        rfl
      _ ≤ 1 := once.le
  · rw [List.count_eq_zero_of_not_mem inside]
    exact Nat.zero_le 1

theorem task_addressee {mesh : Mesh ι} {s : State ι} (valid : Consistent mesh s)
    (task : ChatTask) (spawned : task ∈ (manageSend mesh.platform predict (s.model i) msg).2) :
    task.message = addressed predict (s.model i) msg ∧
      (mesh.localPeer (mesh.route i task.endpoint)).uuid ∈ peerUuids (addressed predict (s.model i) msg) := by
  obtain ⟨same,receiver,recipient,listed⟩ := sendToPeers_tasks _ _ _ _ task spawned
  obtain ⟨known,other,_⟩ := mem_recipients.mp recipient
  rw [valid.peers] at known
  rw [valid.localpeer] at other
  obtain ⟨_,_,leads⟩ := mesh.usable i receiver known other _ listed
  rw [addressed_peerUuids,leads]
  exact ⟨same,List.mem_map_of_mem recipient⟩

theorem findPeer_listed (mesh : Mesh ι) (apart : i ≠ j) :
    ∃ p ∈ mesh.peers j, findPeerById (mesh.peers j) (mesh.localPeer i).uuid = some p ∧ p.uuid = (mesh.localPeer i).uuid := by
  have once := mesh.listed j i apart
  obtain ⟨q,member⟩ := List.exists_mem_of_length_pos (by rw [once]; exact Nat.zero_lt_one)
  obtain ⟨listed,named⟩ := List.mem_filter.mp member
  have sought : ((mesh.peers j).find? fun p => p.uuid = (mesh.localPeer i).uuid).isSome :=
    List.find?_isSome.mpr ⟨q,listed,named⟩
  obtain ⟨p,found⟩ := Option.isSome_iff_exists.mp sought
  exact ⟨p,List.mem_of_find?_eq_some found,found,findPeer_uuid found⟩

theorem sendAck_answers (mesh : Mesh ι) (apart : i ≠ j) {copy : ChatMessage}
    (sender : copy.sender.uuid = (mesh.localPeer i).uuid) (receivedOn : Option Endpoint) :
    (mesh.controller j).sendAckIfNeeded mesh.platform copy receivedOn = none ∧
      copy.text.startsWith (ascii "[ACK]") = true ∨
    ∃ endpoint, (mesh.controller j).sendAckIfNeeded mesh.platform copy receivedOn =
      some ⟨endpoint,copy,(mesh.localPeer j).uuid,false⟩ ∧
      copy.text.startsWith (ascii "[ACK]") = false ∧ mesh.route j endpoint = i := by
  obtain ⟨p,listed,found,named⟩ := findPeer_listed mesh apart
  have other : p.uuid ≠ (mesh.localPeer j).uuid := fun same => apart (mesh.distinct (named.symm.trans same))
  cases text : copy.text.startsWith (ascii "[ACK]") with
  | true => exact .inl ⟨by simp [SocketController.sendAckIfNeeded,text],rfl⟩
  | false =>
    right
    obtain ⟨endpoint,inside⟩ := List.exists_mem_of_ne_nil _ (mesh.reachable j p listed other)
    obtain ⟨chosen,choice⟩ := chooseAckEndpoint_some receivedOn inside (mesh.usable j p listed other endpoint inside).1
    obtain ⟨_,builds,leads⟩ := mesh.usable j p listed other chosen (chooseAckEndpoint_listed choice)
    have sought : (mesh.peers j).find? (fun q => q.uuid = copy.sender.uuid) = some p := by rw [sender]; exact found
    refine ⟨chosen,?_,rfl,mesh.distinct (leads.trans named)⟩
    unfold SocketController.sendAckIfNeeded
    rw [if_neg (by rw [text]; exact Bool.false_ne_true)]
    simp only [Mesh.controller,SocketController.addObserver,SocketController.setPeers,SocketController.setLocalPeer]
    rw [sought]
    simp only [choice,builds,↓reduceIte]

variable [DecidableEq ι]

theorem follows_update {s : State ι} {added : Multiset ChatMessage} (follows : Follows (s.node k) node added) (i : ι) :
    Follows (s.node i) (Function.update s.node k node i) (if i = k then added else 0) := by
  by_cases here : i = k
  · subst here
    rw [Function.update_self,if_pos rfl]
    exact follows
  · rw [Function.update_of_ne here,if_neg here]
    exact follows_refl _

-- An event that adds one message at one node. A message with addressees is new to
-- all nodes; one without is no copy of the node's own.
theorem consistent_added {mesh : Mesh ι} {s t : State ι} (valid : Consistent mesh s) (k : ι) (new : ChatMessage)
    (nodes : ∀ i, Follows (s.node i) (t.node i) (if i = k then {new} else 0))
    (used : s.used ⊆ t.used) (recorded : new.uuid ∈ t.used)
    (sent : peerUuids new ≠ [] → SentFrom mesh k new ∧ ∀ i, ∀ m ∈ letters (s.model i), m.uuid ≠ new.uuid)
    (foreign : ∀ m ∈ letters (s.model k), peerUuids m ≠ [] → m.uuid ≠ new.uuid)
    (chats : ∀ j m, .chat j m ∈ cargo mesh t → .chat j m ∈ cargo mesh s ∨ m = new ∧ (mesh.localPeer j).uuid ∈ peerUuids new)
    (acks : ∀ i uuid acker, .ack i uuid acker ∈ cargo mesh t → .ack i uuid acker ∈ cargo mesh s ∨
      ∃ m ∈ letters (s.model i), m.uuid = uuid ∧ acker ∈ peerUuids m)
    (copies : ∀ j copy, (j,copy) ∈ t.decoded → (j,copy) ∈ s.decoded ∨
      ∃ i, ∃ m ∈ letters (s.model i), (mesh.localPeer j).uuid ∈ peerUuids m ∧ CopyOf copy m) : Consistent mesh t := by
  have gained : ∀ i, letters (t.model i) = (if i = k then {new} else 0) + letters (s.model i) :=
    fun i => (nodes i).letters (valid.inOrder i)
  have member : ∀ i m, m ∈ letters (t.model i) ↔ (i = k ∧ m = new) ∨ m ∈ letters (s.model i) := by
    intro i m
    rw [gained]
    split <;> simp [*]
  have kept : ∀ {i m}, m ∈ letters (s.model i) → m ∈ letters (t.model i) := fun inside => (member _ _).mpr (.inr inside)
  refine ⟨?_,?_,?_,?_,?_,?_,?_,?_,?_,?_,?_⟩
  · exact fun i => (nodes i).controller.trans (valid.controller i)
  · exact fun i => (nodes i).localpeer.trans (valid.localpeer i)
  · exact fun i => (nodes i).peers.trans (valid.peers i)
  · exact fun i => (nodes i).inOrder (valid.inOrder i)
  · intro i m inside
    rcases (member i m).mp inside with ⟨_,rfl⟩ | old
    · exact recorded
    · exact used (valid.used i m old)
  · intro i m inside addressed
    rcases (member i m).mp inside with ⟨rfl,rfl⟩ | old
    · exact (sent addressed).1
    · exact valid.sent i m old addressed
  · intro i m inside addressed
    rw [gained,Multiset.filter_add]
    rcases (member i m).mp inside with ⟨rfl,rfl⟩ | old
    · have none_old := Multiset.filter_eq_nil.mpr ((sent addressed).2 i)
      simp only [↓reduceIte,none_old,Multiset.filter_singleton,add_zero]
    · rw [valid.once i m old addressed]
      split
      · rename_i here
        subst here
        have other : ¬new.uuid = m.uuid := fun same => foreign m old addressed same.symm
        simp [Multiset.filter_singleton,other]
      · simp
  · intro i j m inside n inside' addressed addressed' same
    rcases (member i m).mp inside with ⟨rfl,rfl⟩ | old
    · rcases (member j n).mp inside' with ⟨rfl,_⟩ | old'
      · rfl
      · exact absurd same.symm ((sent addressed).2 j n old')
    · rcases (member j n).mp inside' with ⟨rfl,rfl⟩ | old'
      · exact absurd same ((sent addressed').2 i m old)
      · exact valid.apart i j m old n old' addressed addressed' same
  · intro j m under
    rcases chats j m under with old | ⟨rfl,addressed⟩
    · obtain ⟨i,inside,addressed⟩ := valid.chats j m old
      exact ⟨i,kept inside,addressed⟩
    · exact ⟨k,(member k m).mpr (.inl ⟨rfl,rfl⟩),addressed⟩
  · intro i uuid acker under
    rcases acks i uuid acker under with old | ⟨m,inside,rest⟩
    · obtain ⟨m,inside,rest⟩ := valid.acks i uuid acker old
      exact ⟨m,kept inside,rest⟩
    · exact ⟨m,kept inside,rest⟩
  · intro j copy decoded
    rcases copies j copy decoded with old | ⟨i,m,inside,rest⟩
    · obtain ⟨i,m,inside,rest⟩ := valid.copies j copy old
      exact ⟨i,m,kept inside,rest⟩
    · exact ⟨i,m,kept inside,rest⟩

theorem cargo_sent (mesh : Mesh ι) (s : State ι) (i : ι) (msg : ChatMessage) (predict : Peer → Option DateTime) :
    ∀ c, c ∈ cargo mesh (mesh.sent s i msg predict) ↔ c ∈ cargo mesh s ∨
      ∃ task ∈ (manageSend mesh.platform predict (s.model i) msg).2, c = .chat (mesh.route i task.endpoint) task.message := by
  intro c
  simp only [cargo,Mesh.sent,List.map_append,List.map_map,Multiset.mem_add,Multiset.mem_coe,List.mem_append,
    List.mem_map,Function.comp,taskCargo,eq_comm]
  exact or_right_comm

theorem sent_follows (mesh : Mesh ι) (s : State ι) (i : ι) (msg : ChatMessage) (predict : Peer → Option DateTime) (k : ι) :
    Follows (s.node k) ((mesh.sent s i msg predict).node k)
      (if k = i then {addressed predict (s.model i) msg} else 0) := by
  obtain ⟨notified,model⟩ := manageSend_model mesh.platform predict (s.model i) msg
  have follows := follows_update
    (follows_addMessage mesh.platform.binary (s.node i) (addressed predict (s.model i) msg) .sent notified) k
  rw [addressed_unacked,← State.model,← model] at follows
  exact follows

theorem consistent_sent {mesh : Mesh ι} {s : State ι} (valid : Consistent mesh s) {msg : ChatMessage}
    (fresh : msg.uuid ∉ s.used) (sender : msg.sender = mesh.localPeer i) (stamped : msg.shipmentStatus.txTime.Regular)
    (predict : Peer → Option DateTime) : Consistent mesh (mesh.sent s i msg predict) := by
  have unknown : ∀ j, ∀ m ∈ letters (s.model j), m.uuid ≠ msg.uuid := by
    intro j m inside same
    exact fresh (same ▸ valid.used j m inside)
  apply consistent_added valid i (addressed predict (s.model i) msg)
  · exact sent_follows mesh s i msg predict
  · exact List.subset_cons_self _ _
  · exact List.mem_cons_self
  · intro _
    refine ⟨⟨sender,stamped,?_,?_⟩,unknown⟩
    · rw [addressed_peerUuids]
      intro own
      obtain ⟨p,recipient,same⟩ := List.mem_map.mp own
      have other := (mem_recipients.mp recipient).2.1
      rw [valid.localpeer] at other
      exact other same
    · rw [addressed_peerUuids]
      exact recipients_distinct mesh (valid.localpeer i) (valid.peers i)
  · exact fun m inside _ => unknown i m inside
  · intro j m under
    rcases (cargo_sent mesh s i msg predict _).mp under with old | ⟨task,spawned,same⟩
    · exact .inl old
    · obtain ⟨message,leads⟩ := task_addressee valid task spawned
      cases same
      exact .inr ⟨message,leads⟩
  · intro j uuid acker under
    rcases (cargo_sent mesh s i msg predict _).mp under with old | ⟨task,_,same⟩
    · exact .inl old
    · cases same
  · exact fun j copy decoded => .inl decoded

structure ChatReceived (mesh : Mesh ι) (s t : State ι) (index : Nat) (i j : ι) (m copy : ChatMessage)
    (tasks : List (ι × SendTask)) : Prop where
  inside : m ∈ letters (s.model i)
  addressed : (mesh.localPeer j).uuid ∈ peerUuids m
  apart : i ≠ j
  copied : CopyOf copy m
  stamped : ∃ tx rx, copy.shipmentStatus = .received tx rx
  node : t.node = Function.update s.node j
    {s.node j with model := (s.model j).addMessage mesh.platform.binary copy .received}
  pending : t.pending = s.pending ++ tasks
  network : t.network = s.network.eraseIdx index
  lost : t.lost = s.lost
  used : t.used = s.used
  decoded : t.decoded = s.decoded ++ [(j,copy)]
  answer : tasks.map (taskCargo mesh) =
    if m.text.startsWith (ascii "[ACK]") then [] else [.ack i m.uuid (mesh.localPeer j).uuid]

theorem received_chat {mesh : Mesh ι} {s : State ι} (valid : Consistent mesh s)
    (there : s.network[index]? = some ⟨j,.chat m⟩) (now : UtcNow) (receivedOn : Option Endpoint) :
    ∃ i copy tasks, ChatReceived mesh s (mesh.received s index ⟨j,.chat m⟩ now receivedOn) index i j m copy tasks := by
  have under : Cargo.chat j m ∈ cargo mesh s := cargo_there mesh there
  obtain ⟨i,inside,addressed⟩ := valid.chats j m under
  have sent := valid.sent i m inside (List.ne_nil_of_mem addressed)
  have apart : i ≠ j := by rintro rfl; exact sent.others addressed
  obtain ⟨p,listed,found,named⟩ := findPeer_listed mesh apart
  have stamp := DateTime.millis_regular sent.stamped
  have controller := valid.controller j
  let copy := WireRoundTrip.received m (mesh.peers j) m.shipmentStatus.txTime.floorMillis now
  have read : s.read now ⟨j,.chat m⟩ = some (.chatMessage copy) := by
    have peers : (s.node j).controller.peers = mesh.peers j := by rw [controller]; rfl
    rw [State.read,peers]
    simp only [SentFrame.proto,extract_chat,stamp,Option.map_some]
    rfl
  have sender : copy.sender.uuid = (mesh.localPeer i).uuid := by
    simp only [copy,WireRoundTrip.received,sent.sender,found,Option.getD_some]
    exact named
  have observed : (s.node j).controller.observers = [.chatModel] := by rw [controller]; rfl
  have handled := notifyObservers_only observed mesh.platform copy
  have answer : ∃ tasks, ((mesh.controller j).sendAckIfNeeded mesh.platform copy receivedOn).toList.map
      (fun task => (j,SendTask.ack task)) = tasks ∧ tasks.map (taskCargo mesh) =
        if m.text.startsWith (ascii "[ACK]") then [] else [.ack i m.uuid (mesh.localPeer j).uuid] := by
    refine ⟨_,rfl,?_⟩
    rcases sendAck_answers mesh apart sender receivedOn with ⟨silent,text⟩ | ⟨endpoint,answers,text,leads⟩
    · have same : m.text.startsWith (ascii "[ACK]") = true := text
      rw [silent,same]
      rfl
    · have same : m.text.startsWith (ascii "[ACK]") = false := text
      rw [answers,same,← leads]
      rfl
  obtain ⟨tasks,same,under⟩ := answer
  refine ⟨i,copy,tasks,inside,addressed,apart,⟨rfl,rfl,?_,rfl⟩,⟨_,_,rfl⟩,?_,?_,rfl,rfl,rfl,?_,under⟩
  · rw [sender,sent.sender]
  · simp only [Mesh.received,read,Node.handleDeserialized,handled]
    rfl
  · simp only [Mesh.received,read,Node.handleDeserialized,controller,same]
  · simp only [Mesh.received,read,readChat,List.map_cons,List.map_nil]

theorem received_ack {mesh : Mesh ι} {s : State ι} (valid : Consistent mesh s) (index : Nat) (i : ι) (uuid : Utf8)
    (ackNow : UtcNow) (receivedMsg : ChatMessage) (localPeerUuid : Utf8) (isRead : Bool) (now : UtcNow)
    (receivedOn : Option Endpoint) :
    mesh.received s index ⟨i,.ack uuid ackNow receivedMsg localPeerUuid isRead⟩ now receivedOn =
      {s with
        node := Function.update s.node i {s.node i with
          model := (s.model i).onAckReceived receivedMsg.uuid localPeerUuid isRead ackNow.time.floorMillis}
        network := s.network.eraseIdx index} := by
  have observed : (s.node i).controller.observers = [.chatModel] := by rw [valid.controller]; rfl
  have handled := handleAckReceived_only observed receivedMsg.uuid localPeerUuid isRead ackNow.time.floorMillis
  simp only [Mesh.received,State.read,SentFrame.proto,extract_ack,Node.handleDeserialized,handled,readChat,
    Option.toList_none,List.map_nil,List.append_nil]
  rfl

theorem chat_follows {mesh : Mesh ι} {s t : State ι} (read : ChatReceived mesh s t index i j m copy tasks) (k : ι) :
    Follows (s.node k) (t.node k) (if k = j then {copy} else 0) := by
  obtain ⟨tx,rx,status⟩ := read.stamped
  have follows := follows_addMessage mesh.platform.binary (s.node j) copy .received
    ((s.node j).model.addMessage mesh.platform.binary copy .received).notified
  rw [unacked_received status] at follows
  rw [read.node]
  exact follows_update follows k

theorem ack_follows {mesh : Mesh ι} {s : State ι} (valid : Consistent mesh s) (index : Nat) (i : ι) (uuid : Utf8)
    (ackNow : UtcNow) (receivedMsg : ChatMessage) (localPeerUuid : Utf8) (isRead : Bool) (now : UtcNow)
    (receivedOn : Option Endpoint) (k : ι) : Follows (s.node k)
      ((mesh.received s index ⟨i,.ack uuid ackNow receivedMsg localPeerUuid isRead⟩ now receivedOn).node k) 0 := by
  have nodes := follows_update
    (follows_onAckReceived (s.node i) receivedMsg.uuid localPeerUuid isRead ackNow.time.floorMillis) k
  rw [ite_self] at nodes
  rw [received_ack valid]
  exact nodes

theorem sorted_follows (s : State ι) (i : ι) (strat : SortStrategy) (k : ι) :
    Follows (s.node k) ((s.sorted i strat).node k) 0 := by
  have nodes := follows_update (follows_sortMessages (s.node i) strat) k
  rw [ite_self] at nodes
  exact nodes

theorem consistent_received {mesh : Mesh ι} {s : State ι} (valid : Consistent mesh s)
    (there : s.network[index]? = some frame) (now : UtcNow) (receivedOn : Option Endpoint) :
    Consistent mesh (mesh.received s index frame now receivedOn) := by
  obtain ⟨j,content⟩ := frame
  cases content with
  | chat m =>
    obtain ⟨i,copy,tasks,read⟩ := received_chat valid there now receivedOn
    obtain ⟨tx,rx,status⟩ := read.stamped
    have unaddressed : peerUuids copy = [] := by simp [peerUuids,deliveries,status,MessageStatus.deliveries]
    have addressed := List.ne_nil_of_mem read.addressed
    have origin := cargo_origin mesh there read.pending read.network
    rw [read.answer] at origin
    apply consistent_added valid j copy
    · exact chat_follows read
    · rw [read.used]; exact List.Subset.refl _
    · rw [read.used,read.copied.uuid]
      exact valid.used i m read.inside
    · exact fun some => absurd unaddressed some
    · intro n inside own same
      exact read.apart (valid.apart i j m read.inside n inside addressed own (same.trans read.copied.uuid).symm)
    · intro k n under
      rcases origin _ under with answer | old
      · split at answer
        · cases answer
        · cases List.mem_singleton.mp answer
      · exact .inl old
    · intro k uuid acker under
      rcases origin _ under with answer | old
      · split at answer
        · cases answer
        · cases List.mem_singleton.mp answer
          exact .inr ⟨m,read.inside,rfl,read.addressed⟩
      · exact .inl old
    · intro k received decoded
      rw [read.decoded] at decoded
      rcases List.mem_append.mp decoded with old | latest
      · exact .inl old
      · cases List.mem_singleton.mp latest
        exact .inr ⟨i,m,read.inside,read.addressed,read.copied⟩
  | ack uuid ackNow receivedMsg localPeerUuid isRead =>
    have nodes := ack_follows valid index j uuid ackNow receivedMsg localPeerUuid isRead now receivedOn
    rw [received_ack valid] at nodes ⊢
    exact consistent_quiet valid nodes rfl rfl (cargo_rest mesh there)

theorem step_consistent {mesh : Mesh ι} {s t : State ι} (valid : Consistent mesh s) (taken : mesh.Steps s event t) :
    Consistent mesh t := by
  rcases step_parts taken with ⟨i,uuid,response,text,now,predict,_,fresh,rfl⟩ | ⟨index,uuid,now,i,task,_,there,rfl⟩ |
    ⟨index,now,receivedOn,frame,_,there,rfl⟩ | ⟨index,frame,_,there,rfl⟩ | ⟨index,frame,_,there,rfl⟩ | ⟨i,strat,_,rfl⟩
  · have stamped : (mesh.prompted i uuid response text now).shipmentStatus.txTime.Regular := now.regular
    exact consistent_sent valid fresh rfl stamped predict
  · refine consistent_quiet valid (fun k => follows_refl _) rfl rfl ?_
    rw [cargo_emitted mesh there]
    exact Multiset.Subset.refl _
  · exact consistent_received valid there now receivedOn
  · refine consistent_quiet valid (fun k => follows_refl _) rfl rfl ?_
    rw [cargo_duplicated]
    intro c under
    rcases Multiset.mem_cons.mp under with rfl | old
    · exact cargo_there mesh there
    · exact old
  · exact consistent_quiet valid (fun k => follows_refl _) rfl rfl (cargo_rest mesh there)
  · exact consistent_quiet valid (sorted_follows s i strat) rfl rfl (Multiset.Subset.refl _)

theorem step_follows {mesh : Mesh ι} {s t : State ι} (valid : Consistent mesh s) (taken : mesh.Steps s event t) (k : ι) :
    ∃ added, Follows (s.node k) (t.node k) added := by
  rcases step_parts taken with ⟨i,uuid,response,text,now,predict,_,_,rfl⟩ | ⟨index,uuid,now,i,task,_,there,rfl⟩ |
    ⟨index,now,receivedOn,⟨j,content⟩,_,there,rfl⟩ | ⟨index,frame,_,_,rfl⟩ | ⟨index,frame,_,_,rfl⟩ | ⟨i,strat,_,rfl⟩
  · exact ⟨_,sent_follows mesh s i _ predict k⟩
  · exact ⟨0,follows_refl _⟩
  · cases content with
    | chat m =>
      obtain ⟨i,copy,tasks,read⟩ := received_chat valid there now receivedOn
      exact ⟨_,chat_follows read k⟩
    | ack uuid ackNow receivedMsg localPeerUuid isRead =>
      exact ⟨0,ack_follows valid index j uuid ackNow receivedMsg localPeerUuid isRead now receivedOn k⟩
  · exact ⟨0,follows_refl _⟩
  · exact ⟨0,follows_refl _⟩
  · exact ⟨0,sorted_follows s i strat k⟩

theorem step_letters {mesh : Mesh ι} {s t : State ι} (valid : Consistent mesh s) (taken : mesh.Steps s event t) (k : ι) :
    letters (s.model k) ⊆ letters (t.model k) := by
  obtain ⟨added,follows⟩ := step_follows valid taken k
  have gained : letters (t.model k) = added + letters (s.model k) := follows.letters (valid.inOrder k)
  rw [gained]
  exact Multiset.subset_of_le (Multiset.le_add_left _ _)

end DTChat.MeshLetters
