import DTChat.TimelineRows
import DTChat.StartupAcks
import DTChat.Lib.Grouping

namespace DTChat.TimelineSeries
open ClockTime Utf8Text PeerMessages WireCodec SortedInsert ChatModels MessageOrder SocketControllers MessagePrompts
  NodeLetters NodeRun Runs Grouping TimelineRows

-- main.rs: the messages a node starts with. chrono panics on a date out of its range.
def addSeconds (t : UtcNow) (seconds : Int) : Option UtcNow :=
  if range : minSecs ≤ t.time.secs+seconds ∧ t.time.secs+seconds ≤ maxSecs then
    some ⟨⟨t.time.secs+seconds,t.time.nanos,range,t.time.nanos_range⟩,t.regular⟩
  else none

def pick (localPeer : Peer) (sharedPeers : List Peer) (i : Nat) : Peer := sharedPeers[i]?.getD localPeer

def demo (localPeer : Peer) (sharedPeers : List Peer) : List (Peer × Utf8 × Int) :=
  [(localPeer,ascii "Hello from local peer",10),
    (pick localPeer sharedPeers 2,ascii "Bob at your service !",30),
    (pick localPeer sharedPeers 0,ascii "Hello local peer, how are you?",10),
    (pick localPeer sharedPeers 0,ascii "I'm john does",10),
    (localPeer,ascii "Hello john doe, Some news from alice ?",10),
    (pick localPeer sharedPeers 1,ascii "Sorry, I'm a bit late!",12)]

def gaps : List Int := [0,2,1,2,13,5]

def seedFrom (uuids : Nat → Utf8) (now : UtcNow) (n : Nat) : List ((Peer × Utf8 × Int) × Int) → Option (List ChatMessage)
  | [] => some []
  | ((sender,text,rxOffset),gap) :: rest =>
    (addSeconds now gap).bind fun now => (addSeconds now rxOffset).bind fun rx =>
      (seedFrom uuids now (n+1) rest).map (⟨uuids n,none,sender,text,.received now.time rx.time⟩ :: ·)

def seedDemoMessages (uuids : Nat → Utf8) (now : UtcNow) (localPeer : Peer) (sharedPeers : List Peer) :
    Option (List ChatMessage) :=
  (addSeconds now (-40)).bind fun now => seedFrom uuids now 0 ((demo localPeer sharedPeers).zip gaps)

def placed (uuid : Utf8) (model : ChatModel) : List BoxElem :=
  ((timeline model).zipIdx.filter fun bar => bar.1.peerUuid = uuid).map fun bar => bar.1.elem bar.2

-- One series for each peer that has a bar, under its name and in its colour, with its bars in message order.
-- No bar is too short. In the live view none ends right of the window, and one ends left of it exactly if
-- the current time or the end of another bar lies more than the window's width after its end; the
-- line of the current time is in the window unless a bar ends that much after it.
structure PeerTimeline (known : List Peer) (now : UtcNow) (model : ChatModel) : Prop where
  oneEach : (keys (layOut now model).series).Nodup
  legend : ∀ uuid serie, (uuid,serie) ∈ (layOut now model).series ↔ placed uuid model ≠ [] ∧
    ∃ peer ∈ known, peer.uuid = uuid ∧ serie = ⟨peer.name,getColor peer,placed uuid model⟩
  colored : ∀ peer ∈ known, ∀ elem ∈ placed peer.uuid model, elem.color = getColor peer
  long : ∀ bar ∈ timeline model, bar.startMs+minBarMs ≤ bar.endMs
  right : ∀ bar ∈ timeline model, bar.endMs ≤ (layOut now model).xHi now
  left : ∀ bar ∈ timeline model, bar.endMs < (layOut now model).xLo now ↔
    bar.endMs+windowDurationMs < millis now.time ∨ ∃ other ∈ timeline model, bar.endMs+windowDurationMs < other.endMs
  live : (layOut now model).xLo now ≤ millis now.time ∧ millis now.time ≤ (layOut now model).xHi now ↔
    ∀ bar ∈ timeline model, bar.endMs ≤ millis now.time+windowDurationMs

theorem pushBar_upsert (bar : Bar) (row : ℚ) (series : List (Utf8 × Series)) :
    pushBar bar row series = upsert bar.peerUuid ⟨bar.peerName,bar.color,[]⟩
      (fun serie => {serie with elems := serie.elems ++ [bar.elem row]}) series := by
  induction series with
  | nil => rfl
  | cons entry rest ih =>
    obtain ⟨uuid,serie⟩ := entry
    rw [pushBar,upsert,ih]

def seriesOf (bars : List (Bar × Nat)) (series : List (Utf8 × Series)) : List (Utf8 × Series) :=
  gather (fun bar => bar.1.peerUuid) (fun bar => ⟨bar.1.peerName,bar.1.color,[]⟩)
    (fun bar serie => {serie with elems := serie.elems ++ [bar.1.elem bar.2]}) bars series

theorem place_series (bars : List Bar) (layout : Layout) (next : Nat) (here : layout.row = next) :
    (bars.foldl Layout.place layout).series = seriesOf (bars.zipIdx next) layout.series := by
  induction bars generalizing layout next with
  | nil => rfl
  | cons bar rest ih =>
    have advanced : (layout.place bar).row = (next+1 : Nat) := by
      simp only [Layout.place,here,Nat.cast_add,Nat.cast_one]
    rw [List.foldl_cons,ih (layout.place bar) (next+1) advanced,List.zipIdx_cons]
    simp only [seriesOf,gather,List.foldl_cons,Layout.place,pushBar_upsert,here]

theorem layOut_series (now : UtcNow) (model : ChatModel) :
    (layOut now model).series = seriesOf (timeline model).zipIdx [] := by
  rw [layOut_timeline]
  exact place_series _ _ 0 rfl

theorem series_once (now : UtcNow) (model : ChatModel) : (keys (layOut now model).series).Nodup := by
  rw [layOut_series]
  exact gather_nodup _ _ _ _ List.nodup_nil

theorem append_elems (bars : List (Bar × Nat)) (serie : Series) :
    bars.foldl (fun serie bar => {serie with elems := serie.elems ++ [bar.1.elem bar.2]}) serie =
      {serie with elems := serie.elems ++ bars.map fun bar => bar.1.elem bar.2} := by
  induction bars generalizing serie with
  | nil => simp
  | cons bar rest ih => simp [ih]

theorem series_iff (now : UtcNow) (model : ChatModel) (uuid : Utf8) (serie : Series) :
    (uuid,serie) ∈ (layOut now model).series ↔
      ∃ first later, ((timeline model).zipIdx.filter fun bar => bar.1.peerUuid = uuid) = first :: later ∧
        serie = ⟨first.1.peerName,first.1.color,placed uuid model⟩ := by
  rw [mem_entries_iff (series_once now model),layOut_series,seriesOf,gather_value,placed]
  cases (timeline model).zipIdx.filter fun bar => decide (bar.1.peerUuid = uuid) with
  | nil => simp
  | cons first later =>
    simp only [append_elems,List.nil_append,List.cons.injEq,Option.some.injEq,List.map_cons,List.singleton_append]
    constructor
    · rintro rfl
      exact ⟨first,later,⟨rfl,rfl⟩,rfl⟩
    · rintro ⟨_,_,⟨rfl,rfl⟩,rfl⟩
      rfl

theorem place_end (bars : List Bar) (layout : Layout) (bound : ℚ) :
    (bars.foldl Layout.place layout).maxEndMs ≤ bound ↔ layout.maxEndMs ≤ bound ∧ ∀ bar ∈ bars, bar.endMs ≤ bound := by
  induction bars generalizing layout with
  | nil => simp
  | cons bar rest ih =>
    rw [List.foldl_cons,ih,List.forall_mem_cons]
    simp only [Layout.place,max_le_iff,and_assoc]

theorem layOut_end (now : UtcNow) (model : ChatModel) (bound : ℚ) : (layOut now model).maxEndMs ≤ bound ↔
    millis now.time ≤ bound ∧ ∀ bar ∈ timeline model, bar.endMs ≤ bound := by
  rw [layOut_timeline]
  exact place_end _ _ _

theorem bar_long {colors : Utf8 → Color} (inside : bar ∈ bars colors message) : bar.startMs+minBarMs ≤ bar.endMs := by
  unfold bars at inside
  split at inside
  · rw [List.mem_singleton.mp inside]
    exact le_max_right _ _
  · obtain ⟨delivery,_,rfl⟩ := List.mem_map.mp inside
    exact le_max_right _ _

theorem bars_long (model : ChatModel) : ∀ bar ∈ timeline model, bar.startMs+minBarMs ≤ bar.endMs := by
  intro bar inside
  obtain ⟨message,_,drawn⟩ := List.mem_flatMap.mp inside
  exact bar_long drawn

theorem window_right (now : UtcNow) (model : ChatModel) : ∀ bar ∈ timeline model, bar.endMs ≤ (layOut now model).xHi now := by
  intro bar inside
  have ends := ((layOut_end now model (layOut now model).maxEndMs).mp le_rfl).2 bar inside
  exact ends.trans (le_max_right _ _)

theorem window_left (now : UtcNow) (model : ChatModel) (point : ℚ) : (layOut now model).xLo now ≤ point ↔
    millis now.time ≤ point+windowDurationMs ∧ ∀ bar ∈ timeline model, bar.endMs ≤ point+windowDurationMs := by
  rw [Layout.xLo,sub_le_iff_le_add,Layout.xHi,max_le_iff,layOut_end]
  exact ⟨And.right,fun ends => ⟨ends.1,ends⟩⟩

theorem window_passed (now : UtcNow) (model : ChatModel) (point : ℚ) : point < (layOut now model).xLo now ↔
    point+windowDurationMs < millis now.time ∨ ∃ bar ∈ timeline model, point+windowDurationMs < bar.endMs := by
  rw [← not_le,window_left,not_and_or]
  simp

theorem window_line (now : UtcNow) (model : ChatModel) :
    (layOut now model).xLo now ≤ millis now.time ∧ millis now.time ≤ (layOut now model).xHi now ↔
      ∀ bar ∈ timeline model, bar.endMs ≤ millis now.time+windowDurationMs := by
  have wide : millis now.time ≤ millis now.time+windowDurationMs := by norm_num [windowDurationMs]
  have right : millis now.time ≤ (layOut now model).xHi now := le_max_left _ _
  rw [and_iff_left right,window_left]
  exact and_iff_right wide

-- A message that names a known peer: its sender, or the peer of each delivery.
def Credited (localPeer : Peer) (peers : List Peer) (message : ChatMessage) : Prop :=
  match message.shipmentStatus with
  | .received _ _ => message.sender ∈ Peer.default :: localPeer :: peers
  | .sent _ deliveries => ∀ d ∈ deliveries, ∃ peer ∈ peers, d.peerUuid = peer.uuid ∧ d.peerName = peer.name

theorem credited_unacked : Credited localPeer peers message.unacked ↔ Credited localPeer peers message := by
  unfold ChatMessage.unacked
  split
  · rename_i status
    simp [Credited,status,Delivery.unacked]
  · rfl

structure Credits (localPeer : Peer) (peers : List Peer) (node : Node) : Prop where
  owner : node.model.localpeer = localPeer
  shared : node.model.peers = peers
  listed : node.controller.peers = peers
  messages : ∀ message ∈ node.model.messages, Credited localPeer peers message

theorem credits_follows {a b : Node} {added : Multiset ChatMessage} (credits : Credits localPeer peers a)
    (ordered : InOrder a.model) (follows : Follows a b added) (fresh : ∀ m ∈ added, Credited localPeer peers m) :
    Credits localPeer peers b := by
  refine ⟨follows.localpeer.trans credits.owner,follows.peers.trans credits.shared,?_,?_⟩
  · rw [follows.controller]
    exact credits.listed
  · intro message inside
    have letter : message.unacked ∈ letters b.model := mem_letters.mpr ⟨message,inside,rfl⟩
    rw [follows.letters ordered] at letter
    rcases Multiset.mem_add.mp letter with new | old
    · exact credited_unacked.mp (fresh _ new)
    · obtain ⟨before,there,same⟩ := mem_letters.mp old
      exact credited_unacked.mp (same ▸ credited_unacked.mpr (credits.messages before there))

theorem deserialize_sender (decoded : deserializeMessage now payload peers = some (.chatMessage message)) :
    message.sender ∈ Peer.default :: peers := by
  obtain ⟨proto,_,extracted⟩ := Option.bind_eq_some_iff.mp decoded
  have found : (findPeerById peers proto.senderUuid).getD .default ∈ Peer.default :: peers := by
    cases lookup : findPeerById peers proto.senderUuid with
    | none => exact List.mem_cons_self
    | some peer => exact List.mem_cons_of_mem _ (List.mem_of_find?_eq_some lookup)
  unfold extractMessageFromProto at extracted
  simp only at extracted
  split at extracted
  · cases extracted
  all_goals obtain ⟨tx,_,same⟩ := Option.map_eq_some_iff.mp extracted
  · cases same
  all_goals cases same; exact found

theorem decoded_credited (decoded : deserializeMessage now payload peers = some (.chatMessage message)) :
    Credited localPeer peers message := by
  obtain ⟨tx,received⟩ := deserialize_received decoded
  simp only [Credited,received]
  rcases List.mem_cons.mp (deserialize_sender decoded) with default | listed
  · rw [default]
    exact List.mem_cons_self
  · exact List.mem_cons_of_mem _ (List.mem_cons_of_mem _ listed)

theorem handle_credits {node : Node} (credits : Credits localPeer peers node) (observed : Observed node)
    (ordered : InOrder node.model) (platform : Platform) (endpoint : Option Endpoint) (now : UtcNow) (payload : List UInt8) :
    Credits localPeer peers
      (node.handleDeserialized platform endpoint (deserializeMessage now payload node.controller.peers)).1 := by
  cases decoded : deserializeMessage now payload node.controller.peers with
  | none => exact credits
  | some read =>
    cases read with
    | chatMessage message =>
      rcases observed with deaf | heard
      · simpa [Node.handleDeserialized,Node.notifyObservers,deaf] using credits
      · simp only [Node.handleDeserialized,notifyObservers_only heard]
        refine credits_follows credits ordered (follows_addMessage platform.binary node message .received _) ?_
        intro m member
        rw [Multiset.mem_singleton.mp member,credited_unacked]
        exact decoded_credited (credits.listed ▸ decoded)
    | ack messageUuid isRead ackTime ackerUuid =>
      rcases observed with deaf | heard
      · simpa [Node.handleDeserialized,Node.handleAckReceived,deaf] using credits
      · simp only [Node.handleDeserialized,handleAckReceived_only heard]
        exact credits_follows credits ordered (follows_onAckReceived node _ _ _ _) fun m member => by simp at member

theorem addressed_credited (credits : Credits localPeer peers node) (predict : Peer → Option DateTime) (msg : ChatMessage) :
    Credited localPeer peers (addressed predict node.model msg) := by
  simp only [Credited,addressed]
  intro d member
  obtain ⟨peer,recipient,rfl⟩ := List.mem_map.mp member
  exact ⟨peer,credits.shared ▸ (mem_recipients.mp recipient).1,rfl,rfl⟩

theorem step_credits {platform : Platform} {s t : Machine} (wired : Wired s) (credits : Credits localPeer peers s.node)
    (taken : Steps platform s event t) : Credits localPeer peers t.node := by
  rcases step_parts taken with ⟨endpoint,later,bound,_,_,rfl⟩ | ⟨_,_,rfl⟩ | ⟨listener,payload,_,rfl⟩ |
    ⟨task,now,peerAddr,listener,payload,_,_,_,rfl⟩ | ⟨uuid,text,now,predict,_,rfl⟩ | ⟨strat,_,rfl⟩
  · exact credits
  · exact ⟨credits.owner,credits.shared,credits.listed,credits.messages⟩
  · exact credits
  · exact handle_credits credits wired.observed wired.inOrder platform _ now payload
  · obtain ⟨notified,model⟩ := manageSend_model platform predict s.node.model
      ⟨uuid,none,s.node.model.localpeer,text,.sent now.time []⟩
    have follows := follows_addMessage platform.binary s.node
      (addressed predict s.node.model ⟨uuid,none,s.node.model.localpeer,text,.sent now.time []⟩) .sent notified
    rw [← model] at follows
    refine credits_follows credits wired.inOrder follows ?_
    intro m member
    rw [Multiset.mem_singleton.mp member,credited_unacked]
    exact addressed_credited credits predict _
  · exact credits_follows credits wired.inOrder (follows_sortMessages s.node strat) fun m member => by simp at member

theorem seedFrom_senders (seeds : seedFrom uuids now n entries = some messages) : ∀ m ∈ messages,
    (∃ tx rx, m.shipmentStatus = .received tx rx) ∧ ∃ entry ∈ entries, m.sender = entry.1.1 := by
  induction entries generalizing now n messages with
  | nil =>
    cases Option.some.inj seeds
    exact fun m member => by cases member
  | cons entry rest ih =>
    obtain ⟨⟨sender,text,rxOffset⟩,gap⟩ := entry
    obtain ⟨later,_,seeds⟩ := Option.bind_eq_some_iff.mp seeds
    obtain ⟨rx,_,seeds⟩ := Option.bind_eq_some_iff.mp seeds
    obtain ⟨others,seeded,rfl⟩ := Option.map_eq_some_iff.mp seeds
    intro m member
    rcases List.mem_cons.mp member with rfl | member
    · exact ⟨⟨_,_,rfl⟩,_,List.mem_cons_self,rfl⟩
    · obtain ⟨received,entry,inside,same⟩ := ih seeded m member
      exact ⟨received,entry,List.mem_cons_of_mem _ inside,same⟩

theorem pick_mem (localPeer : Peer) (sharedPeers : List Peer) (i : Nat) :
    pick localPeer sharedPeers i ∈ localPeer :: sharedPeers := by
  unfold pick
  cases there : sharedPeers[i]? with
  | none => exact List.mem_cons_self
  | some peer => exact List.mem_cons_of_mem _ (List.mem_of_getElem? there)

theorem demo_senders (localPeer : Peer) (sharedPeers : List Peer) :
    ∀ entry ∈ demo localPeer sharedPeers, entry.1 ∈ localPeer :: sharedPeers := by
  have picked := pick_mem localPeer sharedPeers
  simp only [demo,List.forall_mem_cons]
  exact ⟨List.mem_cons_self,picked 2,picked 0,picked 0,List.mem_cons_self,picked 1,fun entry member => by cases member⟩

theorem boot_credits (seeds : seedDemoMessages uuids start localPeer peers = some seed) :
    Credits localPeer peers (boot localPeer peers seed).node := by
  refine ⟨rfl,rfl,rfl,fun message inside => ?_⟩
  have member : message ∈ seed := by
    simp only [boot,seeded,sortMessages_messages] at inside
    exact (sortBy_perm _ _).mem_iff.mp inside
  obtain ⟨now,_,seeds⟩ := Option.bind_eq_some_iff.mp seeds
  obtain ⟨⟨tx,rx,received⟩,entry,paired,sender⟩ := seedFrom_senders seeds message member
  have listed := demo_senders localPeer peers entry.1 (List.of_mem_zip paired).1
  simp only [Credited,received,sender]
  exact List.mem_cons_of_mem _ listed

def Distinct (known : List Peer) : Prop := (known.map Peer.uuid).Nodup

theorem same_peer {known : List Peer} (distinct : Distinct known) (first : p ∈ known) (second : q ∈ known)
    (same : p.uuid = q.uuid) : p = q := List.inj_on_of_nodup_map distinct first second same

theorem colorOf_peer {model : ChatModel} (distinct : Distinct (Peer.default :: model.localpeer :: model.peers))
    (listed : peer ∈ model.peers) : colorOf model peer.uuid = getColor peer := by
  have known : ∀ p ∈ model.peers ++ [model.localpeer], p ∈ Peer.default :: model.localpeer :: model.peers := by
    intro p inside
    rcases List.mem_append.mp inside with shared | owner
    · exact List.mem_cons_of_mem _ (List.mem_cons_of_mem _ shared)
    · rw [List.mem_singleton.mp owner]
      exact List.mem_cons_of_mem _ List.mem_cons_self
  unfold colorOf
  cases lookup : (model.peers ++ [model.localpeer]).find? fun p => p.uuid = peer.uuid with
  | none =>
    have missed := List.find?_eq_none.mp lookup peer (List.mem_append_left _ listed)
    simp at missed
  | some found =>
    have same : found.uuid = peer.uuid := by simpa using List.find?_some lookup
    have one := same_peer distinct (known found (List.mem_of_find?_eq_some lookup))
      (known peer (List.mem_append_left _ listed)) same
    simp [one]

theorem bar_credited (distinct : Distinct (Peer.default :: localPeer :: peers)) (credits : Credits localPeer peers node)
    (inside : bar ∈ timeline node.model) : ∃ peer ∈ Peer.default :: localPeer :: peers,
      bar.peerUuid = peer.uuid ∧ bar.peerName = peer.name ∧ bar.color = getColor peer := by
  obtain ⟨message,member,drawn⟩ := List.mem_flatMap.mp inside
  have credited := credits.messages message member
  unfold bars at drawn
  unfold Credited at credited
  split at drawn
  · rename_i status
    simp only [status] at credited
    rw [List.mem_singleton.mp drawn]
    exact ⟨message.sender,credited,rfl,rfl,rfl⟩
  · rename_i status
    simp only [status] at credited
    obtain ⟨delivery,sent,rfl⟩ := List.mem_map.mp drawn
    obtain ⟨peer,listed,uuid,name⟩ := credited delivery sent
    refine ⟨peer,List.mem_cons_of_mem _ (List.mem_cons_of_mem _ listed),uuid,name,?_⟩
    rw [← credits.owner,← credits.shared] at distinct
    simp only [deliveryBar,uuid]
    exact colorOf_peer distinct (credits.shared ▸ listed)

theorem placed_bar (inside : elem ∈ placed uuid model) :
    ∃ bar ∈ timeline model, bar.peerUuid = uuid ∧ elem.color = bar.color := by
  obtain ⟨bar,chosen,rfl⟩ := List.mem_map.mp inside
  obtain ⟨numbered,same⟩ := List.mem_filter.mp chosen
  exact ⟨bar.1,(List.mem_zipIdx' numbered).2 ▸ List.getElem_mem _,of_decide_eq_true same,rfl⟩

theorem first_bar (chosen : ((timeline model).zipIdx.filter fun bar => bar.1.peerUuid = uuid) = first :: later) :
    first.1 ∈ timeline model ∧ first.1.peerUuid = uuid := by
  have inside : first ∈ (timeline model).zipIdx.filter fun bar => bar.1.peerUuid = uuid := chosen ▸ List.mem_cons_self
  obtain ⟨numbered,same⟩ := List.mem_filter.mp inside
  exact ⟨(List.mem_zipIdx' numbered).2 ▸ List.getElem_mem _,of_decide_eq_true same⟩

theorem timeline_by_peer (distinct : Distinct (Peer.default :: localPeer :: peers))
    (seeds : seedDemoMessages uuids start localPeer peers = some seed)
    (run : Run (Steps platform) (boot localPeer peers seed) events s) (now : UtcNow) :
    PeerTimeline (Peer.default :: localPeer :: peers) now s.node.model := by
  have kept : ∀ a event b, Wired a ∧ Credits localPeer peers a.node → Steps platform a event b →
      Wired b ∧ Credits localPeer peers b.node :=
    fun a event b both taken => ⟨(step_wired both.1 taken).1,step_credits both.1 both.2 taken⟩
  have credits := (run.preserves kept ⟨boot_wired localPeer peers seed,boot_credits seeds⟩).2
  have credited : ∀ bar ∈ timeline s.node.model, _ := fun bar inside => bar_credited distinct credits inside
  refine ⟨series_once now _,fun uuid serie => ?_,?_,bars_long _,window_right now _,fun _ _ => window_passed now _ _,
    window_line now _⟩
  · rw [series_iff]
    constructor
    · rintro ⟨first,later,chosen,rfl⟩
      obtain ⟨drawn,here⟩ := first_bar chosen
      obtain ⟨peer,known,same,name,color⟩ := credited first.1 drawn
      refine ⟨by simp [placed,chosen],peer,known,same.symm.trans here,?_⟩
      rw [name,color]
    · rintro ⟨nonempty,peer,known,same,rfl⟩
      cases chosen : (timeline s.node.model).zipIdx.filter fun bar => decide (bar.1.peerUuid = uuid) with
      | nil => simp [placed,chosen] at nonempty
      | cons first later =>
        obtain ⟨drawn,here⟩ := first_bar chosen
        obtain ⟨other,listed,uuid,name,color⟩ := credited first.1 drawn
        have one := same_peer distinct listed known (uuid.symm.trans (here.trans same.symm))
        refine ⟨first,later,rfl,?_⟩
        rw [name,color,one]
  · intro peer listed elem inside
    obtain ⟨bar,drawn,same,color⟩ := placed_bar inside
    obtain ⟨other,known,uuid,_,painted⟩ := credited bar drawn
    rw [color,painted,same_peer distinct known listed (uuid.symm.trans same)]

def greetings : List ChatMessage :=
  (seedDemoMessages (fun n => ascii (Nat.repr n)) WireRoundTrip.epoch earth [moon]).getD []

def morning : List NodeEvent := StartupAcks.timely ++ [.send (ascii "morning") (ascii "hi") WireRoundTrip.epoch fun _ => none]

theorem timeline_by_peer_morning : ∃ s, Run (Steps loopback) (boot earth [moon] greetings) morning s ∧
    PeerTimeline [.default,earth,moon] WireRoundTrip.epoch s.node.model := by
  have seeds : seedDemoMessages (fun n => ascii (Nat.repr n)) WireRoundTrip.epoch earth [moon] = some greetings := by
    decide +kernel
  have through : (follow (step loopback) (boot earth [moon] greetings) morning).isSome = true := by decide +kernel
  obtain ⟨s,ended⟩ := Option.isSome_iff_exists.mp through
  have run : Run (Steps loopback) (boot earth [moon] greetings) morning s := Run.of_follow ended
  have distinct : Distinct [.default,earth,moon] := by
    unfold Distinct
    decide +kernel
  exact ⟨s,run,timeline_by_peer distinct seeds run WireRoundTrip.epoch⟩

end DTChat.TimelineSeries
