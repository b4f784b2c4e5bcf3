import DTChat.MeshRun

namespace DTChat.MeshTraffic
open ClockTime Utf8Text PeerMessages WireCodec WireFraming ChatModels SocketControllers MessagePrompts
open MeshModel MeshLetters MeshAddressees MeshRun Runs

variable {ι : Type}

-- The steps that a task or a frame can still cause: a copy is emitted and received, and so is its ACK.
def taskBurden : ι × SendTask → Nat
  | (_,.chat _) => 4
  | (_,.ack _) => 2

def frameBurden (frame : Frame ι) : Nat :=
  match frame.content with
  | .chat _ => 3
  | .ack _ _ _ _ _ => 1

def burden (s : State ι) : Nat := (s.pending.map taskBurden).sum + (s.network.map frameBurden).sum

theorem idle_burden {s : State ι} (pending : s.pending = []) (network : s.network = []) : burden s = 0 := by
  simp [burden,pending,network]

def effort : Event ι → Nat
  | .emit _ _ _ => 1
  | .receive _ _ _ => 1
  | .lose _ => 1
  | _ => 0

def income (nodes : Nat) : Event ι → Nat
  | .send _ _ _ _ _ _ => 4*(nodes-1)
  | .duplicate _ => 3
  | _ => 0

def carries : Event ι → Prop
  | .emit _ _ _ => True
  | .receive _ _ _ => True
  | _ => False

theorem sum_erase {xs : List α} (there : xs[index]? = some x) (f : α → Nat) :
    (xs.map f).sum = f x + ((xs.eraseIdx index).map f).sum := by
  have same := congrArg Multiset.sum (map_eraseIdx there f)
  simpa using same

theorem sendToPeers_length (platform : Platform) (model : ChatModel) (msg : ChatMessage) (receivers : List Peer) :
    (sendToPeers platform model msg receivers).2.length ≤ receivers.length := by
  induction receivers generalizing model with
  | nil => exact Nat.le_refl _
  | cons receiver later ih =>
    have one : (sendToPeer platform model msg receiver).2.toList.length ≤ 1 := Option.length_toList_le
    have rest := ih (sendToPeer platform model msg receiver).1
    simp only [sendToPeers,List.length_append,List.length_cons]
    omega

theorem answers_less (mesh : Mesh ι) (s : State ι) (frame : Frame ι) (now : UtcNow) (receivedOn : Option Endpoint) :
    2*((s.node frame.dst).handleDeserialized mesh.platform receivedOn (s.read now frame)).2.toList.length + 1 ≤
      frameBurden frame := by
  obtain ⟨dst,content⟩ := frame
  cases content with
  | chat message =>
    have one : ((s.node dst).handleDeserialized mesh.platform receivedOn (s.read now ⟨dst,.chat message⟩)).2.toList.length ≤ 1 :=
      Option.length_toList_le
    simp only [frameBurden]
    omega
  | ack uuid ackNow receivedMsg localPeerUuid isRead =>
    have silent : ((s.node dst).handleDeserialized mesh.platform receivedOn
        (s.read now ⟨dst,.ack uuid ackNow receivedMsg localPeerUuid isRead⟩)).2 = none := by
      simp only [State.read,SentFrame.proto,createAckMessage,extractMessageFromProto]
      cases DateTime.timestampMillisOpt ackNow.time.timestampMillis <;> rfl
    rw [silent]
    exact Nat.le_refl 1

theorem carries_quiet (nodes : Nat) (carried : carries event) : effort event = 1 ∧ income nodes event = 0 := by
  cases event <;> simp_all [carries,effort,income]

variable [DecidableEq ι]

theorem carries_on (mesh : Mesh ι) {s : State ι} (busy : ¬(s.pending = [] ∧ s.network = [])) :
    ∃ event t, carries event ∧ mesh.Steps s event t := by
  cases pending : s.pending with
  | cons first later =>
    obtain ⟨i,task⟩ := first
    refine ⟨.emit 0 .empty WireRoundTrip.epoch,mesh.emitted s 0 i task .empty WireRoundTrip.epoch,trivial,?_⟩
    simp only [Mesh.Steps,Mesh.step,pending,List.getElem?_cons_zero,Option.map_some]
  | nil =>
    cases network : s.network with
    | cons frame later =>
      refine ⟨.receive 0 WireRoundTrip.epoch none,mesh.received s 0 frame WireRoundTrip.epoch none,trivial,?_⟩
      simp only [Mesh.Steps,Mesh.step,network,List.getElem?_cons_zero,Option.map_some]
    | nil => exact absurd ⟨pending,network⟩ busy

theorem carries_lost {mesh : Mesh ι} {s t : State ι} (carried : carries event) (taken : mesh.Steps s event t) : t.lost = s.lost := by
  obtain ⟨i,uuid,response,text,now,predict,rfl,_,rfl⟩ | ⟨index,uuid,now,i,task,rfl,there,rfl⟩ |
    ⟨index,now,receivedOn,frame,rfl,there,rfl⟩ | ⟨index,frame,rfl,there,rfl⟩ | ⟨index,frame,rfl,there,rfl⟩ |
    ⟨i,strat,rfl,rfl⟩ := step_parts taken
  all_goals first | rfl | cases carried

variable [Fintype ι]

theorem step_burden {mesh : Mesh ι} {s t : State ι} (valid : Consistent mesh s) (taken : mesh.Steps s event t) :
    effort event + burden t ≤ burden s + income (Fintype.card ι) event := by
  obtain ⟨i,uuid,response,text,now,predict,rfl,_,rfl⟩ | ⟨index,uuid,now,i,task,rfl,there,rfl⟩ |
    ⟨index,now,receivedOn,frame,rfl,there,rfl⟩ | ⟨index,frame,rfl,there,rfl⟩ | ⟨index,frame,rfl,there,rfl⟩ |
    ⟨i,strat,rfl,rfl⟩ := step_parts taken
  · have others := recipients_length valid i
    have tasks := sendToPeers_length mesh.platform ((s.model i).addMessage mesh.platform.binary
      (addressed predict (s.model i) (mesh.prompted i uuid response text now)) .sent)
      (addressed predict (s.model i) (mesh.prompted i uuid response text now)) (recipients (s.model i))
    have four : ∀ tasks : List ChatTask, ((tasks.map fun task => (i,SendTask.chat task)).map taskBurden).sum = 4*tasks.length := by
      intro tasks
      simp [Function.comp_def,taskBurden,Nat.mul_comm]
    simp only [burden,Mesh.sent,List.map_append,List.sum_append,four,effort,income,manageSend]
    omega
  · have less := sum_erase there taskBurden
    have same : frameBurden ⟨mesh.route i task.endpoint,task.frame uuid now⟩ + 1 = taskBurden (i,task) := by
      cases task <;> rfl
    simp only [burden,Mesh.emitted,List.map_cons,List.sum_cons,effort,income]
    omega
  · have less := sum_erase there frameBurden
    have answers := answers_less mesh s frame now receivedOn
    have two : ∀ tasks : List AckTask, ((tasks.map fun task => (frame.dst,SendTask.ack task)).map taskBurden).sum = 2*tasks.length := by
      intro tasks
      simp [Function.comp_def,taskBurden,Nat.mul_comm]
    simp only [burden,Mesh.received,List.map_append,List.sum_append,two,effort,income]
    omega
  · have three : frameBurden frame ≤ 3 := by
      obtain ⟨dst,content⟩ := frame
      cases content <;> simp [frameBurden]
    simp only [burden,List.map_cons,List.sum_cons,effort,income]
    omega
  · have less := sum_erase there frameBurden
    have some_left : 1 ≤ frameBurden frame := by
      obtain ⟨dst,content⟩ := frame
      cases content <;> simp [frameBurden]
    simp only [burden,effort,income]
    omega
  · simp only [burden,State.sorted,effort,income]
    omega

theorem step_accounted {mesh : Mesh ι} {s t : State ι} (accounted : Accounted mesh s) (taken : mesh.Steps s event t) :
    Accounted mesh t ∧ effort event + burden t ≤ burden s + income (Fintype.card ι) event :=
  ⟨⟨step_consistent accounted.valid taken,(step_ledger accounted.valid taken).sound accounted.sound⟩,
    step_burden accounted.valid taken⟩

theorem carried_run {mesh : Mesh ι} {s t : State ι} (accounted : Accounted mesh s) (run : Run mesh.Steps s later t)
    (all : ∀ event ∈ later, carries event) : Accounted mesh t ∧ later.length + burden t ≤ burden s ∧ t.lost = s.lost := by
  have guarded := run.guarded all
  have kept : ∀ u event v, u.lost = s.lost → carries event ∧ mesh.Steps u event v → v.lost = s.lost :=
    fun u event v before taken => (carries_lost taken.1 taken.2).trans before
  have lost := guarded.preserves kept rfl
  obtain ⟨there,paid⟩ := run.spends (fun _ _ _ => step_accounted) accounted
  have efforts : (later.map effort).sum = later.length := by
    rw [List.map_congr_left fun event member => (carries_quiet 0 (all event member)).1]
    simp
  have incomes : (later.map (income (Fintype.card ι))).sum = 0 := by
    rw [List.map_congr_left fun event member => (carries_quiet _ (all event member)).2]
    simp
  rw [efforts,incomes] at paid
  exact ⟨there,paid,lost⟩

-- Traffic is no more than what users and the network bring in: four steps for each copy of a message, three for
-- each repetition. From any state that is reached nodes and network carry it to its end, in
-- whatever order they go on, and there every delivery is acked unless a frame was lost.
theorem mesh_settles (mesh : Mesh ι) (fresh : mesh.Start start) (run : Run mesh.Steps start events s) :
    (events.map effort).sum + burden s ≤ (events.map (income (Fintype.card ι))).sum ∧
    (∃ later t, Run mesh.Steps s later t ∧ (∀ event ∈ later, carries event) ∧ t.pending = [] ∧ t.network = []) ∧
    ∀ later t, Run mesh.Steps s later t → (∀ event ∈ later, carries event) →
      later.length + burden t ≤ burden s ∧
      ((∀ event u, carries event → ¬mesh.Steps t event u) → s.lost = [] →
        ∀ i, ∀ m ∈ (t.model i).messages, m.text.startsWith (ascii "[ACK]") = false →
          ∀ d ∈ m.shipmentStatus.deliveries, d.ackedAt.isSome) := by
  have accounted := run_accounted run fresh
  refine ⟨?_,?_,fun later t further all => ?_⟩
  · have first : Accounted mesh start := ⟨start_consistent fresh,start_sound fresh⟩
    have paid := (run.spends (fun _ _ _ => step_accounted) first).2
    rwa [idle_burden fresh.pending fresh.network,Nat.zero_add] at paid
  · have goes : ∀ u, Accounted mesh u → ¬(u.pending = [] ∧ u.network = []) →
        ∃ event v, carries event ∧ mesh.Steps u event v ∧ Accounted mesh v ∧ burden v < burden u := by
      intro u here busy
      obtain ⟨event,v,carried,taken⟩ := carries_on mesh busy
      obtain ⟨there,paid⟩ := step_accounted here taken
      have quiet := carries_quiet (Fintype.card ι) carried
      exact ⟨event,v,carried,taken,there,by omega⟩
    obtain ⟨later,t,further,all,_,idle⟩ := Run.rests burden goes accounted
    exact ⟨later,t,further,all,idle⟩
  · obtain ⟨there,paid,lost⟩ := carried_run accounted further all
    refine ⟨paid,fun stuck whole i m inside plain d member => ?_⟩
    have idle : t.pending = [] ∧ t.network = [] := by
      by_contra busy
      obtain ⟨event,u,carried,taken⟩ := carries_on mesh busy
      exact stuck event u carried taken
    exact settled_acked there idle.1 idle.2 (lost.trans whole) inside plain member

theorem mesh_settles_hello : ∃ s, Run threeNodes.Steps threeStart (roundTrip.take 1) s ∧ burden s ≤ 8 ∧
    ∃ later t, Run threeNodes.Steps s later t ∧ (∀ event ∈ later, carries event) ∧ t.pending = [] ∧ t.network = [] := by
  have sent : (follow threeNodes.step threeStart (roundTrip.take 1)).isSome = true := by decide +kernel
  obtain ⟨s,ended⟩ := Option.isSome_iff_exists.mp sent
  have run : Run threeNodes.Steps threeStart (roundTrip.take 1) s := Run.of_follow ended
  obtain ⟨paid,rest,_⟩ := mesh_settles threeNodes threeStart_start run
  have incomes : ((roundTrip.take 1).map (income (Fintype.card (Fin 3)))).sum = 8 := rfl
  exact ⟨s,run,by omega,rest⟩

end DTChat.MeshTraffic
