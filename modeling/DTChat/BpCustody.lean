import DTChat.BpStack

namespace DTChat.BpCustody
open Holdings Runs ListenerLoop BpStack
open LockedThreads (set_cases spawned_cases)
open EndpointAddresses (afBp bpSchemeIpn)

def RecvThread.carried (thread : RecvThread) : Multiset Bundle :=
  match thread.phase with
  | .delivering skb => {skb.bundle}
  | _ => 0

def BpSock.queued (bp : BpSock) : Multiset Bundle := bp.queue.map (·.bundle)

def Stack.transit (s : Stack) : Multiset Bundle := held RecvThread.carried s.threads+held BpSock.queued s.socks

def Stack.gone (s : Stack) : List Bundle := s.ended.map (·.1)

def Stack.places (s : Stack) : Multiset Bundle := s.inbox+Stack.transit s+Stack.gone s

def Balanced (s : Stack) : Prop := Stack.places s = s.arrived

inductive Outcomes (size : Nat) (wake : Wake) : List Skb → Outcome → Prop where
  | kept (failed : (wake.interrupted = true ∧ errno = .eRestartSys) ∨ (wake.dead = true ∧ errno = .eConnReset) ∨
      (queue = [] ∧ errno = .eAgain)) : Outcomes size wake queue ⟨.error errno,[],queue⟩
  | handed (fits : skb.data.length ≤ size) :
      Outcomes size wake (skb :: rest) ⟨.ok skb.data,[(skb.bundle,.handed skb.data)],rest⟩
  | refused (failed : errno = .eMsgSize ∨ errno = .eFault) :
      Outcomes size wake (skb :: rest) ⟨.error errno,[(skb.bundle,.refused)],rest⟩

theorem recv_outcomes (size : Nat) (wake : Wake) (queue : List Skb) :
    Outcomes size wake queue (recvOutcome size wake queue) := by
  obtain ⟨interrupted,dead,copied⟩ := wake
  cases interrupted with
  | true => simpa [recvOutcome,bpRecvmsg] using Outcomes.kept (.inl ⟨rfl,rfl⟩)
  | false =>
    cases dead with
    | true => simpa [recvOutcome,bpRecvmsg] using Outcomes.kept (.inr (.inl ⟨rfl,rfl⟩))
    | false =>
      cases queue with
      | nil => exact .kept (.inr (.inr ⟨rfl,rfl⟩))
      | cons skb rest =>
        by_cases long : size < skb.data.length
        · simpa [recvOutcome,bpRecvmsg,readFate,long] using Outcomes.refused (.inl rfl)
        · cases copied with
          | true => simpa [recvOutcome,bpRecvmsg,readFate,long] using Outcomes.handed (Nat.le_of_not_lt long)
          | false => simpa [recvOutcome,bpRecvmsg,readFate,long] using Outcomes.refused (.inr rfl)

theorem recv_interrupted (size : Nat) (dead copied : Bool) (queue : List Skb) :
    recvOutcome size ⟨true,dead,copied⟩ queue = ⟨.error .eRestartSys,[],queue⟩ := by
  simp [recvOutcome,bpRecvmsg]

theorem outcome_custody (size : Nat) (wake : Wake) (bp : BpSock) (locked : Bool) :
    BpSock.queued bp = BpSock.queued {bp with queue := (recvOutcome size wake bp.queue).queue,locked := locked} +
      ((recvOutcome size wake bp.queue).left.map (·.1) : List Bundle) := by
  unfold BpSock.queued
  have head : ∀ (skb : Skb) (rest : List Skb),
      ((skb :: rest).map (·.bundle) : Multiset Bundle) = (rest.map (·.bundle) : List Bundle)+{skb.bundle} := by
    intro skb rest
    rw [List.map_cons,← Multiset.cons_coe,← Multiset.singleton_add,add_comm]
  generalize ended : recvOutcome size wake bp.queue = outcome
  have ways := recv_outcomes size wake bp.queue
  rw [ended] at ways
  generalize bp.queue = queue at ways
  cases ways with
  | kept => simp
  | handed | refused => simpa using head _ _

section moves

variable {s : Stack} {bp next : BpSock} {threads : List RecvThread} {sock thread : Nat}

theorem queued_same (here : s.sockAt sock = some bp) (same : next.queue = bp.queue) :
    held BpSock.queued (s.socks.set sock next) = held BpSock.queued s.socks :=
  held_set_same here (by unfold BpSock.queued; rw [same])

theorem finish_custody (here : s.sockAt sock = some bp) (size : Nat) (wake : Wake) :
    held BpSock.queued (s.socks.set sock {bp with queue := (recvOutcome size wake bp.queue).queue,locked := false}) +
      ((recvOutcome size wake bp.queue).left.map (·.1) : List Bundle) = held BpSock.queued s.socks :=
  held_lose here (outcome_custody size wake bp false)

theorem purged_custody (here : s.sockAt sock = some bp) :
    held BpSock.queued (s.socks.set sock {bp with queue := [],dead := true}) +
      ((bp.queue.map fun skb => (skb.bundle,Fate.purged)).map (·.1) : List Bundle) = held BpSock.queued s.socks := by
  refine held_lose here ?_
  simp [BpSock.queued,Function.comp_def]

theorem queued_custody (here : s.sockAt sock = some bp) (skb : Skb) :
    held BpSock.queued (s.socks.set sock {bp with queue := bp.queue ++ [skb]}) =
      held BpSock.queued s.socks+{skb.bundle} := by
  refine held_gain here ?_
  simp [BpSock.queued,← Multiset.coe_add]

theorem received_custody (blocked : threads[thread]? = some ⟨serviceId,.receiving⟩) (skb : Skb) :
    held RecvThread.carried (threads.set thread ⟨serviceId,.delivering skb⟩) =
      held RecvThread.carried threads+{skb.bundle} :=
  held_gain blocked (zero_add _).symm

theorem failed_custody (blocked : threads[thread]? = some ⟨serviceId,.receiving⟩) :
    held RecvThread.carried (threads.set thread ⟨serviceId,.ended⟩) = held RecvThread.carried threads :=
  held_set_same blocked rfl

theorem ended_custody (carried : threads[thread]? = some ⟨serviceId,.delivering skb⟩) :
    held RecvThread.carried (threads.set thread ⟨serviceId,.ended⟩)+{skb.bundle} = held RecvThread.carried threads :=
  held_lose carried (zero_add _).symm

theorem inbox_custody {inbox : List Bundle} (inside : bundle ∈ inbox) :
    (inbox : Multiset Bundle) = (inbox.erase bundle : List Bundle)+{bundle} := by
  have split := Multiset.coe_eq_coe.mpr (List.perm_cons_erase inside)
  rw [split,← Multiset.cons_coe,← Multiset.singleton_add,add_comm]

end moves

inductive Moves (s : Stack) : Event → Stack → Prop where
  | still (inbox : t.inbox = s.inbox) (transit : Stack.transit t = Stack.transit s) (gone : Stack.gone t = Stack.gone s)
      (arrived : t.arrived = s.arrived) : Moves s event t
  | arrives (bundle : Bundle) (inbox : t.inbox = s.inbox ++ [bundle]) (transit : Stack.transit t = Stack.transit s)
      (gone : Stack.gone t = Stack.gone s) (arrived : t.arrived = s.arrived ++ [bundle]) :
      Moves s event t
  | enters (bundle : Bundle) (inside : bundle ∈ s.inbox) (inbox : t.inbox = s.inbox.erase bundle)
      (transit : Stack.transit t = Stack.transit s+{bundle}) (gone : Stack.gone t = Stack.gone s)
      (arrived : t.arrived = s.arrived) : Moves s (.receive thread bundle heap) t
  | leaves (out : List Bundle) (inbox : t.inbox = s.inbox) (transit : Stack.transit t+out = Stack.transit s)
      (gone : Stack.gone t = Stack.gone s ++ out) (arrived : t.arrived = s.arrived) : Moves s event t

theorem step_moves (taken : Step sdr s event t) : Moves s event t := by
  cases taken with
  | create =>
    refine .still rfl ?_ rfl rfl
    simp [Stack.transit,BpSock.queued,BpSock.created]
  | bindRefused | bind | recv | wake | sendRefused | send | sendFailed | handleSend => exact .still rfl rfl rfl rfl
  | insert binding here =>
    refine .still rfl ?_ rfl rfl
    simp [Stack.transit,queued_same here]
  | lock asked here =>
    refine .still rfl ?_ rfl rfl
    simp [Stack.transit,queued_same here]
  | take woken here =>
    refine .leaves _ rfl ?_ (List.map_append ..) rfl
    simp only [Stack.transit,Stack.finish,add_assoc,finish_custody here]
  | interrupt waits here drained =>
    refine .leaves _ rfl ?_ (List.map_append ..) rfl
    simp only [Stack.transit,Stack.finish,add_assoc,finish_custody here]
  | release here =>
    refine .leaves _ rfl ?_ (List.map_append ..) rfl
    simp only [Stack.transit,add_assoc,purged_custody here]
  | @handleRequest _ _ started =>
    refine .still rfl ?_ rfl rfl
    cases started <;> simp [Stack.transit,RecvThread.carried]
  | arrive => exact .arrives _ rfl rfl rfl rfl
  | receive blocked inside =>
    refine .enters _ inside rfl ?_ rfl rfl
    simp only [Stack.transit,received_custody blocked]
    abel
  | fail blocked =>
    refine .still rfl ?_ rfl rfl
    simp only [Stack.transit,failed_custody blocked]
  | lost carried =>
    refine .leaves _ rfl ?_ (List.map_append ..) rfl
    simp only [Stack.transit,← ended_custody carried,List.map_cons,List.map_nil,Multiset.coe_singleton]
    abel
  | unclaimed carried nobody =>
    refine .leaves _ rfl ?_ (List.map_append ..) rfl
    simp only [Stack.transit,← ended_custody carried,List.map_cons,List.map_nil,Multiset.coe_singleton]
    abel
  | queued carried claimed here =>
    refine .still rfl ?_ rfl rfl
    simp only [Stack.transit,← ended_custody carried,queued_custody here]
    abel

theorem step_custody (custody : Balanced s) (taken : Step sdr s event t) : Balanced t := by
  unfold Balanced Stack.places at custody ⊢
  cases step_moves taken with
  | still inbox transit gone arrived => rwa [inbox,transit,gone,arrived]
  | arrives bundle inbox transit gone arrived =>
    rw [inbox,transit,gone,arrived,← Multiset.coe_add,← Multiset.coe_add,← custody]
    abel
  | enters bundle inside inbox transit gone arrived =>
    rw [inbox,transit,gone,arrived,← custody,inbox_custody inside]
    abel
  | leaves out inbox transit gone arrived =>
    rw [inbox,gone,arrived,← custody,← transit,← Multiset.coe_add]
    abel

theorem run_custody (run : Run (Step sdr) Stack.empty events s) : Balanced s :=
  run.preserves (fun _ _ _ => step_custody) rfl

-- What a socket's queue or a thread carries is a copy of the payload up to its first NUL.
def Carries (skb : Skb) : Prop := ∃ heap, skb.data = nlaString skb.bundle.adu heap

def Opened (socks : List BpSock) (sock : Nat) : Prop := ∃ bp : BpSock, socks[sock]? = some bp ∧ bp.dead = false

structure Sockets (socks : List BpSock) (bpList : List Nat) (calls : List Call) : Prop where
  nodup : bpList.Nodup
  listed : ∀ sock ∈ bpList, Opened socks sock
  unlisted : ∀ (sock : Nat) (bp : BpSock), socks[sock]? = some bp → sock ∉ bpList → bp.queue = []
  queues : ∀ (sock : Nat) (bp : BpSock), socks[sock]? = some bp → ∀ skb ∈ bp.queue,
    skb.bundle.service = bp.serviceId.toUInt32 ∧ Carries skb
  used : ∀ call ∈ calls, ∀ sock, call.sock = some sock → Opened socks sock

def handedData (gone : Bundle × Fate) : Option (List UInt8) :=
  match gone.2 with
  | .handed data => some data
  | _ => none

structure Served (s : Stack) : Prop where
  sockets : Sockets s.socks s.bpList s.calls
  threads : ∀ (thread : Nat) (serviceId : UInt32) (skb : Skb), s.threads[thread]? = some ⟨serviceId,.delivering skb⟩ →
    skb.bundle.service = serviceId ∧ Carries skb
  handed : ∀ bundle data, (bundle,Fate.handed data) ∈ s.ended → Carries (Skb.mk bundle data)
  replies : s.replies.filterMap (·.result.toOption) = s.ended.filterMap handedData

section sockets

variable {socks : List BpSock} {bpList : List Nat} {calls : List Call} {bp next : BpSock} {sock : Nat}

theorem opened_set (here : socks[sock]? = some bp) (dead : next.dead = bp.dead) (opened : Opened socks other) :
    Opened (socks.set sock next) other := by
  obtain ⟨found,there,alive⟩ := opened
  by_cases same : other = sock
  · subst same
    cases here.symm.trans there
    exact ⟨next,List.getElem?_set_self (List.getElem?_eq_some_iff.mp here).1,dead.trans alive⟩
  · exact ⟨found,by rwa [List.getElem?_set_ne (Ne.symm same)],alive⟩

theorem opened_other (apart : other ≠ sock) (opened : Opened socks other) : Opened (socks.set sock next) other := by
  obtain ⟨found,there,alive⟩ := opened
  exact ⟨found,by rwa [List.getElem?_set_ne (Ne.symm apart)],alive⟩

theorem Sockets.replace (sockets : Sockets socks bpList calls) (here : socks[sock]? = some bp)
    (dead : next.dead = bp.dead) (unlisted : sock ∉ bpList → next.queue = [])
    (queue : ∀ skb ∈ next.queue, skb.bundle.service = next.serviceId.toUInt32 ∧ Carries skb) :
    Sockets (socks.set sock next) bpList calls := by
  refine ⟨sockets.nodup,fun other member => opened_set here dead (sockets.listed other member),?_,?_,
    fun call member other on => opened_set here dead (sockets.used call member other on)⟩
  · intro other found there apart
    rcases set_cases there with ⟨rfl,rfl⟩ | ⟨_,old⟩
    · exact unlisted apart
    · exact sockets.unlisted other found old apart
  · intro other found there
    rcases set_cases there with ⟨rfl,rfl⟩ | ⟨_,old⟩
    · exact queue
    · exact sockets.queues other found old

theorem Sockets.shrink (sockets : Sockets socks bpList calls) (here : socks[sock]? = some bp)
    (service : next.serviceId = bp.serviceId) (dead : next.dead = bp.dead) (queue : next.queue ⊆ bp.queue) :
    Sockets (socks.set sock next) bpList calls := by
  refine sockets.replace here dead (fun apart => ?_) fun skb member => ?_
  · exact List.subset_nil.mp (sockets.unlisted sock bp here apart ▸ queue)
  · rw [service]
    exact sockets.queues sock bp here skb (queue member)

theorem Sockets.push (sockets : Sockets socks bpList calls) (here : socks[sock]? = some bp) (inside : sock ∈ bpList)
    (service : skb.bundle.service = bp.serviceId.toUInt32) (carries : Carries skb) :
    Sockets (socks.set sock {bp with queue := bp.queue ++ [skb]}) bpList calls := by
  refine sockets.replace here rfl (fun apart => absurd inside apart) fun found member => ?_
  rcases List.mem_append.mp member with before | last
  · exact sockets.queues sock bp here found before
  · cases List.mem_singleton.mp last
    exact ⟨service,carries⟩

theorem Sockets.calls_set (sockets : Sockets socks bpList calls) {call : Nat} (here : calls[call]? = some old)
    (part : ∀ sock, new.sock = some sock → old.sock = some sock) : Sockets socks bpList (calls.set call new) := by
  refine {sockets with used := fun later member sock on => ?_}
  rcases List.mem_or_eq_of_mem_set member with before | rfl
  · exact sockets.used later before sock on
  · exact sockets.used old (List.mem_of_getElem? here) sock (part sock on)

theorem Sockets.calls_append (sockets : Sockets socks bpList calls) (here : socks[sock]? = some bp) (alive : bp.dead = false)
    (on : new.sock = some sock) : Sockets socks bpList (calls ++ [new]) := by
  refine {sockets with used := fun call member other there => ?_}
  rcases List.mem_append.mp member with before | last
  · exact sockets.used call before other there
  · cases List.mem_singleton.mp last
    cases on.symm.trans there
    exact ⟨bp,here,alive⟩

theorem Sockets.create (sockets : Sockets socks bpList calls) : Sockets (socks ++ [.created]) bpList calls := by
  have kept : ∀ (other : Nat) (found : BpSock), socks[other]? = some found → (socks ++ [.created])[other]? = some found := by
    intro other found there
    rw [List.getElem?_append_left (List.getElem?_eq_some_iff.mp there).1]
    exact there
  refine ⟨sockets.nodup,?_,?_,?_,?_⟩
  · intro other member
    obtain ⟨found,there,alive⟩ := sockets.listed other member
    exact ⟨found,kept other found there,alive⟩
  · intro other found there apart
    rcases spawned_cases there with old | ⟨rfl,rfl⟩
    · exact sockets.unlisted other found old apart
    · rfl
  · intro other found there skb member
    rcases spawned_cases there with old | ⟨rfl,rfl⟩
    · exact sockets.queues other found old skb member
    · cases member
  · intro call member other on
    obtain ⟨found,there,alive⟩ := sockets.used call member other on
    exact ⟨found,kept other found there,alive⟩

theorem Sockets.insert (sockets : Sockets socks bpList calls) (here : socks[sock]? = some bp) (alive : bp.dead = false)
    (apart : sock ∉ bpList) (nodeId : UInt32) (serviceId : UInt8) :
    Sockets (socks.set sock {bp with nodeId := nodeId,serviceId := serviceId}) (sock :: bpList) calls := by
  have drained := sockets.unlisted sock bp here apart
  have bound : Sockets (socks.set sock {bp with nodeId := nodeId,serviceId := serviceId}) bpList calls :=
    sockets.replace here rfl (fun _ => drained) (by simp [drained])
  refine ⟨List.nodup_cons.mpr ⟨apart,sockets.nodup⟩,fun other member => ?_,fun other found there outside => ?_,
    bound.queues,bound.used⟩
  · rcases List.mem_cons.mp member with rfl | old
    · exact opened_set here rfl ⟨bp,here,alive⟩
    · exact bound.listed other old
  · exact bound.unlisted other found there fun old => outside (List.mem_cons_of_mem sock old)

theorem Sockets.release (sockets : Sockets socks bpList calls) (unused : ∀ call ∈ calls, call.sock ≠ some sock) :
    Sockets (socks.set sock {bp with queue := [],dead := true}) (bpList.erase sock) calls := by
  refine ⟨sockets.nodup.erase sock,fun other member => ?_,fun other found there outside => ?_,
    fun other found there => ?_,fun call member other on => ?_⟩
  · obtain ⟨apart,old⟩ := (sockets.nodup.mem_erase_iff).mp member
    exact opened_other apart (sockets.listed other old)
  · rcases set_cases there with ⟨rfl,rfl⟩ | ⟨apart,old⟩
    · rfl
    · exact sockets.unlisted other found old fun inside => outside ((sockets.nodup.mem_erase_iff).mpr ⟨apart,inside⟩)
  · rcases set_cases there with ⟨rfl,rfl⟩ | ⟨_,old⟩
    · intro skb member
      cases member
    · exact sockets.queues other found old
  · refine opened_other (fun same => ?_) (sockets.used call member other on)
    subst same
    exact unused call member on

end sockets

theorem receiver_parts {s : Stack} (claimed : s.receiver serviceId = some sock) :
    sock ∈ s.bpList ∧ ∀ bp, s.sockAt sock = some bp → bp.serviceId.toUInt32 = serviceId := by
  refine ⟨List.mem_of_find?_eq_some claimed,fun bp here => ?_⟩
  have found := List.find?_some claimed
  simpa [here] using found

theorem outcome_part (ways : Outcomes size wake queue outcome) : outcome.queue ⊆ queue := by
  cases ways with
  | kept => exact List.Subset.refl _
  | handed | refused => exact List.subset_cons_self _ _

theorem finish_served {s : Stack} {call sock : Nat} (served : Served s)
    (calling : s.calls[call]? = some (.recv sock serviceId size stage)) (here : s.sockAt sock = some bp) (wake : Wake) :
    Served (s.finish call sock serviceId bp (recvOutcome size wake bp.queue)) := by
  have queues := served.sockets.queues sock bp here
  have ways := recv_outcomes size wake bp.queue
  generalize recvOutcome size wake bp.queue = outcome at ways ⊢
  have copied : ∀ bundle data, (bundle,Fate.handed data) ∈ outcome.left → Carries ⟨bundle,data⟩ := by
    generalize bp.queue = queue at queues ways
    intro bundle data member
    cases ways with
    | kept => cases member
    | handed =>
      cases List.mem_singleton.mp member
      exact (queues _ List.mem_cons_self).2
    | refused => cases List.mem_singleton.mp member
  refine ⟨?_,served.threads,fun bundle data member => ?_,?_⟩
  · refine Sockets.calls_set (served.sockets.shrink here ?_ ?_ ?_) calling ?_
    · rfl
    · rfl
    · exact outcome_part ways
    · intro _ on
      cases on
  · rcases List.mem_append.mp member with old | new
    · exact served.handed bundle data old
    · exact copied bundle data new
  · simp only [Stack.finish,List.filterMap_append,served.replies]
    congr 1
    generalize bp.queue = queue at ways
    cases ways <;> rfl

theorem threads_set {threads : List RecvThread} {thread : Nat} {new : RecvThread}
    (kept : ∀ (thread : Nat) (serviceId : UInt32) (skb : Skb), threads[thread]? = some ⟨serviceId,.delivering skb⟩ →
      skb.bundle.service = serviceId ∧ Carries skb)
    (next : ∀ serviceId skb, new = ⟨serviceId,.delivering skb⟩ → skb.bundle.service = serviceId ∧ Carries skb) :
    ∀ (other : Nat) (serviceId : UInt32) (skb : Skb), (threads.set thread new)[other]? = some ⟨serviceId,.delivering skb⟩ →
      skb.bundle.service = serviceId ∧ Carries skb := by
  intro other serviceId skb there
  rcases set_cases there with ⟨_,same⟩ | ⟨_,old⟩
  · exact next serviceId skb same.symm
  · exact kept other serviceId skb old

theorem ended_served {s : Stack} (served : Served s) {thread : Nat} (quiet : ∀ gone ∈ left, handedData gone = none) :
    Served {s with threads := s.threads.set thread ⟨serviceId,.ended⟩,ended := s.ended ++ left} := by
  refine ⟨served.sockets,threads_set served.threads (by simp),fun bundle data member => ?_,?_⟩
  · rcases List.mem_append.mp member with old | new
    · exact served.handed bundle data old
    · cases quiet _ new
  · simp only [List.filterMap_append,List.filterMap_eq_nil_iff.mpr quiet,List.append_nil]
    exact served.replies

theorem step_served (served : Served s) (fine : once s event = true) (taken : Step sdr s event t) : Served t := by
  cases taken with
  | create => exact {served with sockets := served.sockets.create}
  | bindRefused | sendRefused | send | sendFailed | handleSend | arrive => exact {served with}
  | bind here alive scanned => exact {served with sockets := served.sockets.calls_append here alive rfl}
  | insert binding here free =>
    obtain ⟨bp,there,alive⟩ := served.sockets.used _ (List.mem_of_getElem? binding) _ rfl
    cases here.symm.trans there
    have bound := served.sockets.insert there alive (once_insert fine binding)
    exact {served with sockets := (bound _ _).calls_set binding fun _ on => by cases on}
  | recv here alive => exact {served with sockets := served.sockets.calls_append here alive rfl}
  | lock asked here free =>
    refine {served with sockets := Sockets.calls_set (served.sockets.shrink here ?_ ?_ ?_) asked ?_}
    · rfl
    · rfl
    · exact List.Subset.refl _
    · exact fun _ on => on
  | wake waits here filled => exact {served with sockets := served.sockets.calls_set waits fun _ on => on}
  | take woken here => exact finish_served served woken here _
  | interrupt waits here drained => exact finish_served served waits here _
  | release here alive unused =>
    refine ⟨served.sockets.release unused,served.threads,fun bundle data member => ?_,?_⟩
    · rcases List.mem_append.mp member with old | new
      · exact served.handed bundle data old
      · obtain ⟨skb,_,purged⟩ := List.mem_map.mp new
        cases purged
    · rw [List.filterMap_append,served.replies]
      simp [handedData,List.filterMap_map,Function.comp_def]
  | @handleRequest _ _ started _ first =>
    refine {served with threads := fun thread serviceId skb there => ?_}
    cases started with
    | false => exact served.threads thread serviceId skb (by simpa using there)
    | true =>
      rcases spawned_cases there with old | ⟨_,new⟩
      · exact served.threads thread serviceId skb old
      · cases new
  | receive blocked inside mine =>
    refine {served with threads := threads_set served.threads fun serviceId skb same => ?_}
    cases same
    exact ⟨mine,_,rfl⟩
  | fail blocked => exact {served with threads := threads_set served.threads (by simp)}
  | lost carried => exact ended_served served (by simp [handedData])
  | unclaimed carried nobody => exact ended_served served (by simp [handedData])
  | queued carried claimed here =>
    obtain ⟨inside,same⟩ := receiver_parts claimed
    obtain ⟨service,carries⟩ := served.threads _ _ _ carried
    have pushed := served.sockets.push here inside (service.trans (same _ here).symm) carries
    exact {served with sockets := pushed,threads := threads_set served.threads (by simp)}

theorem served_empty : Served Stack.empty := by
  refine ⟨⟨List.nodup_nil,?_,?_,?_,?_⟩,?_,?_,rfl⟩ <;> simp [Stack.empty]

theorem run_served (run : Run (Checked once (Step sdr)) Stack.empty events s) : Served s :=
  run.preserves (fun _ _ _ served taken => step_served served taken.1 taken.2) served_empty

def handedSkb (gone : Bundle × Fate) : Option Skb := (handedData gone).map fun data => ⟨gone.1,data⟩

theorem ended_carries (served : Served s) (member : skb ∈ s.ended.filterMap handedSkb) : Carries skb := by
  obtain ⟨gone,inside,found⟩ := List.mem_filterMap.mp member
  obtain ⟨bundle,fate⟩ := gone
  obtain ⟨data,read,rfl⟩ := Option.map_eq_some_iff.mp found
  cases fate <;> cases read
  exact served.handed bundle data inside

theorem handed_gone (ended : List (Bundle × Fate)) : ((ended.filterMap handedSkb).map (·.bundle)).Sublist (ended.map (·.1)) := by
  induction ended with
  | nil => exact List.Sublist.slnil
  | cons gone ended ih =>
    cases read : handedData gone with
    | none => simpa [handedSkb,read] using ih.cons gone.1
    | some data => simpa [handedSkb,read] using ih

-- Through any interleaving of the processes, the daemon and its threads that binds a socket once: each bundle
-- that arrived is in one place, a queue holds bundles of its socket's service only, and what
-- the calls have read are copies of that many bundles that arrived.
theorem stack_custody (run : Run (Checked once (Step sdr)) Stack.empty events s) :
    Stack.places s = s.arrived ∧
    (∀ sock bp, s.sockAt sock = some bp → ∀ skb ∈ bp.queue, skb.bundle.service = bp.serviceId.toUInt32 ∧ Carries skb) ∧
    ∃ copies : List Skb, (∀ skb ∈ copies, Carries skb) ∧
      copies.map (·.data) = s.replies.filterMap (·.result.toOption) ∧
      (copies.map (·.bundle) : List Bundle) ≤ (s.arrived : Multiset Bundle) := by
  have custody := run_custody run.unchecked
  have served := run_served run
  refine ⟨custody,served.sockets.queues,s.ended.filterMap handedSkb,fun _ => ended_carries served,?_,?_⟩
  · rw [served.replies,List.map_filterMap]
    congr 1
    funext gone
    simp [handedSkb,Function.comp_def]
  · rw [← show Stack.places s = s.arrived from custody]
    exact le_add_left (Multiset.coe_le.mpr (handed_gone s.ended).subperm)

def exchange : List Event := [
  .create,.bind 0 16 ⟨afBp,bpSchemeIpn,20,3⟩,.insert 0,.recv 0 1024 true,.lock 1,.handleRequest true,
  .arrive ⟨3,[72,105]⟩,.receive 0 ⟨3,[72,105]⟩ [0,7],.deliver 0 true,.wake 1,.take 1 true]

def exchanged : Stack := (follow (step roomySdr) Stack.empty exchange).getD Stack.empty

theorem exchange_followed : follow (step roomySdr) Stack.empty exchange = some exchanged := rfl

theorem exchange_run : Run (Checked once (Step roomySdr)) Stack.empty exchange exchanged :=
  checked_run exchange_followed rfl

example : exchanged.replies.map (·.result.toOption) = [some [72,105,0]] := rfl

theorem stack_custody_exchange : Stack.places exchanged = exchanged.arrived ∧
    ∃ copies : List Skb, copies.map (·.data) = exchanged.replies.filterMap (·.result.toOption) ∧
      (copies.map (·.bundle) : List Bundle) ≤ (exchanged.arrived : Multiset Bundle) := by
  obtain ⟨places,_,copies,_,read,arrived⟩ := stack_custody exchange_run
  exact ⟨places,copies,read,arrived⟩

end DTChat.BpCustody
