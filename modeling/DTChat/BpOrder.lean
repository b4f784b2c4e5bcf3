import DTChat.BpReceive

namespace DTChat.BpOrder
open Holdings Runs ListenerLoop BpStack BpCustody BpReceive
open EndpointAddresses (afBp bpSchemeIpn)

def ofService (serviceId : UInt32) (bundle : Bundle) : Bool := bundle.service = serviceId

def Stack.onWay (s : Stack) (serviceId : UInt32) : Multiset Bundle :=
  (Stack.transit s).filter fun bundle => ofService serviceId bundle

def InOrder (serviceId : UInt32) (s : Stack) : Prop := ∃ middle : List Bundle, (middle : Multiset Bundle) = Stack.onWay s serviceId ∧
  (Stack.gone s).filter (ofService serviceId) ++ middle ++ s.inbox.filter (ofService serviceId) =
    s.arrived.filter (ofService serviceId)

theorem erase_other (apart : ofService serviceId bundle = false) (inbox : List Bundle) :
    (inbox.erase bundle).filter (ofService serviceId) = inbox.filter (ofService serviceId) := by
  rw [← List.erase_filter]
  exact List.erase_of_not_mem fun member => by simp [apart] at member

theorem erase_next (next : nextBundle serviceId inbox = some bundle) :
    inbox.filter (ofService serviceId) = bundle :: (inbox.erase bundle).filter (ofService serviceId) := by
  have first : (inbox.filter (ofService serviceId)).head? = some bundle := by
    rw [List.head?_filter]
    exact next
  obtain ⟨rest,split⟩ := List.head?_eq_some_iff.mp first
  rw [← List.erase_filter,split,List.erase_cons_head]

theorem leave_cases {middle out : List Bundle} {rest : Multiset Bundle} (same : (middle : Multiset Bundle) = rest+out)
    (atMost : (middle : Multiset Bundle).card ≤ 1) : out = [] ∧ (middle : Multiset Bundle) = rest ∨ rest = 0 ∧ middle = out := by
  rw [same,Multiset.card_add,Multiset.coe_card] at atMost
  match out,atMost with
  | [],_ => exact .inl ⟨rfl,by simpa using same⟩
  | [bundle],atMost =>
    have none : rest = 0 := Multiset.card_eq_zero.mp (by simpa using atMost)
    rw [none,zero_add] at same
    exact .inr ⟨none,List.perm_singleton.mp (Multiset.coe_eq_coe.mp same)⟩

theorem step_order (ordered : InOrder serviceId s) (before : (Stack.onWay s serviceId).card ≤ 1)
    (after : (Stack.onWay t serviceId).card ≤ 1) (first : fifo s event = true) (moves : Moves s event t) :
    InOrder serviceId t := by
  obtain ⟨middle,same,order⟩ := ordered
  unfold InOrder Stack.onWay at *
  cases moves with
  | still inbox transit gone arrived =>
    rw [inbox,transit,gone,arrived]
    exact ⟨middle,same,order⟩
  | arrives bundle inbox transit gone arrived =>
    refine ⟨middle,by rw [transit,same],?_⟩
    rw [inbox,gone,arrived,List.filter_append,List.filter_append,← List.append_assoc,order]
  | enters bundle inside inbox transit gone arrived =>
    have next : nextBundle bundle.service s.inbox = some bundle := of_decide_eq_true first
    cases mine : ofService serviceId bundle with
    | false =>
      refine ⟨middle,?_,?_⟩
      · rw [transit,Multiset.filter_add,same]
        simp [mine]
      · rw [inbox,gone,arrived,erase_other mine,order]
    | true =>
      have this : bundle.service = serviceId := of_decide_eq_true mine
      subst this
      rw [transit,Multiset.filter_add,Multiset.card_add] at after
      have single : (Multiset.filter (fun b => ofService bundle.service b) {bundle}) = {bundle} := by simp [mine]
      rw [single,Multiset.card_singleton] at after
      have empty := Multiset.card_eq_zero.mp (Nat.le_zero.mp (Nat.le_of_succ_le_succ after))
      rw [empty] at same
      rw [Multiset.coe_eq_zero] at same
      rw [same,erase_next next] at order
      refine ⟨[bundle],?_,?_⟩
      · rw [transit,Multiset.filter_add,empty,single,zero_add,Multiset.coe_singleton]
      · rw [inbox,gone,arrived,← order]
        simp
  | leaves out inbox transit gone arrived =>
    simp only [← transit,Multiset.filter_add,Multiset.filter_coe,Bool.decide_eq_true] at same
    rw [← transit,Multiset.filter_add,Multiset.filter_coe] at before
    simp only [Bool.decide_eq_true,← same] at before
    rw [inbox,gone,arrived,← order,List.filter_append]
    rcases leave_cases same before with ⟨none,rest⟩ | ⟨none,rfl⟩
    · exact ⟨middle,rest,by rw [none,List.append_nil]⟩
    · exact ⟨[],none.symm,by rw [List.append_nil]⟩

def Listening (socks : List BpSock) (bpList : List Nat) (calls : List Call) : Prop :=
  ∀ call ∈ calls, ∀ sock serviceId size stage, call = .recv sock serviceId size stage →
    sock ∈ bpList ∧ ∃ bp : BpSock, socks[sock]? = some bp ∧ bp.serviceId.toUInt32 = serviceId

section listening

variable {socks : List BpSock} {bpList : List Nat} {calls : List Call} {bp next : BpSock} {sock call : Nat} {old new : Call}

theorem Listening.socket (listening : Listening socks bpList calls) (here : socks[sock]? = some bp)
    (same : next.serviceId = bp.serviceId) : Listening (socks.set sock next) bpList calls := by
  intro call member other serviceId size stage reading
  obtain ⟨inside,found,there,service⟩ := listening call member other serviceId size stage reading
  refine ⟨inside,?_⟩
  by_cases mine : other = sock
  · subst mine
    cases here.symm.trans there
    exact ⟨next,List.getElem?_set_self (List.getElem?_eq_some_iff.mp here).1,by rw [same,service]⟩
  · exact ⟨found,by rwa [List.getElem?_set_ne (Ne.symm mine)],service⟩

theorem Listening.other (listening : Listening socks bpList calls) (apart : ∀ call ∈ calls, call.sock ≠ some sock ∨ sock ∉ bpList)
    : Listening (socks.set sock next) bpList calls := by
  intro call member other serviceId size stage reading
  obtain ⟨inside,found,there,service⟩ := listening call member other serviceId size stage reading
  refine ⟨inside,found,?_,service⟩
  have elsewhere : sock ≠ other := by
    rintro rfl
    rcases apart call member with unused | unlisted
    · exact unused (by rw [reading]; rfl)
    · exact unlisted inside
  rwa [List.getElem?_set_ne elsewhere]

theorem Listening.move (listening : Listening socks bpList calls) (here : calls[call]? = some old)
    (same : ∀ sock serviceId size stage, new = .recv sock serviceId size stage → ∃ size stage, old = .recv sock serviceId size stage) :
    Listening socks bpList (calls.set call new) := by
  intro later member sock serviceId size stage reading
  rcases List.mem_or_eq_of_mem_set member with before | rfl
  · exact listening later before sock serviceId size stage reading
  · obtain ⟨size,stage,was⟩ := same sock serviceId size stage reading
    exact listening old (List.mem_of_getElem? here) sock serviceId size stage was

end listening

theorem step_listening (listening : Listening s.socks s.bpList s.calls) (fine : bound s event = true)
    (taken : Step sdr s event t) : Listening t.socks t.bpList t.calls := by
  cases taken with
  | create =>
    intro call member sock serviceId size stage reading
    obtain ⟨inside,bp,here,service⟩ := listening call member sock serviceId size stage reading
    exact ⟨inside,bp,by rwa [List.getElem?_append_left (List.getElem?_eq_some_iff.mp here).1],service⟩
  | bindRefused | sendRefused | send | sendFailed | handleSend | handleRequest | arrive | receive | fail | lost | unclaimed =>
    exact listening
  | bind here alive scanned =>
    intro call member sock serviceId size stage reading
    rcases List.mem_append.mp member with before | last
    · exact listening call before sock serviceId size stage reading
    · rw [List.mem_singleton.mp last] at reading
      cases reading
  | insert binding here free =>
    have apart := once_insert (bound_once fine) binding
    have moved : Listening s.socks s.bpList (s.calls.set _ .returned) := listening.move binding (by simp)
    intro call member sock serviceId size stage reading
    obtain ⟨inside,found⟩ := moved.other (fun _ _ => .inr apart) call member sock serviceId size stage reading
    exact ⟨List.mem_cons_of_mem _ inside,found⟩
  | recv here alive =>
    have inside := bound_recv fine
    intro call member sock serviceId size stage reading
    rcases List.mem_append.mp member with before | last
    · exact listening call before sock serviceId size stage reading
    · rw [List.mem_singleton.mp last] at reading
      cases reading
      exact ⟨inside,_,here,rfl⟩
  | lock asked here free =>
    refine Listening.move (listening.socket here ?_) asked fun sock serviceId size stage same => ?_
    · rfl
    · cases same
      exact ⟨_,_,rfl⟩
  | wake waits here filled =>
    refine listening.move waits fun sock serviceId size stage same => ?_
    cases same
    exact ⟨_,_,rfl⟩
  | take woken here =>
    refine Listening.move (listening.socket here ?_) woken (by simp)
    rfl
  | interrupt waits here drained =>
    refine Listening.move (listening.socket here ?_) waits (by simp)
    rfl
  | release here alive unused =>
    intro call member sock serviceId size stage reading
    obtain ⟨inside,found⟩ := listening.other (fun other used => .inl (unused other used)) call member sock serviceId size stage reading
    refine ⟨(List.mem_erase_of_ne fun same => ?_).mpr inside,found⟩
    subst same
    exact unused call member (by rw [reading]; rfl)
  | queued carried claimed here =>
    refine listening.socket here ?_
    rfl

def tally (serviceId : UInt32) (bundles : Multiset Bundle) : Nat := (Multiset.filter (fun b => ofService serviceId b) bundles).card

@[simp] theorem tally_add (serviceId : UInt32) (left right : Multiset Bundle) :
    tally serviceId (left+right) = tally serviceId left+tally serviceId right := by
  simp [tally,Multiset.filter_add]

@[simp] theorem tally_zero (serviceId : UInt32) : tally serviceId 0 = 0 := rfl

@[simp] theorem tally_single (serviceId : UInt32) (bundle : Bundle) :
    tally serviceId {bundle} = if bundle.service = serviceId then 1 else 0 := by
  by_cases same : bundle.service = serviceId <;> simp [tally,ofService,Multiset.filter_singleton,same]

def asks (serviceId : UInt32) : Call → Nat
  | .recv _ wanted _ _ => if wanted = serviceId then 1 else 0
  | _ => 0

def requests (serviceId : UInt32) : Upcall → Nat
  | .requestBundle wanted => if wanted = serviceId then 1 else 0
  | _ => 0

def blocked (serviceId : UInt32) (thread : RecvThread) : Nat := if thread = ⟨serviceId,.receiving⟩ then 1 else 0

-- The calls that want a bundle of the service, and what is under way for them: requests
-- to the daemon, threads that wait for ION, bundles on their way.
def Stack.asked (s : Stack) (serviceId : UInt32) : Nat := held (asks serviceId) s.calls

def Stack.supply (s : Stack) (serviceId : UInt32) : Nat :=
  held (requests serviceId) s.upcalls+held (blocked serviceId) s.threads+tally serviceId (Stack.transit s)

inductive Account (serviceId : UInt32) (s : Stack) : Event → Stack → Prop where
  | still (asked : Stack.asked t serviceId = Stack.asked s serviceId)
      (supply : Stack.supply t serviceId = Stack.supply s serviceId) : Account serviceId s event t
  | asks (here : s.sockAt sock = some bp) (service : bp.serviceId.toUInt32 = serviceId)
      (asked : Stack.asked t serviceId = Stack.asked s serviceId+1)
      (supply : Stack.supply t serviceId = Stack.supply s serviceId+queued.toNat) :
      Account serviceId s (.recv sock size queued) t
  | serves (asked : Stack.asked t serviceId+1 = Stack.asked s serviceId)
      (supply : Stack.supply t serviceId+1 = Stack.supply s serviceId) : Account serviceId s event t
  | quits (calling : s.calls[call]? = some (.recv sock serviceId size stage))
      (asked : Stack.asked t serviceId+1 = Stack.asked s serviceId)
      (supply : Stack.supply t serviceId = Stack.supply s serviceId) : Account serviceId s (.interrupt call) t
  | drops (cause : event = .handleRequest false ∨ (∃ thread, event = .fail thread ∨ event = .deliver thread false) ∨
        s.receiver serviceId = none ∨ ∃ sock bp, s.sockAt sock = some bp ∧ bp.serviceId.toUInt32 = serviceId ∧
          sock ∈ s.bpList ∧ ∀ call ∈ s.calls, call.sock ≠ some sock)
      (asked : Stack.asked t serviceId = Stack.asked s serviceId)
      (supply : Stack.supply t serviceId ≤ Stack.supply s serviceId) : Account serviceId s event t

theorem queue_tally (queues : ∀ skb ∈ bp.queue, skb.bundle.service = bp.serviceId.toUInt32 ∧ Carries skb)
    (apart : bp.serviceId.toUInt32 ≠ serviceId) : tally serviceId (BpSock.queued bp) = 0 := by
  refine Multiset.card_eq_zero.mpr (Multiset.filter_eq_nil.mpr fun bundle member => ?_)
  obtain ⟨skb,inside,rfl⟩ := List.mem_map.mp (Multiset.mem_coe.mp member)
  simpa [ofService,(queues skb inside).1] using apart

section accounts

variable {s : Stack} {bp : BpSock} {call sock thread size : Nat} {wanted : UInt32}

theorem take_account (serviceId : UInt32) (sound : Sound s) (listening : Listening s.socks s.bpList s.calls)
    (woken : s.calls[call]? = some (.recv sock wanted size .woken)) (here : s.sockAt sock = some bp) :
    Account serviceId s (.take call copied)
      (s.finish call sock wanted bp (recvOutcome size ⟨false,bp.dead,copied⟩ bp.queue)) := by
  obtain ⟨served,guarded⟩ := sound
  obtain ⟨_,_,there,service⟩ := listening _ (List.mem_of_getElem? woken) _ _ _ _ rfl
  cases here.symm.trans there
  obtain ⟨_,there,alive⟩ := served.sockets.used _ (List.mem_of_getElem? woken) _ rfl
  cases here.symm.trans there
  obtain ⟨skb,rest,fate,queue,left,_⟩ := woken_takes alive
    (guarded.filled call sock wanted size bp woken here) size copied
  have mine := (served.sockets.queues sock bp here skb (by rw [queue]; exact List.mem_cons_self)).1.trans service
  have moved := congrArg (tally serviceId) (finish_custody here size ⟨false,bp.dead,copied⟩)
  have asked := held_set woken .returned (f := asks serviceId)
  simp only [tally_add,left,List.map_cons,List.map_nil,Multiset.coe_singleton,tally_single,mine] at moved
  by_cases same : wanted = serviceId
  · rw [if_pos same] at moved
    refine .serves ?_ ?_
    · simpa [Stack.asked,Stack.finish,asks,same] using asked
    · simp only [Stack.supply,Stack.transit,Stack.finish,tally_add]
      omega
  · rw [if_neg same,Nat.add_zero] at moved
    refine .still ?_ ?_
    · simpa [Stack.asked,Stack.finish,asks,same] using asked
    · simp only [Stack.supply,Stack.transit,Stack.finish,tally_add]
      omega

theorem interrupt_account (serviceId : UInt32) (waits : s.calls[call]? = some (.recv sock wanted size .waiting))
    (here : s.sockAt sock = some bp) :
    Account serviceId s (.interrupt call)
      (s.finish call sock wanted bp (recvOutcome size ⟨true,bp.dead,true⟩ bp.queue)) := by
  have asked := held_set waits .returned (f := asks serviceId)
  have same_queue : (recvOutcome size ⟨true,bp.dead,true⟩ bp.queue).queue = bp.queue := by rw [recv_interrupted]
  have supply : Stack.supply (s.finish call sock wanted bp (recvOutcome size ⟨true,bp.dead,true⟩ bp.queue)) serviceId =
      Stack.supply s serviceId := by
    simp only [Stack.supply,Stack.transit,Stack.finish,same_queue,queued_same here]
  by_cases same : wanted = serviceId
  · subst same
    exact .quits waits (by simpa [Stack.asked,Stack.finish,asks] using asked) supply
  · exact .still (by simpa [Stack.asked,Stack.finish,asks,same] using asked) supply

theorem release_account (serviceId : UInt32) (sound : Sound s) (here : s.sockAt sock = some bp)
    (unused : ∀ call ∈ s.calls, call.sock ≠ some sock)
    (released : t.threads = s.threads ∧ t.upcalls = s.upcalls ∧ t.calls = s.calls ∧
      t.socks = s.socks.set sock {bp with queue := [],dead := true}) :
    Account serviceId s (.release sock) t := by
  obtain ⟨threads,upcalls,calls,socks⟩ := released
  have moved := congrArg (tally serviceId) (purged_custody here)
  rw [tally_add] at moved
  have asked : Stack.asked t serviceId = Stack.asked s serviceId := by rw [Stack.asked,calls,Stack.asked]
  have fates : (bp.queue.map fun skb => (skb.bundle,Fate.purged)).map (·.1) = bp.queue.map (·.bundle) := by simp
  rw [fates] at moved
  by_cases same : bp.serviceId.toUInt32 = serviceId ∧ sock ∈ s.bpList
  · refine .drops (.inr (.inr (.inr ⟨sock,bp,here,same.1,same.2,unused⟩))) asked ?_
    simp only [Stack.supply,Stack.transit,threads,upcalls,socks,tally_add]
    omega
  · have none : tally serviceId (BpSock.queued bp) = 0 := by
      by_cases listed : sock ∈ s.bpList
      · exact queue_tally (sound.1.sockets.queues sock bp here) fun service => same ⟨service,listed⟩
      · rw [BpSock.queued,sound.1.sockets.unlisted sock bp here listed]
        rfl
    rw [BpSock.queued] at none
    refine .still asked ?_
    simp only [Stack.supply,Stack.transit,threads,upcalls,socks,tally_add]
    omega

theorem request_account (serviceId : UInt32) (first : s.upcalls = .requestBundle wanted :: later) (started : Bool) :
    Account serviceId s (.handleRequest started)
      {s with upcalls := later,threads := s.threads ++ if started then [⟨wanted,.receiving⟩] else []} := by
  cases started with
  | false =>
    refine .drops (.inl rfl) rfl ?_
    simp [Stack.supply,Stack.transit,first]
  | true =>
    refine .still rfl ?_
    have fresh : held RecvThread.carried [⟨wanted,.receiving⟩] = 0 := rfl
    have same : requests serviceId (.requestBundle wanted) = blocked serviceId ⟨wanted,.receiving⟩ := by
      simp [requests,blocked]
    simp only [Stack.supply,Stack.transit,first,↓reduceIte,held_append,fresh,add_zero,held_cons,held_nil,same]
    omega

theorem receive_account (serviceId : UInt32) (waits : s.threads[thread]? = some ⟨bundle.service,.receiving⟩)
    (heap : List UInt8) :
    Account serviceId s (.receive thread bundle heap) {s with
      inbox := s.inbox.erase bundle
      threads := s.threads.set thread ⟨bundle.service,.delivering ⟨bundle,nlaString bundle.adu heap⟩⟩} := by
  refine .still rfl ?_
  have given := held_set waits ⟨bundle.service,.delivering ⟨bundle,nlaString bundle.adu heap⟩⟩ (f := blocked serviceId)
  have after : blocked serviceId ⟨bundle.service,.delivering ⟨bundle,nlaString bundle.adu heap⟩⟩ = 0 := by
    simp [blocked]
  have before : blocked serviceId ⟨bundle.service,.receiving⟩ = if bundle.service = serviceId then 1 else 0 := by
    simp [blocked]
  simp only [Stack.supply,Stack.transit,received_custody waits,tally_add,tally_single]
  omega

theorem fail_account (serviceId : UInt32) (waits : s.threads[thread]? = some ⟨wanted,.receiving⟩) :
    Account serviceId s (.fail thread) {s with threads := s.threads.set thread ⟨wanted,.ended⟩} := by
  refine .drops (.inr (.inl ⟨thread,.inl rfl⟩)) rfl ?_
  have given := held_set waits ⟨wanted,.ended⟩ (f := blocked serviceId)
  have after : blocked serviceId ⟨wanted,.ended⟩ = 0 := by simp [blocked]
  simp only [Stack.supply,Stack.transit,failed_custody waits]
  omega

theorem end_account (serviceId : UInt32) (carried : s.threads[thread]? = some ⟨wanted,.delivering skb⟩)
    (service : skb.bundle.service = wanted) (fate : Fate)
    (cause : wanted = serviceId → (∃ thread, event = .fail thread ∨ event = .deliver thread false) ∨ s.receiver serviceId = none) :
    Account serviceId s event
      {s with threads := s.threads.set thread ⟨wanted,.ended⟩,ended := s.ended ++ [(skb.bundle,fate)]} := by
  have moved := congrArg (tally serviceId) (ended_custody carried)
  have idle := held_set_same carried (f := blocked serviceId) (t := ⟨wanted,.ended⟩) (by simp [blocked])
  rw [tally_add,tally_single,service] at moved
  by_cases same : wanted = serviceId
  · refine .drops (.inr ((cause same).imp_right .inl)) rfl ?_
    simp only [Stack.supply,Stack.transit,idle,tally_add]
    omega
  · rw [if_neg same] at moved
    refine .still rfl ?_
    simp only [Stack.supply,Stack.transit,idle,tally_add]
    omega

theorem queued_account (serviceId : UInt32) (carried : s.threads[thread]? = some ⟨wanted,.delivering skb⟩)
    (here : s.sockAt sock = some bp) :
    Account serviceId s (.deliver thread true) {s with
      threads := s.threads.set thread ⟨wanted,.ended⟩
      socks := s.socks.set sock {bp with queue := bp.queue ++ [skb]}} := by
  refine .still rfl ?_
  have idle := held_set_same carried (f := blocked serviceId) (t := ⟨wanted,.ended⟩) (by simp [blocked])
  have moved := congrArg (tally serviceId) (ended_custody carried)
  rw [tally_add] at moved
  simp only [Stack.supply,Stack.transit,idle,queued_custody here,tally_add]
  omega

end accounts

theorem step_account (serviceId : UInt32) (sound : Sound s) (listening : Listening s.socks s.bpList s.calls)
    (taken : Step sdr s event t) : Account serviceId s event t := by
  have served := sound.1
  cases taken with
  | create =>
    refine .still rfl ?_
    simp [Stack.supply,Stack.transit,BpSock.queued,BpSock.created]
  | bindRefused | sendRefused => exact .still rfl rfl
  | bind here alive scanned => exact .still (by simp [Stack.asked,asks]) rfl
  | insert binding here free =>
    refine .still (held_set_same binding rfl) ?_
    simp [Stack.supply,Stack.transit,queued_same here]
  | @recv bp sock s size queued here alive =>
    by_cases same : bp.serviceId.toUInt32 = serviceId
    · refine .asks here same ?_ ?_
      · simp [Stack.asked,asks,same]
      · cases queued
        · simp [Stack.supply,Stack.transit]
        · simp only [Stack.supply,Stack.transit,held_append,held_cons,held_nil,requests,same,↓reduceIte,Bool.toNat_true]
          omega
    · refine .still ?_ ?_
      · simp [Stack.asked,asks,same]
      · cases queued <;> simp [Stack.supply,Stack.transit,requests,same]
  | lock asked here free =>
    refine .still (held_set_same asked rfl) ?_
    simp [Stack.supply,Stack.transit,queued_same here]
  | wake waits here filled => exact .still (held_set_same waits rfl) rfl
  | take woken here => exact take_account serviceId sound listening woken here
  | interrupt waits here drained => exact interrupt_account serviceId waits here
  | release here alive unused => exact release_account serviceId sound here unused ⟨rfl,rfl,rfl,rfl⟩
  | @send _ _ _ _ _ _ _ _ queued here alive checked =>
    refine .still rfl ?_
    cases queued <;> simp [Stack.supply,Stack.transit,requests]
  | handleRequest first => exact request_account serviceId first _
  | sendFailed first | handleSend first =>
    refine .still rfl ?_
    simp [Stack.supply,Stack.transit,first,requests]
  | arrive => exact .still rfl rfl
  | receive blocked inside mine =>
    subst mine
    exact receive_account serviceId blocked _
  | fail waits => exact fail_account serviceId waits
  | lost carried =>
    exact end_account serviceId carried (served.threads _ _ _ carried).1 _ fun _ => .inl ⟨_,.inr rfl⟩
  | unclaimed carried nobody =>
    refine end_account serviceId carried (served.threads _ _ _ carried).1 _ fun same => .inr ?_
    rw [← same]
    exact nobody
  | queued carried claimed here => exact queued_account serviceId carried here

def Stack.copies (s : Stack) (serviceId : UInt32) : List Skb :=
  (s.ended.filterMap handedSkb).filter fun skb => ofService serviceId skb.bundle

def Matched (serviceId : UInt32) (s : Stack) : Prop :=
  payloads (Stack.reads s serviceId) = (Stack.copies s serviceId).map (·.data)

theorem matched_quiet {s t : Stack} (matched : Matched serviceId s) (quiet : ∀ gone ∈ left, handedSkb gone = none)
    (replies : t.replies = s.replies) (ended : t.ended = s.ended ++ left) : Matched serviceId t := by
  have none : left.filterMap handedSkb = [] := List.filterMap_eq_nil_iff.mpr quiet
  unfold Matched Stack.reads Stack.copies at *
  rw [replies,ended,List.filterMap_append,none,List.append_nil]
  exact matched

theorem matched_finish {s : Stack} {bp : BpSock} (matched : Matched serviceId s) (service : bp.serviceId.toUInt32 = wanted)
    (queues : ∀ skb ∈ bp.queue, skb.bundle.service = bp.serviceId.toUInt32 ∧ Carries skb) (call sock size : Nat) (wake : Wake) :
    Matched serviceId (s.finish call sock wanted bp (recvOutcome size wake bp.queue)) := by
  have ways := recv_outcomes size wake bp.queue
  generalize recvOutcome size wake bp.queue = outcome at ways ⊢
  generalize bp.queue = queue at ways queues
  unfold Matched Stack.reads Stack.copies Stack.finish at *
  simp only [List.filter_append,List.map_append,List.filterMap_append,payloads_append,matched]
  congr 1
  cases ways with
  | kept => by_cases same : wanted = serviceId <;> simp [same,readResult,payloads]
  | refused => by_cases same : wanted = serviceId <;> simp [same,readResult,payloads,handedSkb,handedData]
  | handed =>
    have mine := (queues _ List.mem_cons_self).1.trans service
    by_cases same : wanted = serviceId <;> simp [same,readResult,payloads,handedSkb,handedData,ofService,mine]

theorem step_matched (matched : Matched serviceId s) (sound : Sound s) (listening : Listening s.socks s.bpList s.calls)
    (taken : Step sdr s event t) : Matched serviceId t := by
  have queues := sound.1.sockets.queues
  cases taken with
  | create | bindRefused | bind | insert | recv | lock | wake | sendRefused | send | handleRequest | sendFailed | handleSend | arrive
    | receive | fail | queued => exact matched
  | take woken here =>
    obtain ⟨_,_,there,service⟩ := listening _ (List.mem_of_getElem? woken) _ _ _ _ rfl
    cases here.symm.trans there
    exact matched_finish matched service (queues _ _ here) _ _ _ _
  | interrupt waits here drained =>
    obtain ⟨_,_,there,service⟩ := listening _ (List.mem_of_getElem? waits) _ _ _ _ rfl
    cases here.symm.trans there
    exact matched_finish matched service (queues _ _ here) _ _ _ _
  | release => exact matched_quiet matched (by simp [handedSkb,handedData]) rfl rfl
  | lost => exact matched_quiet matched (by simp [handedSkb,handedData]) rfl rfl
  | unclaimed => exact matched_quiet matched (by simp [handedSkb,handedData]) rfl rfl

-- The service is asked for by one call at a time, none of these calls is interrupted, and ION
-- keeps the order of an endpoint.
def oneReader (serviceId : UInt32) (s : Stack) (event : Event) : Bool :=
  bound s event && fifo s event && match event with
    | .recv sock _ _ => (s.sockAt sock).all fun bp => bp.serviceId.toUInt32 ≠ serviceId || s.calls.all (asks serviceId · = 0)
    | .interrupt call => (s.calls[call]?).all (asks serviceId · = 0)
    | _ => true

theorem reader_bound (fine : oneReader serviceId s event = true) : bound s event = true ∧ fifo s event = true :=
  Bool.and_eq_true_iff.mp (Bool.and_eq_true_iff.mp fine).1

theorem reader_alone (fine : oneReader serviceId s (.recv sock size queued) = true) (here : s.sockAt sock = some bp)
    (service : bp.serviceId.toUInt32 = serviceId) : ∀ call ∈ s.calls, asks serviceId call = 0 := by
  have alone := (Bool.and_eq_true_iff.mp fine).2
  simpa [here,service] using alone

theorem reader_patient (fine : oneReader serviceId s (.interrupt call) = true)
    (calling : s.calls[call]? = some waiting) : asks serviceId waiting = 0 := by
  have patient := (Bool.and_eq_true_iff.mp fine).2
  simpa [calling] using patient

structure ReaderInv (serviceId : UInt32) (s : Stack) : Prop where
  sound : Sound s
  listening : Listening s.socks s.bpList s.calls
  atMost : Stack.asked s serviceId ≤ 1
  supply : Stack.supply s serviceId ≤ Stack.asked s serviceId
  ordered : InOrder serviceId s
  matched : Matched serviceId s

theorem supply_onWay (s : Stack) (serviceId : UInt32) : (Stack.onWay s serviceId).card ≤ Stack.supply s serviceId :=
  Nat.le_add_left _ _

theorem step_reader (inv : ReaderInv serviceId s) (fine : oneReader serviceId s event = true) (taken : Step sdr s event t) :
    ReaderInv serviceId t := by
  obtain ⟨binding,first⟩ := reader_bound fine
  have account := step_account serviceId inv.sound inv.listening taken
  have counts : Stack.asked t serviceId ≤ 1 ∧ Stack.supply t serviceId ≤ Stack.asked t serviceId := by
    have atMost := inv.atMost
    have below := inv.supply
    cases account with
    | still asked supply => omega
    | @asks _ _ _ _ queued here service asked supply =>
      have alone : Stack.asked s serviceId = 0 := held_none (reader_alone fine here service)
      have one : queued.toNat ≤ 1 := by cases queued <;> decide
      omega
    | serves asked supply => omega
    | quits calling asked supply =>
      have patient := reader_patient fine calling
      simp [asks] at patient
    | drops cause asked supply => omega
  have before := (supply_onWay s serviceId).trans (inv.supply.trans inv.atMost)
  have after := (supply_onWay t serviceId).trans (counts.2.trans counts.1)
  exact ⟨sound_step inv.sound (bound_once binding) taken,step_listening inv.listening binding taken,counts.1,counts.2,
    step_order inv.ordered before after first (step_moves taken),step_matched inv.matched inv.sound inv.listening taken⟩

theorem reader_empty (serviceId : UInt32) : ReaderInv serviceId Stack.empty := by
  refine ⟨sound_empty,?_,Nat.zero_le _,Nat.le_refl _,⟨[],rfl,rfl⟩,rfl⟩
  intro call member
  cases member

theorem run_reader (run : Run (Checked (oneReader serviceId) (Step sdr)) Stack.empty events s) : ReaderInv serviceId s :=
  run.preserves (fun _ _ _ inv taken => step_reader inv taken.1 taken.2) (reader_empty serviceId)

theorem matched_handed (matched : Matched serviceId s) : (Listener.start.run (Stack.reads s serviceId)).handed =
    ((Stack.copies s serviceId).take (Listener.start.run (Stack.reads s serviceId)).handed.length).map (·.data) := by
  have read : (Listener.start.run (Stack.reads s serviceId)).handed <+: (Stack.copies s serviceId).map (·.data) := by
    rw [← matched,run_spec rfl,Listener.start,List.nil_append]
    refine ⟨payloads ((Stack.reads s serviceId).dropWhile (!·.breaks)),?_⟩
    rw [← payloads_append,List.takeWhile_append_dropWhile]
  rw [List.map_take]
  exact List.prefix_iff_eq_take.mp read

theorem copies_carry (served : Served s) (member : skb ∈ (Stack.copies s serviceId).take count) : Carries skb :=
  ended_carries served (List.mem_filter.mp (List.mem_of_mem_take member)).1

theorem copies_gone (s : Stack) (serviceId : UInt32) (count : Nat) :
    (((Stack.copies s serviceId).take count).map (·.bundle)).Sublist ((Stack.gone s).filter (ofService serviceId)) := by
  have whole := (handed_gone s.ended).filter (ofService serviceId)
  rw [List.filter_map] at whole
  exact ((List.take_sublist _ _).map _).trans whole

theorem reader_copies (inv : ReaderInv serviceId s) : ∃ copies : List Skb, (∀ skb ∈ copies, Carries skb) ∧
    (Listener.start.run (Stack.reads s serviceId)).handed = copies.map (·.data) ∧
    (copies.map (·.bundle)).Sublist (s.arrived.filter (ofService serviceId)) := by
  obtain ⟨middle,_,order⟩ := inv.ordered
  refine ⟨_,fun skb member => copies_carry inv.sound.1 member,matched_handed inv.matched,?_⟩
  refine (copies_gone s serviceId _).trans ?_
  rw [← order,List.append_assoc]
  exact List.sublist_append_left _ _

-- One undisturbed reader: at most one bundle of its service is between ION and a fate, so the
-- bundles meet their fates in the order of arrival. The listener hands on copies of
-- bundles that arrived, in that order and each once, whatever is lost between.
theorem reader_in_order (run : Run (Checked (oneReader serviceId) (Step sdr)) Stack.empty events s) :
    (∃ middle : List Bundle, middle.length ≤ 1 ∧
      (Stack.gone s).filter (ofService serviceId) ++ middle ++ s.inbox.filter (ofService serviceId) =
        s.arrived.filter (ofService serviceId)) ∧
    ∃ copies : List Skb, (∀ skb ∈ copies, Carries skb) ∧
      (Listener.start.run (Stack.reads s serviceId)).handed = copies.map (·.data) ∧
      (copies.map (·.bundle)).Sublist (s.arrived.filter (ofService serviceId)) := by
  have inv := run_reader run
  obtain ⟨middle,same,order⟩ := inv.ordered
  have short := (supply_onWay s serviceId).trans (inv.supply.trans inv.atMost)
  rw [← same,Multiset.coe_card] at short
  exact ⟨⟨middle,short,order⟩,reader_copies inv⟩

theorem exchange_reader : Run (Checked (oneReader 3) (Step roomySdr)) Stack.empty exchange exchanged :=
  checked_run exchange_followed (by decide +kernel)

theorem reader_in_order_exchange : ∃ copies : List Skb, (∀ skb ∈ copies, Carries skb) ∧
    (Listener.start.run (Stack.reads exchanged 3)).handed = copies.map (·.data) ∧
    (copies.map (·.bundle)).Sublist (exchanged.arrived.filter (ofService 3)) := (reader_in_order exchange_reader).2

-- After an interrupted call two threads wait for ION, and the later bundle can come first.
example : ((follow (step roomySdr) Stack.empty [.create,.bind 0 16 ⟨afBp,bpSchemeIpn,20,3⟩,.insert 0,.recv 0 1024 true,
    .handleRequest true,.lock 1,.interrupt 1,.recv 0 1024 true,.handleRequest true,.arrive ⟨3,[65]⟩,.arrive ⟨3,[66]⟩,
    .receive 0 ⟨3,[65]⟩ [],.receive 1 ⟨3,[66]⟩ [],.deliver 1 true,.deliver 0 true,.lock 2,.wake 2,.take 2 true]).map
    Stack.gone) = some [⟨3,[66]⟩] := rfl

end DTChat.BpOrder
