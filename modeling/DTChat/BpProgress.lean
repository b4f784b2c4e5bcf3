import DTChat.BpOrder
import DTChat.BpBinding

namespace DTChat.BpProgress
open Holdings Runs ListenerLoop BpStack BpCustody BpReceive BpOrder BpBinding
open LockedThreads (set_map)
open EndpointAddresses (afBp bpSchemeIpn)

-- Netlink and the daemon lose no request and no delivery, sockets are bound once and before they are
-- read, and no two bound sockets have one service: deliver_bundle_doit looks at nothing else.
def reliable (s : Stack) (event : Event) : Bool :=
  bound s event && match event with
    | .recv _ _ queued => queued
    | .insert call => ((s.calls[call]?).bind bindsTo).all fun key => (s.receiver key.2.toUInt32).isNone
    | .handleRequest started => started
    | .fail _ => false
    | .deliver _ sent => sent
    | _ => true

theorem reliable_bound (fine : reliable s event = true) : bound s event = true := (Bool.and_eq_true_iff.mp fine).1

theorem reliable_recv (fine : reliable s (.recv sock size queued) = true) : queued = true :=
  (Bool.and_eq_true_iff.mp fine).2

theorem reliable_insert (fine : reliable s (.insert call) = true)
    (binding : s.calls[call]? = some (.bind sock nodeId serviceId)) : s.receiver serviceId.toUInt32 = none := by
  have nobody := (Bool.and_eq_true_iff.mp fine).2
  simpa [binding,bindsTo] using nobody

theorem reliable_quiet (fine : reliable s event = true) (thread : Nat) :
    event ≠ .handleRequest false ∧ event ≠ .fail thread ∧ event ≠ .deliver thread false := by
  refine ⟨?_,?_,?_⟩
  all_goals
    rintro rfl
    simp [reliable] at fine

def services (socks : List BpSock) : List UInt8 := socks.map (·.serviceId)

theorem service_at {socks : List BpSock} {sock : Nat} {bp : BpSock} (here : socks[sock]? = some bp) :
    (services socks)[sock]? = some bp.serviceId := key_at here

theorem receiver_none {s : Stack} {sock : Nat} (nobody : s.receiver serviceId = none) (inside : sock ∈ s.bpList)
    (here : s.sockAt sock = some bp) : bp.serviceId.toUInt32 ≠ serviceId := by
  have none := List.find?_eq_none.mp nobody sock inside
  simpa [here] using none

theorem step_services (sound : Sound s) (distinct : Distinct (services s.socks) s.bpList) (fine : reliable s event = true)
    (taken : Step sdr s event t) : Distinct (services t.socks) t.bpList := by
  refine step_distinct (fun a b _ service => service) sound (bound_once (reliable_bound fine)) distinct ?_ taken
  intro call sock nodeId serviceId bp inserted binding here other inside found there same
  subst inserted
  exact receiver_none (reliable_insert fine binding) inside there (by rw [same])

-- Nobody who waits is forgotten: for every call there is a request, a waiting thread or a bundle.
structure Supplied (s : Stack) : Prop where
  sound : Sound s
  listening : Listening s.socks s.bpList s.calls
  distinct : Distinct (services s.socks) s.bpList
  supply : ∀ serviceId, Stack.asked s serviceId ≤ Stack.supply s serviceId

theorem asks_reading (positive : asks serviceId call ≠ 0) : ∃ sock size stage, call = .recv sock serviceId size stage := by
  unfold asks at positive
  split at positive
  · rename_i sock wanted size stage
    by_cases same : wanted = serviceId
    · exact ⟨sock,size,stage,by rw [same]⟩
    · simp [same] at positive
  · exact absurd rfl positive

theorem step_supplied (inv : Supplied s) (fine : reliable s event = true) (taken : Step sdr s event t) : Supplied t := by
  have binding := reliable_bound fine
  refine ⟨sound_step inv.sound (bound_once binding) taken,step_listening inv.listening binding taken,
    step_services inv.sound inv.distinct fine taken,fun serviceId => ?_⟩
  have below := inv.supply serviceId
  cases step_account serviceId inv.sound inv.listening taken with
  | still asked supply => omega
  | asks here service asked supply =>
    rw [reliable_recv fine,Bool.toNat_true] at supply
    omega
  | serves asked supply => omega
  | quits calling asked supply => omega
  | drops cause asked supply =>
    -- Only where nobody asks is a bundle dropped.
    have nobody : Stack.asked s serviceId = 0 := by
      refine held_none fun call member => Classical.byContradiction fun positive => ?_
      obtain ⟨sock,size,stage,rfl⟩ := asks_reading positive
      obtain ⟨inside,bp,here,service⟩ := inv.listening _ member sock serviceId size stage rfl
      rcases cause with dropped | ⟨thread,failed | dropped⟩ | none | ⟨other,found,there,same,listed,unused⟩
      · exact (reliable_quiet fine 0).1 dropped
      · exact (reliable_quiet fine thread).2.1 failed
      · exact (reliable_quiet fine thread).2.2 dropped
      · exact receiver_none none inside here service
      · have equal : sock = other := by
          refine inv.distinct sock inside other listed ?_
          rw [service_at here,service_at there,← UInt8.toUInt32_inj.mp (service.trans same.symm)]
        exact unused _ member (by rw [← equal]; rfl)
    omega

theorem supplied_empty : Supplied Stack.empty := by
  refine ⟨sound_empty,?_,?_,fun serviceId => Nat.zero_le _⟩
  · intro call member
    cases member
  · intro i member
    cases member

theorem run_supplied (run : Run (Checked reliable (Step sdr)) Stack.empty events s) : Supplied s :=
  run.preserves (fun _ _ _ inv taken => step_supplied inv taken.1 taken.2) supplied_empty

-- Steps of the daemon, of its threads and of one call that is waiting, none of which loses a bundle:
-- a send fails only where ION has no string for it.
def smooth (sdr : SdrString) (call : Nat) (s : Stack) (event : Event) : Bool :=
  fifo s event && match event with
    | .handleRequest started => started
    | .handleSend memory => memory.isSome || s.upcalls.head?.all fun
      | .sendBundle _ _ payload => (bpSendToEid sdr payload [] []).isNone
      | .requestBundle _ => true
    | .receive _ _ _ => true
    | .deliver _ sent => sent
    | .wake other => other = call
    | .take other copied => other = call && copied
    | _ => false

theorem smooth_once (fine : smooth sdr call s event = true) : once s event = true := by
  cases event with
  | insert => cases (Bool.and_eq_true_iff.mp fine).2
  | _ => rfl

structure Waiting (s : Stack) (call sock : Nat) (serviceId : UInt32) (size : Nat) : Prop where
  sound : Sound s
  waits : s.calls[call]? = some (.recv sock serviceId size .waiting)
  claimed : s.receiver serviceId = some sock

def Answered (s : Stack) (call : Nat) (serviceId : UInt32) (size : Nat) : Prop := ∃ skb : Skb, Carries skb ∧
  skb.bundle.service = serviceId ∧
  Reply.mk call serviceId (if size < skb.data.length then .error .eMsgSize else .ok skb.data) ∈ s.replies

def Serves (sdr : SdrString) (s : Stack) (call : Nat) (serviceId : UInt32) (size : Nat) : Prop := ∃ later t,
  Run (Checked (smooth sdr call) (Step sdr)) s later t ∧ Answered t call serviceId size

theorem Serves.before (taken : Step sdr s event t) (fine : smooth sdr call s event = true)
    (serves : Serves sdr t call serviceId size) : Serves sdr s call serviceId size := by
  obtain ⟨later,last,run,answered⟩ := serves
  exact ⟨[event] ++ later,last,(Run.nil.snoc ⟨fine,taken⟩).append run,answered⟩

theorem Waiting.after (waiting : Waiting s call sock serviceId size) (taken : Step sdr s event t)
    (fine : smooth sdr call s event = true) (waits : t.calls = s.calls)
    (claimed : t.receiver serviceId = s.receiver serviceId) : Waiting t call sock serviceId size :=
  ⟨sound_step waiting.sound (smooth_once fine) taken,waits ▸ waiting.waits,claimed.trans waiting.claimed⟩

theorem receiver_services (s : Stack) (serviceId : UInt32) : s.receiver serviceId =
    s.bpList.find? fun sock => ((services s.socks)[sock]?).any fun service => service.toUInt32 = serviceId := by
  simp [Stack.receiver,Stack.sockAt,services,Option.any_map]

theorem receiver_same {s t : Stack} (socks : services t.socks = services s.socks) (list : t.bpList = s.bpList)
    (serviceId : UInt32) : t.receiver serviceId = s.receiver serviceId := by
  rw [receiver_services,receiver_services,socks,list]

section serving

variable {s : Stack} {call sock thread size : Nat} {serviceId : UInt32}

theorem serve_queued (waiting : Waiting s call sock serviceId size) (here : s.sockAt sock = some bp) (filled : bp.queue ≠ []) :
    Serves sdr s call serviceId size := by
  obtain ⟨_,there,alive⟩ := waiting.sound.1.sockets.used _ (List.mem_of_getElem? waiting.waits) sock rfl
  cases here.symm.trans there
  have inside := (List.getElem?_eq_some_iff.mp waiting.waits).1
  have woken : (s.calls.set call (.recv sock serviceId size .woken))[call]? = some (.recv sock serviceId size .woken) :=
    List.getElem?_set_self inside
  have wakes : Step sdr s (.wake call) _ := .wake waiting.waits here filled
  have takes : Step sdr {s with calls := s.calls.set call (.recv sock serviceId size .woken)} (.take call true) _ :=
    .take woken here
  refine .before wakes ?_ (.before takes ?_ ⟨[],_,.nil,?_⟩)
  · simp [smooth,fifo]
  · simp [smooth,fifo]
  obtain ⟨skb,rest,queue⟩ := List.exists_cons_of_ne_nil filled
  have mine := waiting.sound.1.sockets.queues sock bp here skb (by rw [queue]; exact List.mem_cons_self)
  refine ⟨skb,mine.2,mine.1.trans ((receiver_parts waiting.claimed).2 bp here),?_⟩
  refine List.mem_append_right _ (List.mem_singleton.mpr ?_)
  by_cases long : size < skb.data.length <;> simp [recvOutcome,bpRecvmsg,queue,alive,long]

theorem serve_carried (waiting : Waiting s call sock serviceId size)
    (carried : s.threads[thread]? = some ⟨serviceId,.delivering skb⟩) : Serves sdr s call serviceId size := by
  obtain ⟨bp,here,_⟩ := waiting.sound.1.sockets.used _ (List.mem_of_getElem? waiting.waits) sock rfl
  have taken : Step sdr s (.deliver thread true) _ := .queued carried waiting.claimed here
  have there : (s.socks.set sock {bp with queue := bp.queue ++ [skb]})[sock]? = some {bp with queue := bp.queue ++ [skb]} :=
    List.getElem?_set_self (List.getElem?_eq_some_iff.mp here).1
  refine .before taken rfl (serve_queued (waiting.after taken rfl rfl ?_) there (by simp))
  refine receiver_same ?_ ?_ serviceId
  · refine set_map here ?_
    rfl
  · rfl

theorem serve_blocked (waiting : Waiting s call sock serviceId size) (blocked : s.threads[thread]? = some ⟨serviceId,.receiving⟩)
    (held : ∃ bundle ∈ s.inbox, bundle.service = serviceId) : Serves sdr s call serviceId size := by
  have some_next : (nextBundle serviceId s.inbox).isSome := by
    obtain ⟨bundle,inside,same⟩ := held
    exact List.find?_isSome.mpr ⟨bundle,inside,by simpa using same⟩
  obtain ⟨bundle,next⟩ := Option.isSome_iff_exists.mp some_next
  obtain ⟨inside,rfl⟩ := next_bundle next
  have taken : Step sdr s (.receive thread bundle []) _ := .receive blocked inside rfl
  have carried := List.getElem?_set_self (a := (⟨bundle.service,.delivering ⟨bundle,nlaString bundle.adu []⟩⟩ : RecvThread))
    (List.getElem?_eq_some_iff.mp blocked).1
  have fine : smooth sdr call s (.receive thread bundle []) = true := by simp [smooth,fifo,next]
  exact .before taken fine (serve_carried (waiting.after taken fine rfl rfl) carried)

theorem serve_requested (waiting : Waiting s call sock serviceId size)
    (requested : .requestBundle serviceId ∈ s.upcalls) (held : ∃ bundle ∈ s.inbox, bundle.service = serviceId) :
    Serves sdr s call serviceId size := by
  obtain ⟨before,after,split⟩ := List.append_of_mem requested
  induction before generalizing s with
  | nil =>
    have taken : Step sdr s (.handleRequest true) _ := .handleRequest split
    have started : (s.threads ++ [⟨serviceId,.receiving⟩])[s.threads.length]? = some ⟨serviceId,.receiving⟩ := by simp
    exact .before taken rfl (serve_blocked (waiting.after taken rfl rfl rfl) started held)
  | cons first before ih =>
    have member : .requestBundle serviceId ∈ before ++ .requestBundle serviceId :: after := by simp
    cases first with
    | sendBundle nodeId wanted payload =>
      cases made : bpSendToEid sdr payload [] [] with
      | none =>
        have taken : Step sdr s (.handleSend none) _ := .sendFailed split
        have fine : smooth sdr call s (.handleSend none) = true := by simp [smooth,fifo,split,made]
        exact .before taken fine (ih (waiting.after taken fine rfl rfl) member held rfl)
      | some adu =>
        have taken : Step sdr s (.handleSend (some ([],[]))) _ := .handleSend split made
        exact .before taken rfl (ih (waiting.after taken rfl rfl rfl) member held rfl)
    | requestBundle wanted =>
      have taken : Step sdr s (.handleRequest true) _ := .handleRequest split
      exact .before taken rfl (ih (waiting.after taken rfl rfl rfl) member held rfl)

end serving

theorem tally_held (serviceId : UInt32) (f : σ → Multiset Bundle) (entries : List σ) :
    tally serviceId (held f entries) = held (fun s => tally serviceId (f s)) entries :=
  held_map (⟨⟨tally serviceId,tally_zero serviceId⟩,tally_add serviceId⟩ : Multiset Bundle →+ Nat) f entries

theorem tally_member (positive : 0 < tally serviceId bundles) : ∃ bundle ∈ bundles, bundle.service = serviceId := by
  obtain ⟨bundle,member⟩ := Multiset.card_pos_iff_exists_mem.mp positive
  obtain ⟨inside,mine⟩ := Multiset.mem_filter.mp member
  exact ⟨bundle,inside,by simpa [ofService] using mine⟩

theorem supplied_claimed (inv : Supplied s) (inside : sock ∈ s.bpList) (here : s.sockAt sock = some bp)
    (service : bp.serviceId.toUInt32 = serviceId) : s.receiver serviceId = some sock := by
  cases claimed : s.receiver serviceId with
  | none => exact absurd service (receiver_none claimed inside here)
  | some other =>
    obtain ⟨listed,same⟩ := receiver_parts claimed
    obtain ⟨found,there,_⟩ := inv.sound.1.sockets.listed other listed
    have services : (services s.socks)[other]? = (services s.socks)[sock]? := by
      rw [service_at there,service_at here,UInt8.toUInt32_inj.mp ((same found there).trans service.symm)]
    rw [inv.distinct other listed sock inside services]

-- No wake-up is lost: a call that waits while ION holds a bundle of its service is answered
-- by steps of the daemon, its threads and the call alone, from any state that is reached.
theorem waiting_served (run : Run (Checked reliable (Step sdr)) Stack.empty events s)
    (waits : s.calls[(call : Nat)]? = some (.recv sock serviceId size .waiting))
    (available : ∃ bundle ∈ s.inbox, bundle.service = serviceId) : Serves sdr s call serviceId size := by
  have inv := run_supplied run
  obtain ⟨inside,bp,here,service⟩ := inv.listening _ (List.mem_of_getElem? waits) sock serviceId size _ rfl
  have waiting : Waiting s call sock serviceId size := ⟨inv.sound,waits,supplied_claimed inv inside here service⟩
  have asking := le_held waits (f := asks serviceId)
  have one : asks serviceId (.recv sock serviceId size .waiting) = 1 := if_pos rfl
  have supplied : 0 < Stack.supply s serviceId := by
    have below := inv.supply serviceId
    unfold Stack.asked at below
    omega
  unfold Stack.supply Stack.transit at supplied
  rw [tally_add,tally_held,tally_held] at supplied
  have somewhere : 0 < held (requests serviceId) s.upcalls ∨ 0 < held (blocked serviceId) s.threads ∨
      0 < held (fun thread => tally serviceId (RecvThread.carried thread)) s.threads ∨
      0 < held (fun bp => tally serviceId (BpSock.queued bp)) s.socks := by omega
  rcases somewhere with requested | starting | carrying | queued
  · obtain ⟨i,upcall,there,positive⟩ := held_positive requested
    refine serve_requested waiting ?_ available
    cases upcall with
    | sendBundle => exact absurd positive (Nat.lt_irrefl 0)
    | requestBundle wanted =>
      by_cases same : wanted = serviceId
      · rw [← same]
        exact List.mem_of_getElem? there
      · simp [requests,same] at positive
  · obtain ⟨i,thread,there,positive⟩ := held_positive starting
    unfold blocked at positive
    split at positive
    · rename_i same
      exact serve_blocked waiting (same ▸ there) available
    · exact absurd positive (Nat.lt_irrefl 0)
  · obtain ⟨i,thread,there,positive⟩ := held_positive carrying
    obtain ⟨bundle,member,mine⟩ := tally_member positive
    obtain ⟨wanted,phase⟩ := thread
    cases phase with
    | receiving => cases Multiset.notMem_zero _ member
    | ended => cases Multiset.notMem_zero _ member
    | delivering skb =>
      have bundled := Multiset.mem_singleton.mp member
      have same := (inv.sound.1.threads i wanted skb there).1
      rw [← bundled,mine] at same
      subst same
      exact serve_carried waiting there
  · obtain ⟨other,found,there,positive⟩ := held_positive queued
    obtain ⟨bundle,member,mine⟩ := tally_member positive
    obtain ⟨skb,inQueue,bundled⟩ := List.mem_map.mp (Multiset.mem_coe.mp member)
    have filled : found.queue ≠ [] := List.ne_nil_of_mem inQueue
    have served := (inv.sound.1.sockets.queues other found there skb inQueue).1
    rw [bundled,mine] at served
    have listed : other ∈ s.bpList := Classical.byContradiction fun apart =>
      filled (inv.sound.1.sockets.unlisted other found there apart)
    have same := (supplied_claimed inv listed there served.symm).symm.trans waiting.claimed
    cases Option.some.inj same
    exact serve_queued waiting there filled

def started : List Event := [
  .create,.bind 0 16 ⟨afBp,bpSchemeIpn,20,3⟩,.insert 0,.recv 0 1024 true,.lock 1,.arrive ⟨3,[72,105]⟩]

def startedStack : Stack := (follow (step roomySdr) Stack.empty started).getD Stack.empty

theorem started_run : Run (Checked reliable (Step roomySdr)) Stack.empty started startedStack :=
  checked_run rfl (by decide +kernel)

theorem waiting_served_started : Serves roomySdr startedStack 1 3 1024 :=
  have waits : startedStack.calls[1]? = some (.recv 0 3 1024 .waiting) := rfl
  have held : startedStack.inbox = [⟨3,[72,105]⟩] := rfl
  waiting_served started_run waits ⟨⟨3,[72,105]⟩,by simp [held],rfl⟩

end DTChat.BpProgress
