import DTChat.BpCustody

namespace DTChat.BpReceive
open Holdings Runs ListenerLoop BpStack BpCustody
open LockedThreads (set_cases spawned_cases)

def Call.inside : Call → Option Nat
  | .recv sock _ _ .waiting => some sock
  | .recv sock _ _ .woken => some sock
  | _ => none

def holds (sock : Nat) (call : Call) : Nat := if Call.inside call = some sock then 1 else 0

theorem inside_sock (entered : Call.inside call = some sock) : call.sock = some sock := by
  unfold Call.inside at entered
  split at entered
  · exact entered
  · exact entered
  · cases entered

-- `lock_sock` has one owner, whose wait has ended only if there is a buffer for it.
structure Guarded (socks : List BpSock) (calls : List Call) (replies : List Reply) : Prop where
  owner : ∀ (sock : Nat) (bp : BpSock), socks[sock]? = some bp → held (holds sock) calls = bp.locked.toNat
  filled : ∀ (call sock : Nat) (serviceId : UInt32) (size : Nat) (bp : BpSock),
    calls[call]? = some (.recv sock serviceId size .woken) → socks[sock]? = some bp → bp.queue ≠ []
  replies : ∀ reply ∈ replies, reply.result ≠ .error .eAgain ∧ reply.result ≠ .error .eConnReset

section steps

variable {socks : List BpSock} {calls : List Call} {replies : List Reply} {bpList : List Nat}
  {bp next : BpSock} {call sock : Nat} {old new : Call}

theorem Guarded.socket (guarded : Guarded socks calls replies) (here : socks[sock]? = some bp)
    (same : next.locked = bp.locked)
    (woken : ∀ (call : Nat) (serviceId : UInt32) (size : Nat), calls[call]? = some (.recv sock serviceId size .woken) →
      next.queue ≠ []) : Guarded (socks.set sock next) calls replies := by
  refine ⟨fun other found there => ?_,fun call other service wanted found there opened => ?_,guarded.replies⟩
  · rcases set_cases there with ⟨rfl,rfl⟩ | ⟨_,before⟩
    · rw [same]
      exact guarded.owner other bp here
    · exact guarded.owner other found before
  · rcases set_cases opened with ⟨rfl,rfl⟩ | ⟨_,before⟩
    · exact woken call service wanted there
    · exact guarded.filled call other service wanted found there before

theorem Guarded.start (guarded : Guarded socks calls replies) (outside : Call.inside new = none) :
    Guarded socks (calls ++ [new]) replies := by
  refine ⟨fun other found there => ?_,fun call other service wanted found there opened => ?_,guarded.replies⟩
  · have none : holds other new = 0 := if_neg (by simp [outside])
    simpa [none] using guarded.owner other found there
  · rcases spawned_cases there with before | ⟨_,same⟩
    · exact guarded.filled call other service wanted found before opened
    · rw [← same] at outside
      cases outside

theorem Guarded.move (guarded : Guarded socks calls replies) (here : calls[call]? = some old)
    (same : Call.inside new = Call.inside old)
    (woken : ∀ (sock : Nat) (serviceId : UInt32) (size : Nat) (bp : BpSock), new = .recv sock serviceId size .woken →
      socks[sock]? = some bp → bp.queue ≠ []) : Guarded socks (calls.set call new) replies := by
  refine ⟨fun other found there => ?_,fun later other service wanted found there opened => ?_,guarded.replies⟩
  · have held := held_set_same here (show holds other new = holds other old by unfold holds; rw [same])
    exact held.trans (guarded.owner other found there)
  · rcases set_cases there with ⟨_,waking⟩ | ⟨_,before⟩
    · exact woken other service wanted found waking.symm opened
    · exact guarded.filled later other service wanted found before opened

theorem Guarded.one (guarded : Guarded socks calls replies) (opened : Opened socks sock) {first second : Nat} {other : Call}
    (here : calls[first]? = some old) (there : calls[second]? = some other)
    (mine : Call.inside old = some sock) (theirs : Call.inside other = some sock) : first = second := by
  obtain ⟨bp,opened,_⟩ := opened
  have owned := guarded.owner sock bp opened
  have atMost : held (holds sock) calls ≤ 1 := by
    rw [owned]
    cases bp.locked <;> decide
  exact held_alone atMost here there (by simp [holds,mine]) (by simp [holds,theirs])

theorem Guarded.lock (guarded : Guarded socks calls replies)
    (asked : calls[call]? = some (.recv sock serviceId size .asked)) (here : socks[sock]? = some bp)
    (free : bp.locked = false) :
    Guarded (socks.set sock {bp with locked := true}) (calls.set call (.recv sock serviceId size .waiting)) replies := by
  refine ⟨fun other found there => ?_,fun woken other service wanted found there opened => ?_,guarded.replies⟩
  · have entered := held_set asked (.recv sock serviceId size .waiting) (f := holds other)
    have before : holds other (.recv sock serviceId size .asked) = 0 := rfl
    rcases set_cases there with ⟨rfl,rfl⟩ | ⟨apart,old⟩
    · have owned := guarded.owner other bp here
      have after : holds other (.recv other serviceId size .waiting) = 1 := if_pos rfl
      simp only [free,Bool.toNat_false] at owned
      simp only [Bool.toNat_true]
      omega
    · have owned := guarded.owner other found old
      have after : holds other (.recv sock serviceId size .waiting) = 0 := if_neg (by simp [Call.inside,Ne.symm apart])
      omega
  · rcases set_cases there with ⟨_,same⟩ | ⟨_,old⟩
    · cases same
    · rcases set_cases opened with ⟨rfl,rfl⟩ | ⟨_,there⟩
      · exact guarded.filled woken _ service wanted bp old here
      · exact guarded.filled woken other service wanted found old there

theorem Guarded.finish (guarded : Guarded socks calls replies) (calling : calls[call]? = some old)
    (entered : Call.inside old = some sock) (here : socks[sock]? = some bp) (alive : bp.dead = false) (reply : Reply)
    (fine : reply.result ≠ .error .eAgain ∧ reply.result ≠ .error .eConnReset) (queue : List Skb) :
    Guarded (socks.set sock {bp with queue := queue,locked := false}) (calls.set call .returned) (replies ++ [reply]) := by
  refine ⟨fun other found there => ?_,fun woken other service wanted found there opened => ?_,fun answer member => ?_⟩
  · have left := held_set calling .returned (f := holds other)
    have after : holds other .returned = 0 := rfl
    rcases set_cases there with ⟨rfl,rfl⟩ | ⟨apart,old⟩
    · have owned := guarded.owner other bp here
      have before : holds other old = 1 := if_pos entered
      have most : bp.locked.toNat ≤ 1 := by cases bp.locked <;> decide
      simp only [Bool.toNat_false]
      omega
    · have owned := guarded.owner other found old
      have before : holds other _ = 0 := if_neg (by rw [entered]; simpa using Ne.symm apart)
      omega
  · rcases set_cases there with ⟨_,same⟩ | ⟨apart,old⟩
    · cases same
    · rcases set_cases opened with ⟨rfl,rfl⟩ | ⟨_,there⟩
      · exact absurd (guarded.one ⟨bp,here,alive⟩ calling old entered rfl) (Ne.symm apart)
      · exact guarded.filled woken other service wanted found old there
  · rcases List.mem_append.mp member with before | last
    · exact guarded.replies answer before
    · cases List.mem_singleton.mp last
      exact fine

theorem Guarded.create (guarded : Guarded socks calls replies) (sockets : Sockets socks bpList calls) :
    Guarded (socks ++ [.created]) calls replies := by
  have known : ∀ call ∈ calls, ∀ sock, call.sock = some sock → sock < socks.length := by
    intro call member sock on
    obtain ⟨bp,opened,_⟩ := sockets.used call member sock on
    exact (List.getElem?_eq_some_iff.mp opened).1
  refine ⟨fun other found there => ?_,fun call other service wanted found there opened => ?_,guarded.replies⟩
  · rcases spawned_cases there with old | ⟨rfl,rfl⟩
    · exact guarded.owner other found old
    · refine held_none fun call member => if_neg fun entered => ?_
      exact absurd (known call member _ (inside_sock entered)) (Nat.lt_irrefl _)
  · rcases spawned_cases opened with old | ⟨rfl,rfl⟩
    · exact guarded.filled call other service wanted found there old
    · exact absurd (known _ (List.mem_of_getElem? there) _ rfl) (Nat.lt_irrefl _)

end steps

theorem woken_takes {bp : BpSock} (alive : bp.dead = false) (filled : bp.queue ≠ []) (size : Nat) (copied : Bool) :
    ∃ skb rest fate, bp.queue = skb :: rest ∧
      (recvOutcome size ⟨false,bp.dead,copied⟩ bp.queue).left = [(skb.bundle,fate)] ∧
      (recvOutcome size ⟨false,bp.dead,copied⟩ bp.queue).queue = rest := by
  have ways := recv_outcomes size ⟨false,bp.dead,copied⟩ bp.queue
  generalize recvOutcome size ⟨false,bp.dead,copied⟩ bp.queue = outcome at ways ⊢
  generalize bp.queue = queue at ways filled
  cases ways with
  | kept failed => simp [alive,filled] at failed
  | handed | refused => exact ⟨_,_,_,rfl,rfl,rfl⟩

theorem woken_outcome {bp : BpSock} (alive : bp.dead = false) (filled : bp.queue ≠ []) :
    (recvOutcome size ⟨false,bp.dead,copied⟩ bp.queue).result ≠ .error .eAgain ∧
      (recvOutcome size ⟨false,bp.dead,copied⟩ bp.queue).result ≠ .error .eConnReset := by
  have ways := recv_outcomes size ⟨false,bp.dead,copied⟩ bp.queue
  generalize recvOutcome size ⟨false,bp.dead,copied⟩ bp.queue = outcome at ways ⊢
  generalize bp.queue = queue at ways filled
  cases ways with
  | kept failed => simp [alive,filled] at failed
  | handed => simp
  | refused failed => rcases failed with rfl | rfl <;> simp

theorem step_guarded (served : Served s) (guarded : Guarded s.socks s.calls s.replies) (taken : Step sdr s event t) :
    Guarded t.socks t.calls t.replies := by
  have used := served.sockets.used
  cases taken with
  | create => exact guarded.create served.sockets
  | bindRefused | sendRefused | send | sendFailed | handleSend | handleRequest | arrive | receive | fail | lost | unclaimed =>
    exact guarded
  | bind here alive scanned => exact guarded.start rfl
  | insert binding here free =>
    have moved : Guarded s.socks (s.calls.set _ .returned) s.replies := guarded.move binding rfl (by simp)
    refine moved.socket here ?_ fun call serviceId size woken => ?_
    · rfl
    · have filled := moved.filled call _ serviceId size _ woken here
      exact filled
  | recv here alive => exact guarded.start rfl
  | lock asked here free => exact guarded.lock asked here free
  | wake waits here filled =>
    refine guarded.move waits rfl fun sock serviceId size bp same there => ?_
    cases same
    cases here.symm.trans there
    exact filled
  | take woken here =>
    obtain ⟨bp,there,alive⟩ := used _ (List.mem_of_getElem? woken) _ rfl
    cases here.symm.trans there
    exact guarded.finish woken rfl here alive _ (woken_outcome alive (guarded.filled _ _ _ _ _ woken here)) _
  | interrupt waits here drained =>
    obtain ⟨bp,there,alive⟩ := used _ (List.mem_of_getElem? waits) _ rfl
    cases here.symm.trans there
    exact guarded.finish waits rfl here alive _ (by simp [recv_interrupted]) _
  | release here alive unused =>
    refine guarded.socket here ?_ fun call serviceId size woken => ?_
    · rfl
    · exact absurd rfl (unused _ (List.mem_of_getElem? woken))
  | queued carried claimed here =>
    refine guarded.socket here ?_ fun call serviceId size woken => ?_
    · rfl
    · simp

def Sound (s : Stack) : Prop := Served s ∧ Guarded s.socks s.calls s.replies

theorem sound_empty : Sound Stack.empty := ⟨served_empty,by constructor <;> simp [Stack.empty]⟩

theorem sound_step (sound : Sound s) (fine : once s event = true) (taken : Step sdr s event t) : Sound t :=
  ⟨step_served sound.1 fine taken,step_guarded sound.1 sound.2 taken⟩

theorem run_sound (run : Run (Checked once (Step sdr)) Stack.empty events s) : Sound s :=
  run.preserves (fun _ _ _ sound taken => sound_step sound taken.1 taken.2) sound_empty

def Stack.reads (s : Stack) (serviceId : UInt32) : List ReadResult :=
  (s.replies.filter (·.serviceId = serviceId)).map fun reply => readResult reply.result

-- Whatever the interleaving, with sockets bound once `bp_recvmsg` never finds its queue empty or its
-- socket dead behind its wait, and one call at a time waits on a socket. So `WouldBlock` is never
-- read, and a listener goes on exactly as long as every call returned a bundle.
theorem recv_waits (run : Run (Checked once (Step sdr)) Stack.empty events s) :
    (∀ reply ∈ s.replies, reply.result ≠ .error .eAgain ∧ reply.result ≠ .error .eConnReset) ∧
    (∀ (i j : Nat) (first second : Call) (sock : Nat), s.calls[i]? = some first → s.calls[j]? = some second →
      Call.inside first = some sock → Call.inside second = some sock → i = j) ∧
    ∀ serviceId, (Listener.start.run (Stack.reads s serviceId)).running = true ↔
      ∀ reply ∈ s.replies, reply.serviceId = serviceId → ∃ data, reply.result = .ok data := by
  obtain ⟨served,guarded⟩ := run_sound run
  refine ⟨guarded.replies,fun i j first second sock here there mine theirs => ?_,fun serviceId => ?_⟩
  · exact guarded.one (served.sockets.used first (List.mem_of_getElem? here) sock (inside_sock mine)) here there mine theirs
  · rw [run_spec rfl]
    simp only [List.all_eq_true,Stack.reads,List.mem_map,List.mem_filter,decide_eq_true_eq]
    constructor
    · intro quiet reply member same
      have unbroken := quiet _ ⟨reply,⟨member,same⟩,rfl⟩
      have errors := guarded.replies reply member
      cases result : reply.result with
      | ok data => exact ⟨data,rfl⟩
      | error errno => cases errno <;> simp_all [readResult,ReadResult.breaks,Errno.kind]
    · rintro all result ⟨reply,⟨member,same⟩,rfl⟩
      obtain ⟨data,result⟩ := all reply member same
      simp [result,readResult]

theorem recv_waits_exchange : Run (Checked once (Step roomySdr)) Stack.empty exchange exchanged ∧
    ∀ reply ∈ exchanged.replies, reply.result ≠ .error .eAgain ∧ reply.result ≠ .error .eConnReset :=
  ⟨exchange_run,(recv_waits exchange_run).1⟩

end DTChat.BpReceive
