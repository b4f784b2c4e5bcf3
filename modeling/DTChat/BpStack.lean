import DTChat.ListenerLoop
import DTChat.EndpointAddresses
import DTChat.Lib.Holdings
import DTChat.Lib.Runs

namespace DTChat.BpStack
open DecimalText Runs
open ListenerLoop (Errno Wake bpRecvmsg)
open EndpointAddresses (SockAddrBp afBp bpSchemeIpn dot)

-- A bundle that ION holds for `ipn:<own node>.<service>`.
structure Bundle where
  service : UInt32
  adu : List UInt8
  deriving DecidableEq

structure Skb where
  bundle : Bundle
  data : List UInt8
  deriving DecidableEq

-- struct bp_sock: `locked` is the owner flag of `lock_sock`, `dead` is SOCK_DEAD.
structure BpSock where
  nodeId : UInt32
  serviceId : UInt8
  queue : List Skb
  locked : Bool
  dead : Bool
  deriving DecidableEq

-- How far a `bp_recvmsg` has come: its request is out, it waits with the lock
-- held, its wait is over.
inductive Stage where
  | asked
  | waiting
  | woken
  deriving DecidableEq

inductive Call where
  | bind (sock : Nat) (nodeId : UInt32) (serviceId : UInt8)
  | recv (sock : Nat) (serviceId : UInt32) (size : Nat) (stage : Stage)
  | returned
  deriving DecidableEq

def Call.sock : Call → Option Nat
  | .bind sock _ _ => some sock
  | .recv sock _ _ _ => some sock
  | .returned => none

inductive Upcall where
  | sendBundle (nodeId serviceId : UInt32) (payload : List UInt8)
  | requestBundle (serviceId : UInt32)
  deriving DecidableEq

inductive Phase where
  | receiving
  | delivering (skb : Skb)
  | ended
  deriving DecidableEq

-- bp_recv_thread
structure RecvThread where
  serviceId : UInt32
  phase : Phase
  deriving DecidableEq

inductive Fate where
  | handed (data : List UInt8)
  | refused
  | purged
  | unclaimed
  | lost
  deriving DecidableEq

structure Reply where
  call : Nat
  serviceId : UInt32
  result : Except Errno (List UInt8)

-- The destination and the bytes of a send: those of a `sendto`, or those that `bp_send` is given.
structure Sending where
  eid : List UInt8
  payload : List UInt8
  deriving DecidableEq

structure Stack where
  socks : List BpSock
  bpList : List Nat
  calls : List Call
  upcalls : List Upcall
  threads : List RecvThread
  inbox : List Bundle
  arrived : List Bundle
  ended : List (Bundle × Fate)
  replies : List Reply
  sent : List Sending

def Stack.empty : Stack := ⟨[],[],[],[],[],[],[],[],[],[]⟩

inductive AddressErrno where
  | eInval
  | eAfNoSupport
  | eAddrInUse
  deriving DecidableEq

def bpSchemeDtn : UInt32 := 2
def sockaddrSize : Nat := 16

def cInt (n : UInt32) : Int := n.toBitVec.toInt

def checkAddress (length : Nat) (address : SockAddrBp) : Except AddressErrno (UInt32 × UInt32) :=
  if length < sockaddrSize then .error .eInval
  else if address.bpFamily ≠ afBp then .error .eAfNoSupport
  else if address.bpScheme = bpSchemeIpn then
    if cInt address.serviceId < 1 ∨ 255 < cInt address.serviceId then .error .eInval
    else if cInt address.nodeId < 1 then .error .eInval
    else .ok (address.nodeId,address.serviceId)
  else if address.bpScheme = bpSchemeDtn then .error .eAfNoSupport
  else .error .eInval

def Stack.sockAt (s : Stack) (sock : Nat) : Option BpSock := s.socks[sock]?

def Stack.bindScan (s : Stack) (length : Nat) (address : SockAddrBp) : Except AddressErrno (UInt32 × UInt8) :=
  match checkAddress length address with
  | .error errno => .error errno
  | .ok (nodeId,serviceId) =>
    if s.bpList.any fun sock => (s.sockAt sock).any fun bp => bp.serviceId.toUInt32 = serviceId && bp.nodeId = nodeId then
      .error .eAddrInUse
    else .ok (nodeId,serviceId.toUInt8)

-- bp_recvmsg behind its wait: the result, the bundle that leaves the queue, the rest of the queue.
structure Outcome where
  result : Except Errno (List UInt8)
  left : List (Bundle × Fate)
  queue : List Skb

def readFate : Except Errno (List UInt8) → Fate
  | .ok data => .handed data
  | .error _ => .refused

def recvOutcome (size : Nat) (wake : Wake) (queue : List Skb) : Outcome :=
  let received := bpRecvmsg size wake (queue.map (·.data))
  let taken := queue.length-received.2.length
  ⟨received.1,(queue.take taken).map fun skb => (skb.bundle,readFate received.1),queue.drop taken⟩

def cString (bytes : List UInt8) : List UInt8 := bytes.takeWhile (· ≠ 0)

-- nla_put_string of a buffer that malloc left unterminated: `heap` is what lies behind the payload.
def nlaString (adu heap : List UInt8) : List UInt8 := cString (adu ++ heap) ++ [0]

-- sdr_string_create of ION, which is no part of this repository: an object for a string, or 0.
abbrev SdrString := List UInt8 → Option (List UInt8)

-- What ION documents of it: a string of at most 255 bytes is stored behind its length.
structure SelfDelimited (sdr : SdrString) : Prop where
  short : ∀ text object, sdr text = some object → text.length ≤ 255
  stored : ∀ text object, sdr text = some object → object = UInt8.ofNat text.length :: text

def roomySdr : SdrString := fun text => if text.length ≤ 255 then some (UInt8.ofNat text.length :: text) else none

theorem roomy_delimited : SelfDelimited roomySdr := by
  constructor
  all_goals
    intro text object made
    unfold roomySdr at made
    split at made
  · assumption
  · cases made
  · exact (Option.some.inj made).symm
  · cases made

-- bp_send_to_eid up to `bp_send`: a ZCO of `payload_size` bytes over the object. `behind` lies
-- behind the payload in the daemon's memory, `beyond` behind the object in the SDR.
def bpSendToEid (sdr : SdrString) (payload behind beyond : List UInt8) : Option (List UInt8) :=
  (sdr (cString (payload ++ behind))).map fun object => (object ++ beyond).take payload.length

theorem cString_clean (clean : ∀ b ∈ payload, b ≠ 0) (behind : List UInt8) :
    cString (payload ++ behind) = payload ++ cString behind :=
  List.takeWhile_append_of_pos fun b member => by simpa using clean b member

theorem made_string (delimited : SelfDelimited sdr) (clean : ∀ b ∈ payload, b ≠ 0) (filled : payload ≠ [])
    (made : bpSendToEid sdr payload behind beyond = some adu) : ∃ count : Nat, payload.length ≤ count ∧ count ≤ 255 ∧
      adu = UInt8.ofNat count :: payload.dropLast := by
  obtain ⟨object,stored,rfl⟩ := Option.map_eq_some_iff.mp made
  have short := delimited.short _ _ stored
  have text := delimited.stored _ _ stored
  rw [cString_clean clean] at short text
  refine ⟨(payload ++ cString behind).length,by simp,short,?_⟩
  obtain ⟨before,last,rfl⟩ := List.eq_nil_or_concat payload |>.resolve_left filled
  simp [text]

def eidText (nodeId serviceId : UInt32) : List UInt8 :=
  (Utf8Text.ascii "ipn:").bytes ++ (decimal nodeId.toNat ++ dot :: decimal serviceId.toNat)

-- The first socket of bp_list with the service; its node is not looked at.
def Stack.receiver (s : Stack) (serviceId : UInt32) : Option Nat :=
  s.bpList.find? fun sock => (s.sockAt sock).any fun bp => bp.serviceId.toUInt32 = serviceId

def nextBundle (serviceId : UInt32) (inbox : List Bundle) : Option Bundle := inbox.find? (·.service = serviceId)

inductive Event where
  | create
  | bind (sock length : Nat) (address : SockAddrBp)
  | insert (call : Nat)
  | recv (sock size : Nat) (queued : Bool)
  | lock (call : Nat)
  | wake (call : Nat)
  | take (call : Nat) (copied : Bool)
  | interrupt (call : Nat)
  | release (sock : Nat)
  | send (sock length : Nat) (address : SockAddrBp) (payload : List UInt8) (queued : Bool)
  | handleRequest (started : Bool)
  | handleSend (memory : Option (List UInt8 × List UInt8))
  | arrive (bundle : Bundle)
  | receive (thread : Nat) (bundle : Bundle) (heap : List UInt8)
  | fail (thread : Nat)
  | deliver (thread : Nat) (sent : Bool)
  deriving DecidableEq

def BpSock.created : BpSock := ⟨0,0,[],false,false⟩

def Stack.finish (s : Stack) (call sock : Nat) (serviceId : UInt32) (bp : BpSock) (outcome : Outcome) : Stack :=
  {s with
    socks := s.socks.set sock {bp with queue := outcome.queue,locked := false}
    calls := s.calls.set call .returned
    ended := s.ended ++ outcome.left
    replies := s.replies ++ [⟨call,serviceId,outcome.result⟩]}

-- One step of a process, of the daemon or of one of its threads. `none` is a step
-- that is not possible now: a socket is held, a queue is empty, a file is still in use.
-- `bp_receive` hands over any bundle that ION holds for the endpoint.
def step (sdr : SdrString) (s : Stack) : Event → Option Stack
  | .create => some {s with socks := s.socks ++ [.created]}
  | .bind sock length address =>
    match s.sockAt sock with
    | none => none
    | some bp =>
      if bp.dead then none
      else match s.bindScan length address with
        | .error _ => some s
        | .ok (nodeId,serviceId) => some {s with calls := s.calls ++ [.bind sock nodeId serviceId]}
  | .insert call =>
    match s.calls[call]? with
    | some (.bind sock nodeId serviceId) =>
      match s.sockAt sock with
      | none => none
      | some bp =>
        if bp.locked then none
        else some {s with
          socks := s.socks.set sock {bp with nodeId := nodeId,serviceId := serviceId}
          bpList := sock :: s.bpList
          calls := s.calls.set call .returned}
    | _ => none
  | .recv sock size queued =>
    match s.sockAt sock with
    | none => none
    | some bp =>
      if bp.dead then none
      else some {s with
        calls := s.calls ++ [.recv sock bp.serviceId.toUInt32 size .asked]
        upcalls := s.upcalls ++ if queued then [.requestBundle bp.serviceId.toUInt32] else []}
  | .lock call =>
    match s.calls[call]? with
    | some (.recv sock serviceId size .asked) =>
      match s.sockAt sock with
      | none => none
      | some bp =>
        if bp.locked then none
        else some {s with
          socks := s.socks.set sock {bp with locked := true}
          calls := s.calls.set call (.recv sock serviceId size .waiting)}
    | _ => none
  | .wake call =>
    match s.calls[call]? with
    | some (.recv sock serviceId size .waiting) =>
      match s.sockAt sock with
      | none => none
      | some bp =>
        if bp.queue.isEmpty then none
        else some {s with calls := s.calls.set call (.recv sock serviceId size .woken)}
    | _ => none
  | .take call copied =>
    match s.calls[call]? with
    | some (.recv sock serviceId size .woken) =>
      match s.sockAt sock with
      | none => none
      | some bp => some (s.finish call sock serviceId bp (recvOutcome size ⟨false,bp.dead,copied⟩ bp.queue))
    | _ => none
  | .interrupt call =>
    match s.calls[call]? with
    | some (.recv sock serviceId size .waiting) =>
      match s.sockAt sock with
      | none => none
      | some bp =>
        if bp.queue.isEmpty then some (s.finish call sock serviceId bp (recvOutcome size ⟨true,bp.dead,true⟩ bp.queue))
        else none
    | _ => none
  | .release sock =>
    match s.sockAt sock with
    | none => none
    | some bp =>
      if bp.dead || s.calls.any fun call => call.sock = some sock then none
      else some {s with
        socks := s.socks.set sock {bp with queue := [],dead := true}
        bpList := s.bpList.erase sock
        ended := s.ended ++ bp.queue.map fun skb => (skb.bundle,.purged)}
  | .send sock length address payload queued =>
    match s.sockAt sock with
    | none => none
    | some bp =>
      if bp.dead then none
      else match checkAddress length address with
        | .error _ => some s
        | .ok (nodeId,serviceId) =>
          some {s with upcalls := s.upcalls ++ if queued then [.sendBundle nodeId serviceId payload] else []}
  | .handleRequest started =>
    match s.upcalls with
    | .requestBundle serviceId :: later =>
      some {s with upcalls := later,threads := s.threads ++ if started then [⟨serviceId,.receiving⟩] else []}
    | _ => none
  | .handleSend memory =>
    match s.upcalls with
    | .sendBundle nodeId serviceId payload :: later =>
      match memory with
      | none => some {s with upcalls := later}
      | some (behind,beyond) =>
        match bpSendToEid sdr payload behind beyond with
        | none => none
        | some adu => some {s with upcalls := later,sent := s.sent ++ [⟨eidText nodeId serviceId,adu⟩]}
    | _ => none
  | .arrive bundle => some {s with inbox := s.inbox ++ [bundle],arrived := s.arrived ++ [bundle]}
  | .receive thread bundle heap =>
    match s.threads[thread]? with
    | some ⟨serviceId,.receiving⟩ =>
      if bundle ∈ s.inbox ∧ bundle.service = serviceId then
        some {s with
          inbox := s.inbox.erase bundle
          threads := s.threads.set thread ⟨serviceId,.delivering ⟨bundle,nlaString bundle.adu heap⟩⟩}
      else none
    | _ => none
  | .fail thread =>
    match s.threads[thread]? with
    | some ⟨serviceId,.receiving⟩ => some {s with threads := s.threads.set thread ⟨serviceId,.ended⟩}
    | _ => none
  | .deliver thread sent =>
    match s.threads[thread]? with
    | some ⟨serviceId,.delivering skb⟩ =>
      if !sent then
        some {s with threads := s.threads.set thread ⟨serviceId,.ended⟩,ended := s.ended ++ [(skb.bundle,.lost)]}
      else match s.receiver serviceId with
        | none =>
          some {s with threads := s.threads.set thread ⟨serviceId,.ended⟩,ended := s.ended ++ [(skb.bundle,.unclaimed)]}
        | some sock =>
          match s.sockAt sock with
          | none => none
          | some bp => some {s with
              threads := s.threads.set thread ⟨serviceId,.ended⟩
              socks := s.socks.set sock {bp with queue := bp.queue ++ [skb]}}
    | _ => none

inductive Step (sdr : SdrString) : Stack → Event → Stack → Prop where
  | create : Step sdr s .create {s with socks := s.socks ++ [.created]}
  | bindRefused (here : s.sockAt sock = some bp) (alive : bp.dead = false)
      (refused : s.bindScan length address = .error errno) : Step sdr s (.bind sock length address) s
  | bind (here : s.sockAt sock = some bp) (alive : bp.dead = false)
      (scanned : s.bindScan length address = .ok (nodeId,serviceId)) :
      Step sdr s (.bind sock length address) {s with calls := s.calls ++ [.bind sock nodeId serviceId]}
  | insert (binding : s.calls[call]? = some (.bind sock nodeId serviceId)) (here : s.sockAt sock = some bp)
      (free : bp.locked = false) :
      Step sdr s (.insert call) {s with
        socks := s.socks.set sock {bp with nodeId := nodeId,serviceId := serviceId}
        bpList := sock :: s.bpList
        calls := s.calls.set call .returned}
  | recv (here : s.sockAt sock = some bp) (alive : bp.dead = false) :
      Step sdr s (.recv sock size queued) {s with
        calls := s.calls ++ [.recv sock bp.serviceId.toUInt32 size .asked]
        upcalls := s.upcalls ++ if queued then [.requestBundle bp.serviceId.toUInt32] else []}
  | lock (asked : s.calls[call]? = some (.recv sock serviceId size .asked)) (here : s.sockAt sock = some bp)
      (free : bp.locked = false) :
      Step sdr s (.lock call) {s with
        socks := s.socks.set sock {bp with locked := true}
        calls := s.calls.set call (.recv sock serviceId size .waiting)}
  | wake (waits : s.calls[call]? = some (.recv sock serviceId size .waiting)) (here : s.sockAt sock = some bp)
      (filled : bp.queue ≠ []) :
      Step sdr s (.wake call) {s with calls := s.calls.set call (.recv sock serviceId size .woken)}
  | take (woken : s.calls[call]? = some (.recv sock serviceId size .woken)) (here : s.sockAt sock = some bp) :
      Step sdr s (.take call copied)
        (s.finish call sock serviceId bp (recvOutcome size ⟨false,bp.dead,copied⟩ bp.queue))
  | interrupt (waits : s.calls[call]? = some (.recv sock serviceId size .waiting)) (here : s.sockAt sock = some bp)
      (drained : bp.queue = []) :
      Step sdr s (.interrupt call) (s.finish call sock serviceId bp (recvOutcome size ⟨true,bp.dead,true⟩ bp.queue))
  | release (here : s.sockAt sock = some bp) (alive : bp.dead = false) (unused : ∀ call ∈ s.calls, call.sock ≠ some sock) :
      Step sdr s (.release sock) {s with
        socks := s.socks.set sock {bp with queue := [],dead := true}
        bpList := s.bpList.erase sock
        ended := s.ended ++ bp.queue.map fun skb => (skb.bundle,.purged)}
  | sendRefused (here : s.sockAt sock = some bp) (alive : bp.dead = false)
      (refused : checkAddress length address = .error errno) : Step sdr s (.send sock length address payload queued) s
  | send (here : s.sockAt sock = some bp) (alive : bp.dead = false)
      (checked : checkAddress length address = .ok (nodeId,serviceId)) :
      Step sdr s (.send sock length address payload queued)
        {s with upcalls := s.upcalls ++ if queued then [.sendBundle nodeId serviceId payload] else []}
  | handleRequest (first : s.upcalls = .requestBundle serviceId :: later) :
      Step sdr s (.handleRequest started)
        {s with upcalls := later,threads := s.threads ++ if started then [⟨serviceId,.receiving⟩] else []}
  | sendFailed (first : s.upcalls = .sendBundle nodeId serviceId payload :: later) :
      Step sdr s (.handleSend none) {s with upcalls := later}
  | handleSend (first : s.upcalls = .sendBundle nodeId serviceId payload :: later)
      (made : bpSendToEid sdr payload behind beyond = some adu) :
      Step sdr s (.handleSend (some (behind,beyond)))
        {s with upcalls := later,sent := s.sent ++ [⟨eidText nodeId serviceId,adu⟩]}
  | arrive : Step sdr s (.arrive bundle) {s with inbox := s.inbox ++ [bundle],arrived := s.arrived ++ [bundle]}
  | receive (blocked : s.threads[thread]? = some ⟨serviceId,.receiving⟩) (inside : bundle ∈ s.inbox)
      (mine : bundle.service = serviceId) :
      Step sdr s (.receive thread bundle heap) {s with
        inbox := s.inbox.erase bundle
        threads := s.threads.set thread ⟨serviceId,.delivering ⟨bundle,nlaString bundle.adu heap⟩⟩}
  | fail (blocked : s.threads[thread]? = some ⟨serviceId,.receiving⟩) :
      Step sdr s (.fail thread) {s with threads := s.threads.set thread ⟨serviceId,.ended⟩}
  | lost (carried : s.threads[thread]? = some ⟨serviceId,.delivering skb⟩) :
      Step sdr s (.deliver thread false)
        {s with threads := s.threads.set thread ⟨serviceId,.ended⟩,ended := s.ended ++ [(skb.bundle,.lost)]}
  | unclaimed (carried : s.threads[thread]? = some ⟨serviceId,.delivering skb⟩) (nobody : s.receiver serviceId = none) :
      Step sdr s (.deliver thread true)
        {s with threads := s.threads.set thread ⟨serviceId,.ended⟩,ended := s.ended ++ [(skb.bundle,.unclaimed)]}
  | queued (carried : s.threads[thread]? = some ⟨serviceId,.delivering skb⟩)
      (claimed : s.receiver serviceId = some sock) (here : s.sockAt sock = some bp) :
      Step sdr s (.deliver thread true) {s with
        threads := s.threads.set thread ⟨serviceId,.ended⟩
        socks := s.socks.set sock {bp with queue := bp.queue ++ [skb]}}

theorem step_complete (taken : Step sdr s event t) : step sdr s event = some t := by
  cases taken <;> simp_all [step]

theorem step_sound (taken : step sdr s event = some t) : Step sdr s event t := by
  cases event with
  | create =>
    cases taken
    exact .create
  | bind sock length address =>
    simp only [step] at taken
    split at taken
    · cases taken
    · rename_i bp here
      split at taken
      · cases taken
      · rename_i alive
        split at taken
        · rename_i errno refused
          cases taken
          exact .bindRefused here (by simpa using alive) refused
        · rename_i nodeId serviceId scanned
          cases taken
          exact .bind here (by simpa using alive) scanned
  | insert call =>
    simp only [step] at taken
    split at taken
    · rename_i sock nodeId serviceId binding
      split at taken
      · cases taken
      · rename_i bp here
        split at taken
        · cases taken
        · rename_i free
          cases taken
          exact .insert binding here (by simpa using free)
    · cases taken
  | recv sock size queued =>
    simp only [step] at taken
    split at taken
    · cases taken
    · rename_i bp here
      split at taken
      · cases taken
      · rename_i alive
        cases taken
        exact .recv here (by simpa using alive)
  | lock call =>
    simp only [step] at taken
    split at taken
    · rename_i sock serviceId size asked
      split at taken
      · cases taken
      · rename_i bp here
        split at taken
        · cases taken
        · rename_i free
          cases taken
          exact .lock asked here (by simpa using free)
    · cases taken
  | wake call =>
    simp only [step] at taken
    split at taken
    · rename_i sock serviceId size waits
      split at taken
      · cases taken
      · rename_i bp here
        split at taken
        · cases taken
        · rename_i filled
          cases taken
          exact .wake waits here (by simpa using filled)
    · cases taken
  | take call copied =>
    simp only [step] at taken
    split at taken
    · rename_i sock serviceId size woken
      split at taken
      · cases taken
      · rename_i bp here
        cases taken
        exact .take woken here
    · cases taken
  | interrupt call =>
    simp only [step] at taken
    split at taken
    · rename_i sock serviceId size waits
      split at taken
      · cases taken
      · rename_i bp here
        split at taken
        · rename_i drained
          cases taken
          exact .interrupt waits here (by simpa using drained)
        · cases taken
    · cases taken
  | release sock =>
    simp only [step] at taken
    split at taken
    · cases taken
    · rename_i bp here
      split at taken
      · cases taken
      · rename_i fine
        cases taken
        simp only [Bool.or_eq_true,List.any_eq_true,decide_eq_true_eq,not_or,not_exists,not_and,Bool.not_eq_true] at fine
        exact .release here fine.1 fine.2
  | send sock length address payload queued =>
    simp only [step] at taken
    split at taken
    · cases taken
    · rename_i bp here
      split at taken
      · cases taken
      · rename_i alive
        split at taken
        · rename_i errno refused
          cases taken
          exact .sendRefused here (by simpa using alive) refused
        · rename_i nodeId serviceId checked
          cases taken
          exact .send here (by simpa using alive) checked
  | handleRequest started =>
    simp only [step] at taken
    split at taken
    · rename_i serviceId later first
      cases taken
      exact .handleRequest first
    · cases taken
  | handleSend memory =>
    simp only [step] at taken
    split at taken
    · rename_i nodeId serviceId payload later first
      split at taken
      · cases taken
        exact .sendFailed first
      · split at taken
        · cases taken
        · rename_i adu made
          cases taken
          exact .handleSend first made
    · cases taken
  | arrive bundle =>
    cases taken
    exact .arrive
  | receive thread bundle heap =>
    simp only [step] at taken
    split at taken
    · rename_i serviceId blocked
      split at taken
      · rename_i fine
        cases taken
        exact .receive blocked fine.1 fine.2
      · cases taken
    · cases taken
  | fail thread =>
    simp only [step] at taken
    split at taken
    · rename_i serviceId blocked
      cases taken
      exact .fail blocked
    · cases taken
  | deliver thread sent =>
    simp only [step] at taken
    split at taken
    · rename_i serviceId skb carried
      cases sent with
      | false =>
        cases taken
        exact .lost carried
      | true =>
        simp only [Bool.not_true,Bool.false_eq_true,↓reduceIte] at taken
        split at taken
        · rename_i nobody
          cases taken
          exact .unclaimed carried nobody
        · rename_i sock claimed
          split at taken
          · cases taken
          · rename_i bp here
            cases taken
            exact .queued carried claimed here
    · cases taken

-- A socket is bound once. In the kernel a second binding adds a node to bp_list that is in it
-- already, which closes the list to a cycle; what is done on it then is left out.
def once (s : Stack) : Event → Bool
  | .insert call => ((s.calls[call]?).bind Call.sock).all fun sock => !s.bpList.contains sock
  | _ => true

theorem once_insert (fine : once s (.insert call) = true) (binding : s.calls[call]? = some (.bind sock nodeId serviceId)) :
    sock ∉ s.bpList := by
  simpa [once,binding,Call.sock] using fine

def bound (s : Stack) (event : Event) : Bool :=
  once s event && match event with
    | .recv sock _ _ => s.bpList.contains sock
    | _ => true

theorem bound_once (fine : bound s event = true) : once s event = true := (Bool.and_eq_true_iff.mp fine).1

theorem bound_recv (fine : bound s (.recv sock size queued) = true) : sock ∈ s.bpList := by
  simpa [bound,once] using fine

def fifo (s : Stack) : Event → Bool
  | .receive _ bundle _ => nextBundle bundle.service s.inbox = some bundle
  | _ => true

theorem checked_run (ended : follow (step sdr) Stack.empty events = some s)
    (checked : along (step sdr) check Stack.empty events = true) : Run (Checked check (Step sdr)) Stack.empty events s :=
  (Run.of_along ended checked).mono fun _ _ _ taken => ⟨taken.1,step_sound taken.2⟩

theorem next_bundle (next : nextBundle serviceId inbox = some bundle) : bundle ∈ inbox ∧ bundle.service = serviceId :=
  ⟨List.mem_of_find?_eq_some next,by simpa using List.find?_some next⟩

end DTChat.BpStack
