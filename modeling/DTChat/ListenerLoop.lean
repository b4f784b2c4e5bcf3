import DTChat.Transports

namespace DTChat.ListenerLoop
open Transports

inductive ErrorKind where
  | wouldBlock
  | interrupted
  | connectionReset
  | other
  deriving DecidableEq

inductive ReadResult where
  | data (payload : List UInt8)
  | failed (kind : ErrorKind)
  deriving DecidableEq

-- The loop of `start_listener`: each payload goes to a task of its own that
-- hands it to `deserialize_message`; `WouldBlock` sleeps; any other error breaks.
structure Listener where
  running : Bool
  handed : List (List UInt8)
  deriving DecidableEq

def Listener.start : Listener := ⟨true,[]⟩

def Listener.step (listener : Listener) (result : ReadResult) : Listener :=
  if listener.running then
    match result with
    | .data payload => ⟨true,listener.handed ++ [payload]⟩
    | .failed .wouldBlock => listener
    | .failed _ => ⟨false,listener.handed⟩
  else listener

def Listener.run (listener : Listener) (results : List ReadResult) : Listener := results.foldl step listener

def payloads : List ReadResult → List (List UInt8)
  | [] => []
  | .data payload :: later => payload :: payloads later
  | .failed _ :: later => payloads later

def ReadResult.breaks : ReadResult → Bool
  | .data _ => false
  | .failed kind => kind ≠ .wouldBlock

@[simp] theorem breaks_data (payload : List UInt8) : (ReadResult.data payload).breaks = false := rfl

theorem step_running {listener : Listener} (running : listener.running = true) (result : ReadResult) :
    listener.step result = ⟨!result.breaks,listener.handed ++ payloads [result]⟩ := by
  obtain ⟨_,handed⟩ := listener
  cases running
  cases result with
  | data payload => rfl
  | failed kind => cases kind <;> simp [Listener.step,ReadResult.breaks,payloads]

theorem step_stopped {listener : Listener} (stopped : listener.running = false) (result : ReadResult) :
    listener.step result = listener := by simp [Listener.step,stopped]

theorem run_cons (listener : Listener) (result : ReadResult) (later : List ReadResult) :
    listener.run (result :: later) = (listener.step result).run later := rfl

theorem run_stopped {listener : Listener} (stopped : listener.running = false) (results : List ReadResult) :
    listener.run results = listener := by
  induction results with
  | nil => rfl
  | cons result later ih =>
    rw [run_cons,step_stopped stopped,ih]

theorem payloads_append (before after : List ReadResult) :
    payloads (before ++ after) = payloads before ++ payloads after := by
  induction before with
  | nil => rfl
  | cons result later ih => cases result <;> simp [payloads,ih]

theorem payloads_breaks (breaks : result.breaks = true) : payloads [result] = [] := by
  cases result with
  | data payload => cases breaks
  | failed kind => rfl

theorem run_spec {listener : Listener} (running : listener.running = true) (results : List ReadResult) :
    listener.run results = ⟨results.all (!·.breaks),
      listener.handed ++ payloads (results.takeWhile (!·.breaks))⟩ := by
  induction results generalizing listener with
  | nil =>
    obtain ⟨_,handed⟩ := listener
    cases running
    simp [Listener.run,payloads]
  | cons result later ih =>
    rw [run_cons,step_running running,List.all_cons,List.takeWhile_cons]
    cases breaks : result.breaks with
    | true =>
      rw [run_stopped rfl,payloads_breaks breaks]
      rfl
    | false =>
      have split := payloads_append [result] (later.takeWhile (!·.breaks))
      rw [ih rfl]
      rw [List.singleton_append] at split
      simp only [Bool.not_false,Bool.true_and,↓reduceIte]
      rw [split,List.append_assoc]

def readAfterBreak (results : List ReadResult) : List (List UInt8) := payloads (results.dropWhile (!·.breaks))

theorem listener_keeps_iff (results : List ReadResult) :
    ((Listener.start.run results).handed = payloads results ↔ readAfterBreak results = []) ∧
    ((Listener.start.run results).running = true ↔ ∀ kind, .failed kind ∈ results → kind = .wouldBlock) := by
  rw [run_spec rfl]
  constructor
  · have split := payloads_append (results.takeWhile (!·.breaks)) (results.dropWhile (!·.breaks))
    rw [List.takeWhile_append_dropWhile] at split
    rw [split]
    simp [Listener.start,readAfterBreak]
  · simp only [List.all_eq_true]
    constructor
    · intro quiet kind member
      simpa [ReadResult.breaks] using quiet _ member
    · intro quiet result member
      cases result with
      | data payload => rfl
      | failed kind => simpa [ReadResult.breaks] using quiet kind member

-- bp_socket/af_bp.c
inductive Errno where
  | eRestartSys
  | eConnReset
  | eAgain
  | eMsgSize
  | eFault
  deriving DecidableEq

-- A system call interrupted before it restarts reports EINTR.
def Errno.kind : Errno → ErrorKind
  | .eRestartSys => .interrupted
  | .eConnReset => .connectionReset
  | .eAgain => .wouldBlock
  | .eMsgSize => .other
  | .eFault => .other

structure Wake where
  interrupted : Bool
  dead : Bool
  copied : Bool

def Wake.quiet : Wake := ⟨false,false,true⟩

def bpRecvmsg (size : Nat) (wake : Wake) (queue : List (List UInt8)) :
    Except Errno (List UInt8) × List (List UInt8) :=
  if wake.interrupted then (.error .eRestartSys,queue)
  else if wake.dead then (.error .eConnReset,queue)
  else match queue with
    | [] => (.error .eAgain,[])
    | skb :: rest =>
      if size < skb.length then (.error .eMsgSize,rest)
      else if wake.copied then (.ok skb,rest) else (.error .eFault,rest)

def readResult : Except Errno (List UInt8) → ReadResult
  | .ok payload => .data payload
  | .error errno => .failed errno.kind

inductive BundleEvent where
  | arrive (bundle : List UInt8)
  | read (wake : Wake)

def bundleReads : List BundleEvent → List (List UInt8) → List ReadResult
  | [],_ => []
  | .arrive bundle :: later,queue => bundleReads later (queue ++ [bundle])
  | .read wake :: later,queue =>
    let received := bpRecvmsg bufferSize wake queue
    readResult received.1 :: bundleReads later received.2

def oversized : List BundleEvent :=
  [.arrive (List.replicate 1025 65),.read .quiet,.arrive [67],.read .quiet]

theorem oversized_bundle_stops : bundleReads oversized [] = [.failed .other,.data [67]] ∧
    (Listener.start.run (bundleReads oversized [])).handed = [] ∧
    (Listener.start.run (bundleReads oversized [])).running = false := by decide +kernel

end DTChat.ListenerLoop
