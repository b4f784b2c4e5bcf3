import DTChat.Lib.CallLogs

namespace DTChat.Aap2Bridge
open CallLogs Prog

structure BundleADU where
  dstEid : String
  payloadLength : Nat

inductive ResponseStatus where
  | success
  | failure
  deriving DecidableEq

inductive Message where
  | adu (adu : BundleADU)
  | other

-- A client is named by the number of calls made before it, so no two share a name.
abbrev Client := Nat

-- What the bridge calls, each with its answer: a value or `none`, true or false when
-- the call may raise. `close` is the end of the `with` block around a connection.
inductive Call where
  | isSet (answer : Bool)
  | wait (milliseconds : Nat)
  | makeClient (made : Option Client)
  | connect (client : Client) (done : Bool)
  | configure (client : Client) (agentid : String) (subscribe : Bool) (secret : Option String) (done : Bool)
  | disconnect (client : Client) (done : Bool)
  | receiveMsg (client : Client) (answer : Option (Option Message))
  | receiveAdu (client : Client) (adu : BundleADU) (answer : Option (BundleADU × List UInt8))
  | sendResponseStatus (client : Client) (status : ResponseStatus) (done : Bool)
  | createConnection (target : String × Nat) (done : Bool)
  | sendall (payload : List UInt8) (done : Bool)
  | shutdown (done : Bool)
  | close

-- The world answers from the calls of the past, so the stop event may be set
-- between any two of them and every call may raise at any point.
structure World where
  isSet : List Call → Bool
  makeClient : List Call → Bool
  connect : List Call → Bool
  configure : List Call → Bool
  disconnect : List Call → Bool
  receiveMsg : List Call → Option (Option Message)
  receiveAdu : List Call → Option (BundleADU × List UInt8)
  sendResponseStatus : List Call → Bool
  createConnection : List Call → Bool
  sendall : List Call → Bool
  shutdown : List Call → Bool

section calls

variable (world : World)

def isSet : Prog Call Bool := ask world.isSet .isSet

def wait (milliseconds : Nat) : Prog Call Unit := ask (fun _ => ()) fun _ => .wait milliseconds

def makeClient : Prog Call Client :=
  demand (fun past => if world.makeClient past then some past.length else none) .makeClient

def connect (client : Client) : Prog Call Unit := request world.connect (.connect client)

def configure (client : Client) (agentid : String) (secret : Option String) : Prog Call Unit :=
  request world.configure (.configure client agentid true secret)

def disconnect (client : Client) : Prog Call Unit := request world.disconnect (.disconnect client)

def receiveMsg (client : Client) : Prog Call (Option Message) := demand world.receiveMsg (.receiveMsg client)

def receiveAdu (client : Client) (adu : BundleADU) : Prog Call (BundleADU × List UInt8) :=
  demand world.receiveAdu (.receiveAdu client adu)

def sendResponseStatus (client : Client) (status : ResponseStatus) : Prog Call Unit :=
  request world.sendResponseStatus (.sendResponseStatus client status)

def createConnection (target : String × Nat) : Prog Call Unit := request world.createConnection (.createConnection target)

def sendall (payload : List UInt8) : Prog Call Unit := request world.sendall (.sendall payload)

def shutdown : Prog Call Unit := request world.shutdown .shutdown

def close : Prog Call Unit := ask (fun _ => ()) fun _ => .close

end calls

section bridge

variable (world : World)

def deliverAttempts : Nat := 12
def deliverBackoff : Nat := 500

def offer (target : String × Nat) (payload : List UInt8) : Prog Call Unit := do
  createConnection world target
  always (do sendall world payload; shutdown world) close

def tryOffer (target : String × Nat) (payload : List UInt8) (left : Nat) : Prog Call Bool :=
  orElse (do offer world target payload; pure true)
    (if 0 < left then do wait deliverBackoff; pure false else pure false)

def attempts (target : String × Nat) (payload : List UInt8) : Nat → Prog Call Bool
  | 0 => pure false
  | left + 1 => do
    if ← isSet world then pure false
    else if ← tryOffer world target payload left then pure true
    else attempts target payload left

def forwardInbound (target : String × Nat) (payload : List UInt8) : Prog Call Bool :=
  attempts world target payload deliverAttempts

def relay (client : Client) (target : String × Nat) (adu : BundleADU) : Prog Call Unit := do
  let (_,payload) ← receiveAdu world client adu
  let delivered ← forwardInbound world target payload
  sendResponseStatus world client (if delivered then .success else .failure)

def drainRound (client : Client) (target : String × Nat) : Prog Call Bool := do
  if ← isSet world then pure false
  else
    match ← receiveMsg world client with
    | none => pure false
    | some .other => pure true
    | some (.adu adu) => do
      relay world client target adu
      pure true

def drain (client : Client) (target : String × Nat) (fuel : Nat) : Prog Call Unit :=
  loop (drainRound world client target) fuel

def openSession (agentid : String) (secret : Option String) : Prog Call Client := do
  let client ← makeClient world
  connect world client
  configure world client agentid secret
  pure client

def trySession (agentid : String) (secret : Option String) : Prog Call (Option Client) :=
  orElse (do let client ← openSession world agentid secret; pure (some client)) (do wait 2000; pure none)

def serve (client : Client) (target : String × Nat) (fuel : Nat) : Prog Call Unit :=
  always (orElse (drain world client target fuel) (do let _ ← isSet world; pure ()))
    (orElse (disconnect world client) (pure ()))

def receiverRound (agentid : String) (secret : Option String) (target : String × Nat) (fuel : Nat) : Prog Call Bool := do
  if ← isSet world then pure false
  else
    match ← trySession world agentid secret with
    | none => pure true
    | some client => do
      serve world client target fuel
      if ← isSet world then pure true
      else do
        wait 1000
        pure true

def runReceiver (agentid : String) (secret : Option String) (target : String × Nat) (fuel : Nat) : Prog Call Unit :=
  loop (receiverRound world agentid secret target fuel) fuel

end bridge

end DTChat.Aap2Bridge
