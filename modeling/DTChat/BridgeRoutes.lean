import DTChat.Aap2Bridge
import DTChat.Lib.LockedThreads

namespace DTChat.BridgeRoutes
open Aap2Bridge (BundleADU)
open LockedThreads

structure RouteServer where
  port : Nat
  dstEid : String

def servers (routes : List (Nat × String)) : List RouteServer := routes.map fun (port,eid) => ⟨port,eid⟩

def recvChunk : Nat := 65536

-- A call on the client that all routes share, at its start and at its end. It ends by
-- returning or by raising.
inductive ClientCall where
  | sendAdu (adu : BundleADU) (payload : List UInt8)
  | sendAduEnded (returned : Bool)
  | receiveResponse
  | receiveResponseEnded (returned : Bool)

-- What lets a handler go on: `recv` answers or raises, its own next line, or the end of
-- the client's call it is in.
inductive Action where
  | recv (count : Nat)
  | reset
  | go
  | ended (returned : Bool)

-- Where `Aap2Sender.send` stands: at the lock, behind it, in `send_adu`, behind it, in
-- `receive_response`, or at the end of the `with` block.
inductive Send where
  | waiting (dstEid : String) (payload : List UInt8)
  | holding (dstEid : String) (payload : List UInt8)
  | sending
  | sent
  | receiving
  | releasing

def send : Send → Action → Option (Option Send × Effect ClientCall)
  | .waiting dstEid payload,.go => some (some (.holding dstEid payload),.acquire)
  | .holding dstEid payload,.go => some (some .sending,.call (.sendAdu ⟨dstEid,payload.length⟩ payload))
  | .sending,.ended true => some (some .sent,.call (.sendAduEnded true))
  | .sending,.ended false => some (some .releasing,.call (.sendAduEnded false))
  | .sent,.go => some (some .receiving,.call .receiveResponse)
  | .receiving,.ended returned => some (some .releasing,.call (.receiveResponseEnded returned))
  -- Returned or raised, the lock is given back; the handler only logs which of the two it was.
  | .releasing,.go => some (none,.release)
  | _,_ => none

-- A handler that `recv` has raised in is broken: the exception leaves `handle`.
inductive Phase where
  | reading (chunks : List (List UInt8))
  | relaying (sender : Send)
  | finished
  | broken

structure Handler where
  server : RouteServer
  stream : List UInt8
  unread : List UInt8
  phase : Phase

def Handler.start (server : RouteServer) (stream : List UInt8) : Handler := ⟨server,stream,stream,.reading []⟩

def readToEof (handler : Handler) (chunks : List (List UInt8)) (data : List UInt8) : Handler :=
  if data.isEmpty then
    let payload := chunks.flatten
    if payload.isEmpty then {handler with phase := .finished}
    else {handler with phase := .relaying (.waiting handler.server.dstEid payload)}
  else {handler with unread := handler.unread.drop data.length, phase := .reading (chunks ++ [data])}

def handle (handler : Handler) (action : Action) : Option (Handler × Effect ClientCall) :=
  match handler.phase,action with
  | .reading chunks,.recv count =>
    if 0 < count ∧ count ≤ recvChunk then some (readToEof handler chunks (handler.unread.take count),.quiet) else none
  | .reading _,.reset => some ({handler with phase := .broken},.quiet)
  | .relaying sender,action => (send sender action).map fun next =>
    ({handler with phase := next.1.elim .finished .relaying},next.2)
  | _,_ => none

abbrev Bridge := Pool Handler ClientCall

inductive ServerEvent where
  | accept (route : Nat) (stream : List UInt8)
  | act (thread : Nat) (action : Action)

def serve (routes : List (Nat × String)) (bridge : Bridge) : ServerEvent → Option Bridge
  | .accept route stream => ((servers routes)[route]?).bind fun server => step handle bridge (.spawn (.start server stream))
  | .act thread action => step handle bridge (.act thread action)

inductive SendStep : Send → Option Send → Effect ClientCall → Prop where
  | enter (dstEid : String) (payload : List UInt8) : SendStep (.waiting dstEid payload) (some (.holding dstEid payload)) .acquire
  | request (dstEid : String) (payload : List UInt8) :
      SendStep (.holding dstEid payload) (some .sending) (.call (.sendAdu ⟨dstEid,payload.length⟩ payload))
  | requested : SendStep .sending (some .sent) (.call (.sendAduEnded true))
  | failed : SendStep .sending (some .releasing) (.call (.sendAduEnded false))
  | await : SendStep .sent (some .receiving) (.call .receiveResponse)
  | answered (returned : Bool) : SendStep .receiving (some .releasing) (.call (.receiveResponseEnded returned))
  | leave : SendStep .releasing none .release

theorem send_step (taken : send sender action = some (next,effect)) : SendStep sender next effect := by
  unfold send at taken
  split at taken
  · cases taken; exact .enter _ _
  · cases taken; exact .request _ _
  · cases taken; exact .requested
  · cases taken; exact .failed
  · cases taken; exact .await
  · cases taken; exact .answered _
  · cases taken; exact .leave
  · cases taken

inductive HandleStep (handler : Handler) : Handler → Effect ClientCall → Prop where
  | receive (reading : handler.phase = .reading chunks) (bytes : data ≠ []) (rest : handler.unread = data ++ later) :
      HandleStep handler {handler with unread := later, phase := .reading (chunks ++ [data])} .quiet
  | discard (reading : handler.phase = .reading chunks) (ended : handler.unread = []) (empty : chunks.flatten = []) :
      HandleStep handler {handler with phase := .finished} .quiet
  | accept (reading : handler.phase = .reading chunks) (ended : handler.unread = []) (bytes : chunks.flatten ≠ []) :
      HandleStep handler {handler with phase := .relaying (.waiting handler.server.dstEid chunks.flatten)} .quiet
  | reset (reading : handler.phase = .reading chunks) : HandleStep handler {handler with phase := .broken} .quiet
  | relay (relaying : handler.phase = .relaying sender) (sends : SendStep sender next effect) :
      HandleStep handler {handler with phase := next.elim .finished .relaying} effect

theorem read_step (reading : handler.phase = .reading chunks) (rest : handler.unread = data ++ later)
    (eof : data = [] → later = []) : HandleStep handler (readToEof handler chunks data) .quiet := by
  cases data with
  | nil =>
    have ended : handler.unread = [] := by simpa [eof rfl] using rest
    simp only [readToEof,List.isEmpty_nil,if_true]
    split
    · rename_i empty
      exact .discard reading ended (List.isEmpty_iff.mp empty)
    · rename_i bytes
      exact .accept reading ended (bytes ∘ List.isEmpty_iff.mpr)
  | cons byte data =>
    simp only [readToEof,List.isEmpty_cons,Bool.false_eq_true,if_false,rest,List.drop_left]
    exact .receive reading (List.cons_ne_nil byte data) rest

theorem handle_step (taken : handle handler action = some (next,effect)) : HandleStep handler next effect := by
  unfold handle at taken
  split at taken
  · rename_i chunks count reading
    split at taken
    · rename_i asked
      cases taken
      refine read_step reading (List.take_append_drop count handler.unread).symm fun none => ?_
      rw [(List.take_eq_nil_iff.mp none).resolve_left (Nat.ne_of_gt asked.1),List.drop_nil]
    · cases taken
  · rename_i reading
    cases taken
    exact .reset reading
  · rename_i relaying
    obtain ⟨⟨sender,done⟩,sends,same⟩ := Option.map_eq_some_iff.mp taken
    cases same
    exact .relay relaying (send_step sends)
  · cases taken

end DTChat.BridgeRoutes
