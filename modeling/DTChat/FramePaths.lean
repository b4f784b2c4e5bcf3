import DTChat.BpOrder
import DTChat.BpPayload
import DTChat.BpSending
import DTChat.BridgeRelay

namespace DTChat.FramePaths
open Utf8Text PeerMessages WireCodec WireFraming Runs LockedThreads ListenerLoop
open BpStack BpCustody BpReceive BpOrder BpPayload
open EndpointAddresses (afBp bpSchemeIpn createBpSockaddrWithString)
open BpSending (sent_origin accepted_parts)
open BridgeRoutes (ServerEvent Bridge serve)
open BridgeRelay (adus account_relayed reached opened_connection)

-- A frame as ION holds it for the node that it is for: the bytes that uD3TN's bridge relayed, or
-- what an AF_BP daemon made of them, each with pads enough for its legs.
inductive Adu (sdr : SdrString) (frame : SentFrame) : List UInt8 → Prop where
  | relayed (encoded : frame.wire = some wire) (padded : frame.proto.encode.length % 3 ≠ 0) : Adu sdr frame wire
  | sent (generated : GenerateUuid frame.uuid) (encoded : frame.wire = some wire)
      (made : bpSendToEid sdr wire behind beyond = some adu) (pads : frame.proto.encode.length % 3 = 1) : Adu sdr frame adu

theorem adu_read (delimited : SelfDelimited sdr) (adu : Adu sdr frame bytes) (heap : List UInt8) :
    Read frame (nlaString bytes heap) := by
  obtain ⟨content,present⟩ := frame.content
  cases adu with
  | relayed encoded padded =>
    obtain ⟨rfl,fits⟩ := frame_wire encoded
    exact padded_read fits present padded heap
  | sent generated encoded made pads =>
    obtain ⟨rfl,fits⟩ := frame_wire encoded
    obtain ⟨length,nonzero,rfl⟩ := sent_bytes delimited (proto_nonempty present) made
    exact sent_read (frame_generated generated) fits present (by omega) nonzero (pads_stop (by omega) _)

theorem carried_read (delimited : SelfDelimited sdr) (adu : Adu sdr frame skb.bundle.adu) (carries : Carries skb) :
    Read frame skb.data := by
  obtain ⟨heap,same⟩ := carries
  rw [same]
  exact adu_read delimited adu heap

theorem related_part {relates : α → β → Prop} (related : List.Forall₂ relates sent whole) (part : List.Sublist kept whole) :
    ∃ read : List α, read.Sublist sent ∧ List.Forall₂ relates read kept := by
  induction part generalizing sent with
  | slnil => exact ⟨[],List.nil_sublist _,.nil⟩
  | cons _ _ ih =>
    cases related with
    | cons _ later =>
      obtain ⟨read,inside,matched⟩ := ih later
      exact ⟨read,inside.cons _,matched⟩
  | cons_cons _ _ ih =>
    cases related with
    | cons here later =>
      obtain ⟨read,inside,matched⟩ := ih later
      exact ⟨_ :: read,inside.cons_cons _,.cons here matched⟩

theorem copies_read {copies : List Skb} (delimited : SelfDelimited sdr)
    (related : List.Forall₂ (fun frame (skb : Skb) => Adu sdr frame skb.bundle.adu) frames copies)
    (carry : ∀ skb ∈ copies, Carries skb) : List.Forall₂ Read frames (copies.map (·.data)) := by
  induction related with
  | nil => exact .nil
  | cons adu _ ih =>
    exact .cons (carried_read delimited adu (carry _ List.mem_cons_self)) (ih fun skb member => carry skb (List.mem_cons_of_mem _ member))

theorem frames_in_order (delimited : SelfDelimited sdr)
    (run : Run (Checked (oneReader serviceId) (Step home)) Stack.empty events s)
    (carried : List.Forall₂ (fun frame (bundle : Bundle) => Adu sdr frame bundle.adu) sent
      (s.arrived.filter (ofService serviceId))) :
    ∃ read : List SentFrame, read.Sublist sent ∧
      List.Forall₂ Read read (Listener.start.run (Stack.reads s serviceId)).handed := by
  obtain ⟨copies,carry,handed,part⟩ := reader_copies (run_reader run)
  obtain ⟨read,inside,matched⟩ := related_part carried part
  refine ⟨read,inside,?_⟩
  rw [handed]
  rw [List.forall₂_map_right_iff] at matched
  exact copies_read delimited matched carry

theorem relayed_origin (run : Run (fun s event t => serve routes s event = some t) Pool.empty events bridge)
    (member : (adu,payload) ∈ adus (bridge.log.map (·.2))) :
    ∃ route port, (route,payload) ∈ BridgeRelay.accepted events ∧ routes[(route : Nat)]? = some (port,adu.dstEid) := by
  obtain ⟨orderly,opened⟩ := reached run
  obtain ⟨call,inside,sends⟩ := List.mem_filterMap.mp member
  obtain ⟨⟨thread,_⟩,logged,rfl⟩ := List.mem_map.mp inside
  have bound := orderly.known _ logged
  have here : bridge.threads[thread]? = some bridge.threads[thread] := List.getElem?_eq_getElem bound
  have count : bridge.threads.length = (BridgeRelay.accepted events).length := by
    simpa using congrArg List.length opened.origins
  obtain ⟨⟨route,stream⟩,connected⟩ : ∃ connection, (BridgeRelay.accepted events)[thread]? = some connection :=
    ⟨_,List.getElem?_eq_getElem (count ▸ bound)⟩
  obtain ⟨port,handler,listed,there,streamed⟩ := opened_connection opened connected
  have mine : (adu,payload) ∈ adus (own thread bridge.log) := by
    refine List.mem_filterMap.mpr ⟨_,?_,sends⟩
    exact List.mem_map.mpr ⟨_,List.mem_filter.mpr ⟨logged,decide_eq_true rfl⟩,rfl⟩
  rcases (account_relayed (orderly.accounts thread handler there)).most with none | one
  · rw [none] at mine
    cases mine
  · rw [one] at mine
    cases List.mem_singleton.mp mine
    exact ⟨route,port,streamed ▸ List.mem_of_getElem? connected,listed⟩

structure Faithful (serviceId : UInt32) (s : Stack) : Prop where
  sound : Sound s
  listening : Listening s.socks s.bpList s.calls
  matched : Matched serviceId s

theorem step_faithful (faithful : Faithful serviceId s) (fine : bound s event = true) (taken : Step home s event t) :
    Faithful serviceId t :=
  ⟨sound_step faithful.sound (bound_once fine) taken,step_listening faithful.listening fine taken,
    step_matched faithful.matched faithful.sound faithful.listening taken⟩

theorem run_faithful (run : Run (Checked bound (Step home)) Stack.empty events s) (serviceId : UInt32) : Faithful serviceId s := by
  refine run.preserves (fun _ _ _ faithful taken => step_faithful faithful taken.1 taken.2) ⟨sound_empty,fun call member => ?_,rfl⟩
  cases member

theorem bound_copies (run : Run (Checked bound (Step home)) Stack.empty events s) (serviceId : UInt32) :
    ∃ copies : List Skb, (∀ skb ∈ copies, Carries skb ∧ skb.bundle ∈ s.arrived.filter (ofService serviceId)) ∧
      (Listener.start.run (Stack.reads s serviceId)).handed = copies.map (·.data) := by
  have faithful := run_faithful run serviceId
  have balanced : Balanced s := run_custody run.unchecked
  refine ⟨_,fun skb member => ⟨copies_carry faithful.sound.1 member,?_⟩,matched_handed faithful.matched⟩
  have gone := (copies_gone s serviceId _).subset (List.mem_map_of_mem member)
  obtain ⟨left,service⟩ := List.mem_filter.mp gone
  refine List.mem_filter.mpr ⟨?_,service⟩
  have placed : skb.bundle ∈ Stack.places s := by
    simp [Stack.places,left]
  rw [show Stack.places s = s.arrived from balanced] at placed
  simpa using placed

-- The network between the nodes may lose, repeat and delay, and neither makes up an ADU nor alters one.
def Carried (eid : String) (bridge : Bridge) (far : Stack) (bundle : Bundle) : Prop :=
  (∃ adu, (adu,bundle.adu) ∈ adus (bridge.log.map (·.2)) ∧ adu.dstEid = eid) ∨
  ∃ sending ∈ far.sent, sending.eid = (ascii eid).bytes ∧ bundle.adu = sending.payload

-- Frames that the bridge's connections bring whole, each with a pad.
def Brought (frames : List (Nat × List UInt8)) : Prop := ∀ connection ∈ frames, ∃ frame : SentFrame,
  frame.wire = some connection.2 ∧ frame.proto.encode.length % 3 ≠ 0

-- Frames that the other kernel is given, each with two pads.
def Given (messages : List Sending) : Prop := ∀ message ∈ messages, ∃ frame : SentFrame,
  GenerateUuid frame.uuid ∧ frame.wire = some message.payload ∧ frame.proto.encode.length % 3 = 1

theorem carried_origin (relay : Run (fun s event t => serve routes s event = some t) Pool.empty connections bridge)
    (sending : Run (Step sdr) Stack.empty sends far) (carried : Carried eid bridge far bundle)
    (brought : Brought (BridgeRelay.accepted connections)) (given : Given (sends.filterMap BpSending.accepted)) :
    ∃ (frame : SentFrame) (wire : List UInt8), Adu sdr frame bundle.adu ∧ frame.wire = some wire ∧
      ((∃ route port, (route,wire) ∈ BridgeRelay.accepted connections ∧ routes[(route : Nat)]? = some (port,eid)) ∨
        ∃ sock length address, BpStack.Event.send sock length address wire true ∈ sends ∧
          createBpSockaddrWithString (ascii eid) = .ok address) := by
  rcases carried with ⟨adu,member,rfl⟩ | ⟨sent,member,named,same⟩
  · obtain ⟨route,port,accepted,listed⟩ := relayed_origin relay member
    obtain ⟨frame,encoded,padded⟩ := brought _ accepted
    exact ⟨frame,bundle.adu,.relayed encoded padded,encoded,.inl ⟨route,port,accepted,listed⟩⟩
  · obtain ⟨message,outward,destination,behind,beyond,made⟩ := sent_origin sending member
    obtain ⟨frame,generated,encoded,pads⟩ := given message outward
    obtain ⟨event,inside,taken⟩ := List.mem_filterMap.mp outward
    obtain ⟨sock,size,address,rfl,text,bytes,created⟩ := accepted_parts taken
    have printed : text = ascii eid := Utf8.ext (bytes.trans (destination.symm.trans named))
    refine ⟨frame,message.payload,?_,encoded,.inr ⟨sock,size,address,inside,printed ▸ created⟩⟩
    rw [same]
    exact .sent generated encoded made pads

-- Across the demo network: what a node's listener reads over AF_BP is a frame that a DTChat node gave its bridge
-- on a route to the listener's EID, or another node's kernel with that EID as destination, and
-- it is read as that frame, whatever lies in the daemon's memory.
theorem frames_cross (delimited : SelfDelimited sdr)
    (relay : Run (fun s event t => serve routes s event = some t) Pool.empty connections bridge)
    (sending : Run (Step sdr) Stack.empty sends far) (run : Run (Checked bound (Step home)) Stack.empty events s)
    (network : ∀ bundle ∈ s.arrived, bundle.service = serviceId → Carried eid bridge far bundle)
    (brought : Brought (BridgeRelay.accepted connections)) (given : Given (sends.filterMap BpSending.accepted)) :
    ∀ payload ∈ (Listener.start.run (Stack.reads s serviceId)).handed, ∃ (frame : SentFrame) (wire : List UInt8), frame.wire = some wire ∧
      ((∃ route port, (route,wire) ∈ BridgeRelay.accepted connections ∧ routes[(route : Nat)]? = some (port,eid)) ∨
        ∃ sock length address, BpStack.Event.send sock length address wire true ∈ sends ∧
          createBpSockaddrWithString (ascii eid) = .ok address) ∧
      ∀ now peers, deserializeMessage now payload peers = extractMessageFromProto now frame.proto peers := by
  intro payload member
  obtain ⟨copies,carry,handed⟩ := bound_copies run serviceId
  rw [handed] at member
  obtain ⟨skb,inside,rfl⟩ := List.mem_map.mp member
  obtain ⟨carries,arrived⟩ := carry skb inside
  obtain ⟨there,service⟩ := List.mem_filter.mp arrived
  have carried := network _ there (of_decide_eq_true service)
  obtain ⟨frame,wire,adu,encoded,origin⟩ := carried_origin relay sending carried brought given
  exact ⟨frame,wire,encoded,origin,deserialize_decoded (carried_read delimited adu carries)⟩

def moonMessage : ChatMessage := {checkMessage with text := ascii "checks"}
def moonWire : List UInt8 :=
  (ascii "CiQ0YTNiZjQ3ZS00MDFiLTQ1ZDEtOGIxYi1hMjNlNDQzMjEwNjUSAjEwGKe1zv73MyIHZGVmYXVsdCoICgZjaGVja3M=").bytes
def marsWire : List UInt8 :=
  (ascii "CiQ0YTNiZjQ3ZS00MDFiLTQ1ZDEtOGIxYi1hMjNlNDQzMjEwNjUSAjEwGKe1zv73MyIHZGVmYXVsdCoHCgVjaGVjaw==").bytes

def moonEvents : List ServerEvent :=
  [.accept 0 moonWire,.act 0 (.recv 65536),.act 0 (.recv 65536),.act 0 .go,.act 0 .go,.act 0 (.ended true),.act 0 .go]

def marsEvents : List BpStack.Event :=
  [.create,.send 0 16 ⟨afBp,bpSchemeIpn,10,2⟩ marsWire true,.handleSend (some ([],[]))]

def marsAdu : List UInt8 := 92 :: marsWire.dropLast

def earthEvents : List BpStack.Event := [
  .create,.bind 0 16 ⟨afBp,bpSchemeIpn,10,2⟩,.insert 0,.arrive ⟨2,marsAdu⟩,.arrive ⟨2,moonWire⟩,
  .recv 0 65536 true,.lock 1,.handleRequest true,.receive 0 ⟨2,marsAdu⟩ [65,66],.deliver 0 true,.wake 1,.take 1 true,
  .recv 0 65536 true,.lock 2,.handleRequest true,.receive 1 ⟨2,moonWire⟩ [67],.deliver 1 true,.wake 2,.take 2 true]

def moonBridge : Bridge := (follow (serve [(7710,"ipn:10.2")]) Pool.empty moonEvents).getD Pool.empty
def marsStack : Stack := (follow (step roomySdr) Stack.empty marsEvents).getD Stack.empty
def earthStack : Stack := (follow (step roomySdr) Stack.empty earthEvents).getD Stack.empty

theorem wires : (SentFrame.chat moonMessage).wire = some moonWire ∧ (SentFrame.chat checkMessage).wire = some marsWire ∧
    (SentFrame.chat moonMessage).proto.encode.length % 3 = 2 ∧ (SentFrame.chat checkMessage).proto.encode.length % 3 = 1 ∧
    GenerateUuid checkMessage.uuid ∧ bpSendToEid roomySdr marsWire [] [] = some marsAdu := by decide +kernel

theorem events_taken : (follow (serve [(7710,"ipn:10.2")]) Pool.empty moonEvents).isSome = true ∧
    (follow (step roomySdr) Stack.empty marsEvents).isSome = true ∧
    (follow (step roomySdr) Stack.empty earthEvents).isSome = true ∧
    along (step roomySdr) bound Stack.empty earthEvents = true ∧
    along (step roomySdr) (oneReader 2) Stack.empty earthEvents = true := by
  decide +kernel

theorem bundles_made : (adus (moonBridge.log.map (·.2))).map (fun relayed => (relayed.1.dstEid,relayed.2)) = [("ipn:10.2",moonWire)] ∧
    marsEvents.filterMap BpSending.accepted = [⟨(ascii "ipn:10.2").bytes,marsWire⟩] ∧
    marsStack.sent = [⟨(ascii "ipn:10.2").bytes,marsAdu⟩] ∧
    earthStack.arrived = [⟨2,marsAdu⟩,⟨2,moonWire⟩] ∧
    earthStack.arrived.filter (ofService 2) = [⟨2,marsAdu⟩,⟨2,moonWire⟩] := by decide +kernel

theorem moon_run : Run (fun s event t => serve [(7710,"ipn:10.2")] s event = some t) Pool.empty moonEvents moonBridge :=
  Run.of_follow (followed events_taken.1)

theorem mars_run : Run (Step roomySdr) Stack.empty marsEvents marsStack := by
  have ended : follow (step roomySdr) Stack.empty marsEvents = some marsStack := followed events_taken.2.1
  exact (Run.of_follow ended).mono fun _ _ _ => step_sound

theorem earth_run : Run (Checked bound (Step roomySdr)) Stack.empty earthEvents earthStack :=
  checked_run (followed events_taken.2.2.1) events_taken.2.2.2.1

theorem earth_reader : Run (Checked (oneReader 2) (Step roomySdr)) Stack.empty earthEvents earthStack :=
  checked_run (followed events_taken.2.2.1) events_taken.2.2.2.2

theorem moon_padded : (SentFrame.chat moonMessage).proto.encode.length % 3 ≠ 0 := by
  simp [wires.2.2.1]

theorem frames_in_order_earth : ∃ read : List SentFrame, read.Sublist [.chat checkMessage,.chat moonMessage] ∧
    List.Forall₂ Read read (Listener.start.run (Stack.reads earthStack 2)).handed := by
  obtain ⟨moonSent,marsSent,_,pads,generated,made⟩ := wires
  have mars : Adu roomySdr (.chat checkMessage) marsAdu := .sent generated marsSent made pads
  have moon : Adu roomySdr (.chat moonMessage) moonWire := .relayed moonSent moon_padded
  refine frames_in_order roomy_delimited earth_reader ?_
  rw [bundles_made.2.2.2.2]
  exact .cons mars (.cons moon .nil)

theorem earth_network : ∀ bundle ∈ earthStack.arrived, Carried "ipn:10.2" moonBridge marsStack bundle := by
  rw [bundles_made.2.2.2.1]
  intro bundle member
  rcases List.mem_cons.mp member with rfl | last
  · exact .inr ⟨_,by rw [bundles_made.2.2.1]; exact List.mem_singleton.mpr rfl,rfl,rfl⟩
  · rw [List.mem_singleton.mp last]
    have relayed : ("ipn:10.2",moonWire) ∈ (adus (moonBridge.log.map (·.2))).map fun relayed => (relayed.1.dstEid,relayed.2) := by
      rw [bundles_made.1]
      exact List.mem_singleton.mpr rfl
    obtain ⟨⟨adu,payload⟩,inside,same⟩ := List.mem_map.mp relayed
    obtain ⟨eid,rfl⟩ := Prod.mk.inj same
    exact .inl ⟨adu,inside,eid⟩

theorem frames_cross_earth : (Listener.start.run (Stack.reads earthStack 2)).handed.length = 2 ∧
    ∀ payload ∈ (Listener.start.run (Stack.reads earthStack 2)).handed,
      ∃ (frame : SentFrame) (wire : List UInt8), frame.wire = some wire ∧
      ((∃ route port, (route,wire) ∈ BridgeRelay.accepted moonEvents ∧
        [(7710,"ipn:10.2")][(route : Nat)]? = some (port,"ipn:10.2")) ∨
        ∃ sock length address, BpStack.Event.send sock length address wire true ∈ marsEvents ∧
          createBpSockaddrWithString (ascii "ipn:10.2") = .ok address) ∧
      ∀ now peers, deserializeMessage now payload peers = extractMessageFromProto now frame.proto peers := by
  refine ⟨by decide +kernel,frames_cross roomy_delimited moon_run mars_run earth_run
    (fun bundle member _ => earth_network bundle member) ?_ ?_⟩
  · intro connection member
    have only : connection ∈ [(0,moonWire)] := member
    rw [List.mem_singleton.mp only]
    exact ⟨.chat moonMessage,wires.1,moon_padded⟩
  · rw [bundles_made.2.1]
    intro message member
    rw [List.mem_singleton.mp member]
    exact ⟨.chat checkMessage,wires.2.2.2.2.1,wires.2.1,wires.2.2.2.1⟩

end DTChat.FramePaths
