import DTChat.BpBinding
import DTChat.IonNodes

namespace DTChat.BpSending
open DecimalText Utf8Text Runs BpStack BpBinding
open EndpointAddresses (SockAddrBp afBp bpSchemeIpn dot IpnText createBpSockaddrWithString create_ipn create_parts numeral_dot)
open IonNodes (digit_ascii dot_ascii node_number earthEid_created)

theorem decimal_length (fits : n < 10^k) (positive : 0 < k) : (decimal n).length ≤ k := by
  unfold decimal
  split
  · exact positive
  · rw [List.length_map,List.length_reverse]
    exact (Nat.digits_length_le_iff (by decide) n).mpr fits

theorem eid_length (nodeId serviceId : UInt32) : (eidText nodeId serviceId).length ≤ 25 := by
  have node : (decimal nodeId.toNat).length ≤ 10 := decimal_length (nodeId.toNat_lt.trans (by decide)) (by decide)
  have service : (decimal serviceId.toNat).length ≤ 10 := decimal_length (serviceId.toNat_lt.trans (by decide)) (by decide)
  have scheme : (ascii "ipn:").bytes.length = 4 := by decide +kernel
  simp only [eidText,List.length_append,List.length_cons,scheme]
  omega

theorem eid_ascii (nodeId serviceId : UInt32) : ∀ b ∈ eidText nodeId serviceId, b < 0x80 := by
  intro b member
  rcases List.mem_append.mp member with scheme | body
  · exact (by decide +kernel : ∀ b ∈ (ascii "ipn:").bytes, b < 0x80) b scheme
  · rcases List.mem_append.mp body with inNode | tail
    · exact digit_ascii (decimal_digits _ b inNode)
    · rcases List.mem_cons.mp tail with rfl | inService
      · exact dot_ascii
      · exact digit_ascii (decimal_digits _ b inService)

def eidUtf8 (nodeId serviceId : UInt32) : Utf8 := ⟨eidText nodeId serviceId,ascii_wellFormed _ (eid_ascii nodeId serviceId)⟩

theorem eid_ipn (nodeId serviceId : UInt32) :
    IpnText (eidUtf8 nodeId serviceId) (decimal nodeId.toNat) (decimal serviceId.toNat) :=
  ⟨rfl,decimal_numeral nodeId.toNat_lt,decimal_numeral serviceId.toNat_lt⟩

theorem eid_created (nodeId serviceId : UInt32) :
    createBpSockaddrWithString (eidUtf8 nodeId serviceId) = .ok ⟨afBp,bpSchemeIpn,nodeId,serviceId⟩ := by
  rw [create_ipn (eid_ipn nodeId serviceId)]
  simp only [decimal_unsigned,value_decimal,UInt32.ofNat_toNat]

theorem check_same (checked : checkAddress length address = .ok (nodeId,serviceId)) :
    address = ⟨afBp,bpSchemeIpn,nodeId,serviceId⟩ := by
  obtain ⟨_,family,scheme,_,_,rfl,rfl⟩ := check_iff.mp checked
  cases address
  simp_all

theorem ipn_split (ipn : IpnText address node service) :
    (address.bytes.drop (ascii "ipn:").bytes.length).splitOn dot = [node,service] := by
  rw [ipn.bytes,List.drop_left,List.splitOn_append_cons_self_of_not_mem (numeral_dot ipn.node),
    List.splitOn_eq_singleton (numeral_dot ipn.service)]

theorem eid_same_iff (ipn : IpnText address node service) :
    eidUtf8 (UInt32.ofNat (value (unsigned node))) (UInt32.ofNat (value (unsigned service))) = address ↔
      Canonical node ∧ Canonical service := by
  rw [← canonical_iff ipn.node,← canonical_iff ipn.service]
  have printed := eid_ipn (UInt32.ofNat (value (unsigned node))) (UInt32.ofNat (value (unsigned service)))
  rw [node_number ipn.node,node_number ipn.service] at printed
  constructor
  · intro same
    rw [same] at printed
    have parts := (ipn_split ipn).symm.trans (ipn_split printed)
    simpa using parts
  · rintro ⟨nodeSame,serviceSame⟩
    apply Utf8.ext
    rw [printed.bytes,ipn.bytes,← nodeSame,← serviceSame]

-- From the sender's text to ION: the kernel takes the address exactly when its numbers are in
-- its own range, and then the daemon's text, which always fits its buffer, is read back
-- as the same address.
theorem destination_kept (created : createBpSockaddrWithString address = .ok sockaddr) :
    ((∃ nodeId serviceId, checkAddress sockaddrSize sockaddr = .ok (nodeId,serviceId)) ↔
      (1 ≤ sockaddr.nodeId.toNat ∧ sockaddr.nodeId.toNat < 2^31) ∧
        1 ≤ sockaddr.serviceId.toNat ∧ sockaddr.serviceId.toNat ≤ 255) ∧
    ∀ nodeId serviceId, checkAddress sockaddrSize sockaddr = .ok (nodeId,serviceId) →
      (eidText nodeId serviceId).length < 64 ∧
      createBpSockaddrWithString (eidUtf8 nodeId serviceId) = .ok sockaddr ∧
      ∃ node service, IpnText address node service ∧
        (eidUtf8 nodeId serviceId = address ↔ Canonical node ∧ Canonical service) := by
  obtain ⟨node,service,ipn,rfl⟩ := create_parts created
  refine ⟨⟨?_,?_⟩,fun nodeId serviceId checked => ?_⟩
  · rintro ⟨nodeId,serviceId,checked⟩
    obtain ⟨_,_,_,nodeRange,serviceRange,_,_⟩ := check_iff.mp checked
    exact ⟨nodeRange,serviceRange⟩
  · rintro ⟨nodeRange,serviceRange⟩
    exact ⟨_,_,check_iff.mpr ⟨Nat.le_refl _,rfl,rfl,nodeRange,serviceRange,rfl,rfl⟩⟩
  · have same := check_same checked
    refine ⟨Nat.lt_of_le_of_lt (eid_length nodeId serviceId) (by decide),(eid_created nodeId serviceId).trans (by rw [same]),
      node,service,ipn,?_⟩
    simp only [SockAddrBp.mk.injEq,true_and] at same
    rw [← same.1,← same.2]
    exact eid_same_iff ipn

theorem destination_kept_earth : (∃ nodeId serviceId,
    checkAddress sockaddrSize ⟨afBp,bpSchemeIpn,10,2⟩ = .ok (nodeId,serviceId)) ∧
    createBpSockaddrWithString (eidUtf8 10 2) = .ok ⟨afBp,bpSchemeIpn,10,2⟩ := by
  have kept := destination_kept earthEid_created
  exact ⟨kept.1.mpr (by decide),(kept.2 10 2 rfl).2.1⟩

def accepted : Event → Option Sending
  | .send _ length address payload true =>
    match checkAddress length address with
    | .ok (nodeId,serviceId) => some ⟨eidText nodeId serviceId,payload⟩
    | .error _ => none
  | _ => none

def pending : Upcall → Option Sending
  | .sendBundle nodeId serviceId payload => some ⟨eidText nodeId serviceId,payload⟩
  | .requestBundle _ => none

def Made (sdr : SdrString) (message sending : Sending) : Prop := sending.eid = message.eid ∧
  ∃ behind beyond, bpSendToEid sdr message.payload behind beyond = some sending.payload

inductive Outgoing (sdr : SdrString) (s : Stack) : Event → Stack → Prop where
  | still (sent : t.sent = s.sent) (upcalls : t.upcalls.filterMap pending = s.upcalls.filterMap pending)
      (quiet : accepted event = none) : Outgoing sdr s event t
  | queues (message : Sending) (sent : t.sent = s.sent)
      (upcalls : t.upcalls.filterMap pending = s.upcalls.filterMap pending ++ [message])
      (taken : accepted event = some message) : Outgoing sdr s event t
  | fails (message : Sending) (sent : t.sent = s.sent)
      (upcalls : s.upcalls.filterMap pending = message :: t.upcalls.filterMap pending) : Outgoing sdr s (.handleSend none) t
  | sends (message sending : Sending) (made : Made sdr message sending) (sent : t.sent = s.sent ++ [sending])
      (upcalls : s.upcalls.filterMap pending = message :: t.upcalls.filterMap pending) :
      Outgoing sdr s (.handleSend (some memory)) t

theorem step_outgoing (taken : Step sdr s event t) : Outgoing sdr s event t := by
  cases taken with
  | create | bindRefused | bind | insert | lock | wake | take | interrupt | release | arrive | receive | fail | lost
    | unclaimed | queued => exact .still rfl rfl rfl
  | @recv _ _ _ _ queued here alive =>
    refine .still rfl ?_ rfl
    cases queued <;> simp [pending]
  | @sendRefused _ _ _ _ _ _ _ queued here alive refused =>
    refine .still rfl rfl ?_
    cases queued <;> simp [accepted,refused]
  | @send _ _ _ _ _ _ _ _ queued here alive checked =>
    cases queued with
    | false => exact .still rfl (by simp) rfl
    | true => exact .queues _ rfl (List.filterMap_append ..) (by simp [accepted,checked])
  | handleRequest first => exact .still rfl (by simp only [first]; rfl) rfl
  | sendFailed first => exact .fails _ rfl (by simp only [first]; rfl)
  | handleSend first made =>
    refine .sends _ _ ?_ rfl (congrArg (List.filterMap pending) first)
    exact ⟨rfl,_,_,made⟩

structure Handled (sdr : SdrString) (events : List Event) (s : Stack) (handled messages : List Sending) : Prop where
  whole : handled ++ s.upcalls.filterMap pending = events.filterMap accepted
  part : messages.Sublist handled
  made : List.Forall₂ (Made sdr) messages s.sent
  all : .handleSend none ∉ events → messages = handled

def Outward (sdr : SdrString) (events : List Event) (s : Stack) : Prop := ∃ handled messages, Handled sdr events s handled messages

theorem step_outward (kept : Outward sdr events s) (taken : Step sdr s event t) : Outward sdr (events ++ [event]) t := by
  obtain ⟨handled,messages,outward⟩ := kept
  have earlier : .handleSend none ∉ events ++ [event] → messages = handled := fun fine =>
    outward.all fun inside => fine (List.mem_append_left _ inside)
  cases step_outgoing taken with
  | still sent upcalls quiet =>
    refine ⟨handled,messages,?_,outward.part,sent ▸ outward.made,earlier⟩
    rw [List.filterMap_append,← outward.whole,upcalls]
    simp [quiet]
  | queues message sent upcalls taken =>
    refine ⟨handled,messages,?_,outward.part,sent ▸ outward.made,earlier⟩
    rw [List.filterMap_append,← outward.whole,upcalls,List.append_assoc]
    simp [taken]
  | fails message sent upcalls =>
    refine ⟨handled ++ [message],messages,?_,outward.part.trans (List.sublist_append_left _ _),sent ▸ outward.made,
      fun fine => absurd (List.mem_append_right _ (List.mem_singleton.mpr rfl)) fine⟩
    rw [List.filterMap_append,← outward.whole,upcalls]
    simp [accepted]
  | sends message sending made sent upcalls =>
    refine ⟨handled ++ [message],messages ++ [message],?_,outward.part.append (List.Sublist.refl _),?_,fun fine => ?_⟩
    · rw [List.filterMap_append,← outward.whole,upcalls]
      simp [accepted]
    · rw [sent]
      exact List.rel_append outward.made (.cons made .nil)
    · rw [earlier fine]

theorem accepted_parts (taken : accepted event = some message) : ∃ sock length address,
    event = .send sock length address message.payload true ∧
    ∃ text : Utf8, text.bytes = message.eid ∧ createBpSockaddrWithString text = .ok address := by
  unfold accepted at taken
  split at taken
  · rename_i sock length address payload
    split at taken
    · rename_i nodeId serviceId checked
      cases taken
      refine ⟨sock,length,address,rfl,eidUtf8 nodeId serviceId,rfl,?_⟩
      rw [eid_created,check_same checked]
    · cases taken
  · cases taken

theorem run_outward (run : Run (Step sdr) Stack.empty events s) : Outward sdr events s :=
  run.traces (fun _ _ _ _ => step_outward) ⟨[],[],rfl,List.Sublist.slnil,.nil,fun _ => rfl⟩

theorem sent_origin (run : Run (Step sdr) Stack.empty events s) (member : sending ∈ s.sent) :
    ∃ message ∈ events.filterMap accepted, Made sdr message sending := by
  obtain ⟨handled,messages,outward⟩ := run_outward run
  obtain ⟨i,inside,rfl⟩ := List.getElem_of_mem member
  have known : i < messages.length := outward.made.length_eq ▸ inside
  refine ⟨messages[i],?_,outward.made.get known inside⟩
  rw [← outward.whole]
  exact List.mem_append_left _ (outward.part.subset (List.getElem_mem known))

-- What ION is given to send are the messages that the kernel took, in the order of the calls, and the daemon works
-- on them from the first: none is missing but what it failed to send and what it has still before it. Each goes to a
-- text that is read back as the destination of its call. Of its payload goes out what the
-- SDR's string has in the same bytes: a length, and all but the last byte.
theorem sends_in_order (delimited : SelfDelimited sdr) (run : Run (Step sdr) Stack.empty events s) :
    (∃ handled messages, handled ++ s.upcalls.filterMap pending = events.filterMap accepted ∧
      messages.Sublist handled ∧ List.Forall₂ (Made sdr) messages s.sent ∧
      (.handleSend none ∉ events → messages = handled)) ∧
    ∀ sending ∈ s.sent, ∃ sock length address payload, .send sock length address payload true ∈ events ∧
      (∃ text : Utf8, text.bytes = sending.eid ∧ createBpSockaddrWithString text = .ok address) ∧
      ((∀ b ∈ payload, b ≠ 0) → payload ≠ [] → ∃ count : Nat, payload.length ≤ count ∧ count ≤ 255 ∧
        sending.payload = UInt8.ofNat count :: payload.dropLast) := by
  obtain ⟨handled,messages,outward⟩ := run_outward run
  refine ⟨⟨handled,messages,outward.whole,outward.part,outward.made,outward.all⟩,fun sending member => ?_⟩
  obtain ⟨message,inside,named,behind,beyond,made⟩ := sent_origin run member
  obtain ⟨event,happened,taken⟩ := List.mem_filterMap.mp inside
  obtain ⟨sock,length,address,rfl,text⟩ := accepted_parts taken
  refine ⟨sock,length,address,message.payload,happened,named ▸ text,fun clean filled => ?_⟩
  exact made_string delimited clean filled made

def sending : List Event := [
  .create,.send 0 16 ⟨afBp,bpSchemeIpn,10,2⟩ [72,105] true,.send 0 16 ⟨afBp,bpSchemeIpn,10,3⟩ [72] true,
  .handleSend (some ([0],[7]))]

def sendingStack : Stack := (follow (step roomySdr) Stack.empty sending).getD Stack.empty

theorem sending_run : Run (Step roomySdr) Stack.empty sending sendingStack := by
  have ended : follow (step roomySdr) Stack.empty sending = some sendingStack := rfl
  exact (Run.of_follow ended).mono fun _ _ _ => step_sound

theorem sends_in_order_sending : sendingStack.sent = [⟨eidText 10 2,[2,72]⟩] ∧
    ∃ handled messages, handled ++ sendingStack.upcalls.filterMap pending = sending.filterMap accepted ∧
      messages.Sublist handled ∧ List.Forall₂ (Made roomySdr) messages sendingStack.sent := by
  obtain ⟨⟨handled,messages,whole,part,made,_⟩,_⟩ := sends_in_order roomy_delimited sending_run
  exact ⟨rfl,handled,messages,whole,part,made⟩

end DTChat.BpSending
