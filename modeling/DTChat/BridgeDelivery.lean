import DTChat.BridgeInbound
import DTChat.BpPayload
import DTChat.Transports

namespace DTChat.BridgeDelivery
open PrefixReader ProtoWire ProtoRecord ProtoMessages Base64Text WireCodec WireFraming WireCuts CallLogs
open Aap2Bridge BridgeInbound
open BpStack (SdrString SelfDelimited bpSendToEid roomySdr roomy_delimited)
open BpPayload (framed_read frame_wire frame_generated drop_pad sent_bytes)
open Transports (readToEnd readToEnd_segments)

theorem mergeField_varint_content {m next : ProtoMessage} (read : m.mergeField tag .varint bytes = some (next,rest)) :
    next.content = m.content := by
  unfold ProtoMessage.mergeField at read
  split at read
  all_goals obtain ⟨found,value,rfl⟩ := onRead_inv read
  all_goals first
    | rfl
    | (obtain ⟨_,body,_⟩ := messageValue_inv value; cases body)

theorem shifted_key (small : first < 64) (key : decodeKey (UInt8.ofNat (first*4) :: bytes) = some ((tag,wire),middle)) :
    (wire = .varint ∨ wire = .endGroup) ∧ (middle = bytes ∨ ∃ n, varintFrom 9 bytes = some (n,middle)) := by
  have value : (UInt8.ofNat (first*4)).toNat = first*4 := UInt8.toNat_ofNat_of_lt' (by simp only [UInt8.size]; omega)
  obtain ⟨n,varint,number,_⟩ := decodeKey_inv key
  rw [decodeVarint,varintFrom,value] at varint
  split at varint
  · simp only [show ¬(9 = 0 ∧ 2 ≤ first*4) by omega,if_false] at varint
    cases Option.some.inj varint
    exact ⟨WireType.quarter number (by omega),.inl rfl⟩
  · obtain ⟨⟨high,after⟩,inner,same⟩ := Option.map_eq_some_iff.mp varint
    cases same
    exact ⟨WireType.quarter number (by simp only; omega),.inr ⟨high,inner⟩⟩

theorem shifted_contentless (small : first < 64) (inside : ∀ b ∈ bytes.take 10, 128 ≤ b.toNat) (m : ProtoMessage)
    (part : kept <+: UInt8.ofNat (first*4) :: 40 :: bytes) (merged : ProtoMessage.reader.merge m kept = some last) :
    last.content = m.content := by
  cases kept with
  | nil =>
    cases Option.some.inj merged
    rfl
  | cons b rest =>
    obtain ⟨rfl,behind_first⟩ := List.cons_prefix_cons.mp part
    obtain ⟨next,later,read,_,ended⟩ := ProtoMessage.reader.merge_cases (List.cons_ne_nil _ _) merged
    obtain ⟨tag,wire,middle,key,field⟩ := record_inv read
    obtain ⟨wires,behind⟩ := shifted_key small key
    rcases wires with rfl | rfl
    · have same := mergeField_varint_content field
      obtain ⟨count,payload⟩ := ProtoMessage.mergeField_varint field
      cases rest with
      | nil =>
        rcases behind with rfl | ⟨_,none⟩
        · cases payload
        · cases none
      | cons c tail =>
        obtain ⟨rfl,open_part⟩ := List.cons_prefix_cons.mp behind_first
        have unread : decodeVarint tail = none :=
          varintFrom_open 10 tail fun b member => inside b ((open_part.take 10).subset member)
        rcases behind with rfl | ⟨_,run⟩
        · cases Option.some.inj payload
          by_cases empty : later = []
          · subst empty
            cases Option.some.inj ended
            exact same
          · rw [ProtoMessage.reader.merge_refused empty (record_unkeyed (andThen_none unread))] at ended
            cases ended
        · cases Option.some.inj run
          rw [unread] at payload
          cases payload
    · rw [ProtoMessage.mergeField_endGroup] at field
      cases field

section frames

variable {proto : ProtoMessage}

theorem header_open (generated : GenerateUuid proto.uuid) (carry : Nat) : ∃ bytes : List UInt8,
    shifted carry proto.encode = UInt8.ofNat (carry*4) :: 40 :: bytes ∧ ∀ b ∈ bytes.take 10, 128 ≤ b.toNat := by
  obtain ⟨rest,opened⟩ := uuid_header generated
  refine ⟨shifted 36 (proto.uuid.bytes ++ rest),by rw [opened,shifted_header],fun b member => ?_⟩
  rw [shifted_append] at member
  exact (uuid_unended generated _).2 b member

theorem behind_refused (generated : GenerateUuid proto.uuid) (front : core proto.encode = kept ++ part)
    (some_part : part ≠ []) (first : UInt8) : decodeAttempt (first :: kept) = none := by
  cases attempt : decodeAttempt (first :: kept) with
  | none => rfl
  | some msg =>
    obtain ⟨bytes,read,parsed,present⟩ := decodeAttempt_inv attempt
    cases member : isSymbol first with
    | false => rw [decodeAdu_outside member] at read; cases read
    | true =>
      have symbols : ∀ b ∈ first :: kept, isSymbol b = true := by
        intro b inside
        rcases List.mem_cons.mp inside with rfl | inside
        · exact member
        · exact cut_symbols front b inside
      have shorter : kept.length < (core proto.encode).length := by
        have := List.length_pos_iff.mpr some_part
        rw [front,List.length_append]
        omega
      have run := decodeAdu_stops symbols stops_nil
      rw [List.append_nil,read] at run
      split at run
      · cases run
      · rw [cut_taken front] at run
        have piece := readCore_shift_cut member proto.encode shorter run.symm
        obtain ⟨opened,stream,inside⟩ := header_open generated (sextet first)
        rw [stream] at piece
        rw [shifted_contentless (sextet_lt member) inside .default piece parsed] at present
        cases present

theorem kept_parts (kept_lost : Base64Text.encode bytes = kept ++ lost) :
    (∃ part, core bytes = kept ++ part ∧ part ≠ []) ∨ ∃ left, kept = core bytes ++ List.replicate left pad := by
  cases symbol : lost.any (· ≠ pad) with
  | true => exact .inl (cut_core kept_lost symbol)
  | false =>
    have pads : lost = List.replicate lost.length pad := by
      apply List.eq_replicate_of_mem
      intro b member
      have same := List.any_eq_false.mp symbol b member
      simpa using same
    rw [pads] at kept_lost
    exact .inr (stripped_core kept_lost)

end frames

theorem stops_replicate (count : Nat) : Stops (List.replicate count pad) := by
  simpa using stops_pads count stops_nil

-- The payload of a bundle for the node behind the bridge: what an AF_BP daemon made of a frame that has a pad
-- to lose, or a frame itself, whose uuid keeps it from being read one symbol later.
inductive Inbound (sdr : SdrString) (frame : SentFrame) : List UInt8 → Prop where
  | string (generated : GenerateUuid frame.uuid) (encoded : frame.wire = some wire)
      (made : bpSendToEid sdr wire behind beyond = some payload) (padded : frame.proto.encode.length % 3 ≠ 0) :
      Inbound sdr frame payload
  | plain (generated : GenerateUuid frame.uuid) (encoded : frame.wire = some wire) (blocked : BlocksShift frame.uuid) :
      Inbound sdr frame wire

theorem inbound_part (delimited : SelfDelimited sdr) (inbound : Inbound sdr frame payload) (part : kept <+: payload) :
    decodeProtoTolerant kept = none ∨ decodeProtoTolerant kept = some frame.proto := by
  obtain ⟨content,present⟩ := frame.content
  cases inbound with
  | string generated encoded made padded =>
    have generated := frame_generated generated
    obtain ⟨rfl,fits⟩ := frame_wire encoded
    obtain ⟨_,_,rfl⟩ := sent_bytes delimited (proto_nonempty present) made
    cases kept with
    | nil => exact .inl rfl
    | cons first rest =>
      obtain ⟨lost,whole⟩ := (List.cons_prefix_cons.mp part).2.trans (List.dropLast_prefix _)
      rcases kept_parts whole.symm with ⟨tail,front,some_tail⟩ | ⟨left,rfl⟩
      · left
        rw [decodeTolerant_second (behind_refused generated front some_tail first),List.tail_cons]
        exact first_attempt_refused present fits front some_tail
      · right
        exact framed_read generated fits present first (stops_replicate left)
  | plain generated encoded blocked =>
    rw [← frame.proto_uuid] at generated blocked
    obtain ⟨rfl,fits⟩ := frame_wire encoded
    obtain ⟨lost,whole⟩ := part
    rcases kept_parts whole.symm with ⟨tail,front,some_tail⟩ | ⟨left,rfl⟩
    · left
      rw [decodeTolerant_second (first_attempt_refused present fits front some_tail)]
      exact second_attempt_refused generated blocked front
    · right
      exact decodeTolerant_first (decodeAttempt_wire fits present (stops_replicate left))

theorem inbound_whole (delimited : SelfDelimited sdr) (inbound : Inbound sdr frame payload) :
    decodeProtoTolerant payload = some frame.proto := by
  obtain ⟨content,present⟩ := frame.content
  cases inbound with
  | string generated encoded made padded =>
    have generated := frame_generated generated
    obtain ⟨rfl,fits⟩ := frame_wire encoded
    obtain ⟨length,_,rfl⟩ := sent_bytes delimited (proto_nonempty present) made
    rw [drop_pad padded]
    exact framed_read generated fits present length (stops_replicate _)
  | plain generated encoded blocked =>
    rw [frame.wire_eq] at encoded
    exact decodeTolerant_wire encoded present

-- handle_tcp_connection: what it hands to `deserialize_message` of one attempt. A failed attempt may
-- have brought any part of its payload, or end in a read error; of a completed one TCP brings all.
inductive Streams (payload : List UInt8) : Attempt → Option (List UInt8) → Prop where
  | unread (failed : attempt ≠ .completed) : Streams payload attempt none
  | part (connected : attempt ≠ .unconnected) (failed : attempt ≠ .completed)
      (nonempty : ∀ segment ∈ segments, segment ≠ []) (inside : segments.flatten <+: payload) :
      Streams payload attempt (some (readToEnd segments []))
  | whole (nonempty : ∀ segment ∈ segments, segment ≠ []) (all : segments.flatten = payload) :
      Streams payload .completed (some (readToEnd segments []))

def reads (stream : Option (List UInt8)) : Option ProtoMessage := stream.bind decodeProtoTolerant

theorem stream_read (delimited : SelfDelimited sdr) (inbound : Inbound sdr frame payload) (heard : Streams payload attempt stream) :
    reads stream = none ∧ attempt ≠ .completed ∨ reads stream = some frame.proto := by
  cases heard with
  | unread failed => exact .inl ⟨rfl,failed⟩
  | part connected failed nonempty inside =>
    rw [readToEnd_segments _ _ nonempty,List.nil_append]
    exact (inbound_part delimited inbound inside).imp (⟨·,failed⟩) id
  | whole nonempty all =>
    rw [readToEnd_segments _ _ nonempty,List.nil_append,all]
    exact .inr (inbound_whole delimited inbound)

theorem attempts_copies (delimited : SelfDelimited sdr) (inbound : Inbound sdr frame payload) (heard : List.Forall₂ (Streams payload) tries streams) :
    ∃ count, count ≤ tries.length ∧ streams.filterMap reads = List.replicate count frame.proto ∧
      (.completed ∈ tries → 0 < count) := by
  induction heard with
  | nil => exact ⟨0,Nat.le_refl _,rfl,fun member => by cases member⟩
  | @cons attempt stream later rest here _ ih =>
    obtain ⟨count,few,copies,some_copy⟩ := ih
    rcases stream_read delimited inbound here with ⟨unread,failed⟩ | read
    · refine ⟨count,Nat.le_succ_of_le few,?_,fun member => ?_⟩
      · rw [List.filterMap_cons_none unread,copies]
      · exact some_copy (List.mem_of_ne_of_mem (Ne.symm failed) member)
    · refine ⟨count+1,Nat.succ_le_succ few,?_,fun _ => Nat.succ_pos count⟩
      rw [List.filterMap_cons_some read,copies,List.replicate_succ]

def handled : Ending → List Account
  | .unanswered account => [account]
  | _ => []

def received : Call → Option (List UInt8)
  | .receiveAdu _ _ (some (_,payload)) => some payload
  | _ => none

def Heard (account : Account) (streams : List (Option (List UInt8))) : Prop :=
  List.Forall₂ (Streams account.payload) account.attempts streams

def Copies (account : Account) (count : Nat) : Prop :=
  count ≤ deliverAttempts ∧ (account.status = .success → 0 < count)

theorem received_ledger (calls : List Call) : (ledger calls).filterMap received = calls.filterMap received := by
  unfold ledger
  rw [List.filterMap_filter]
  refine List.filterMap_congr fun call _ => ?_
  cases call with
  | isSet answer => cases answer <;> rfl
  | receiveMsg client answer => rcases answer with _ | _ | _ | _ <;> rfl
  | _ => rfl

theorem attempt_received (target : String × Nat) (payload : List UInt8) (attempt : Attempt) :
    (attempt.calls target payload).filterMap received = [] := by cases attempt <;> rfl

theorem account_received (client : Client) (target : String × Nat) (answered : Bool) (account : Account) :
    (account.calls client target answered).filterMap received = [account.payload] := by
  have quiet : (account.toTries.calls target account.payload).filterMap received = [] := by
    unfold Tries.calls stops
    cases account.stopped <;> simp [List.filterMap_flatMap,attempt_received,received]
  rw [Account.calls,List.filterMap_append,List.filterMap_append,quiet,List.append_nil]
  rfl

theorem accounts_received (client : Client) (target : String × Nat) (accounts : List Account) (ending : Ending) :
    (accounts.flatMap (Account.calls client target true) ++ ending.calls client target).filterMap received =
      (accounts ++ handled ending).map (·.payload) := by
  have last : (ending.calls client target).filterMap received = (handled ending).map (·.payload) := by
    cases ending with
    | unanswered account => exact account_received client target false account
    | _ => rfl
  rw [List.filterMap_append,last,List.map_append,List.filterMap_flatMap]
  simp only [account_received,← List.map_eq_flatMap]

theorem accounts_copies (delimited : SelfDelimited sdr)
    (brought : List.Forall₂ (fun frame (account : Account) => Inbound sdr frame account.payload) frames accounts)
    (heard : List.Forall₂ Heard accounts streams) : ∃ counts : List Nat, List.Forall₂ Copies accounts counts ∧
      streams.flatten.filterMap reads = (frames.zip counts).flatMap fun sent => List.replicate sent.2 sent.1.proto := by
  induction brought generalizing streams with
  | nil =>
    cases heard
    exact ⟨[],.nil,rfl⟩
  | @cons frame account later rest brings _ ih =>
    cases heard with
    | cons here others =>
      obtain ⟨counts,copied,read⟩ := ih others
      obtain ⟨count,few,copies,some_copy⟩ := attempts_copies delimited brings here
      refine ⟨count :: counts,.cons ⟨few.trans account.offered.few,fun done => ?_⟩ copied,?_⟩
      · exact some_copy (account.honest.mp done)
      · rw [List.flatten_cons,List.filterMap_append,copies,read,List.zip_cons_cons,List.flatMap_cons]

-- From uD3TN to the node, for ADUs that a node has sent in full: whatever fails between, the node reads their
-- frames in the order of the ADUs, each at most twelve times and at least once if uD3TN was told of
-- a success, and it reads nothing else.
theorem inbound_copies (delimited : SelfDelimited sdr) (world : World) (client : Client) (target : String × Nat) (fuel : Nat)
    (past : List Call)
    (brought : List.Forall₂ (Inbound sdr) frames ((drain world client target fuel past).2.filterMap received)) :
    ∃ (accounts : List Account) (ending : Ending), (drain world client target fuel past).1 = ending.result ∧
      ledger (drain world client target fuel past).2 =
        accounts.flatMap (Account.calls client target true) ++ ending.calls client target ∧
      ∀ streams, List.Forall₂ Heard (accounts ++ handled ending) streams →
        ∃ counts : List Nat, List.Forall₂ Copies (accounts ++ handled ending) counts ∧
          streams.flatten.filterMap reads = (frames.zip counts).flatMap fun sent => List.replicate sent.2 sent.1.proto := by
  have drained : Emits past (drain world client target fuel) _ := drain_emits fuel
  obtain ⟨accounts,ending,result,calls⟩ := drained
  rw [← received_ledger,calls,accounts_received,List.forall₂_map_right_iff] at brought
  exact ⟨accounts,ending,result,calls,fun _ => accounts_copies delimited brought⟩

theorem heard_some (account : Account) : ∃ streams, Heard account streams := by
  obtain ⟨segments,nonempty,whole⟩ : ∃ segments : List (List UInt8),
      (∀ segment ∈ segments, segment ≠ []) ∧ segments.flatten = account.payload := by
    by_cases blank : account.payload = []
    · exact ⟨[],by simp,blank.symm⟩
    · exact ⟨[account.payload],by simpa using blank,by simp⟩
  unfold Heard
  generalize account.attempts = tries
  induction tries with
  | nil => exact ⟨[],.nil⟩
  | cons attempt later ih =>
    obtain ⟨streams,heard⟩ := ih
    by_cases completed : attempt = .completed
    · subst completed
      exact ⟨_,.cons (.whole nonempty whole) heard⟩
    · exact ⟨_,.cons (.unread completed) heard⟩

theorem heard_all (accounts : List Account) : ∃ streams, List.Forall₂ Heard accounts streams := by
  induction accounts with
  | nil => exact ⟨[],.nil⟩
  | cons account later ih =>
    obtain ⟨streams,heard⟩ := ih
    obtain ⟨here,first⟩ := heard_some account
    exact ⟨here :: streams,.cons first heard⟩

def checkAdu : List UInt8 := ((serializeMessage checkMessage).bind fun wire => bpSendToEid roomySdr wire [] []).getD []

def checking : World := {retrying with receiveAdu := fun _ => some (⟨"ipn:20.2",2⟩,checkAdu)}

theorem check_inbound : Inbound roomySdr (.chat checkMessage) checkAdu := by
  obtain ⟨adu,made⟩ := Option.isSome_iff_exists.mp (by decide +kernel :
    ((serializeMessage checkMessage).bind fun wire => bpSendToEid roomySdr wire [] []).isSome)
  obtain ⟨wire,encoded,sent⟩ := Option.bind_eq_some_iff.mp made
  rw [checkAdu,made]
  exact .string (by decide +kernel) encoded sent (by decide +kernel)

theorem inbound_copies_checking : ∃ (accounts : List Account) (ending : Ending),
    (drain checking 0 ("127.0.0.1",7720) 2 []).1 = ending.result ∧
    ∃ streams counts, List.Forall₂ Heard (accounts ++ handled ending) streams ∧
      List.Forall₂ Copies (accounts ++ handled ending) counts ∧ streams.flatten.filterMap reads =
        ([SentFrame.chat checkMessage].zip counts).flatMap fun sent => List.replicate sent.2 sent.1.proto := by
  have one : (drain checking 0 ("127.0.0.1",7720) 2 []).2.filterMap received = [checkAdu] := rfl
  obtain ⟨accounts,ending,result,_,read⟩ := inbound_copies roomy_delimited checking 0 ("127.0.0.1",7720) 2 []
    (by rw [one]; exact .cons check_inbound .nil)
  obtain ⟨streams,heard⟩ := heard_all (accounts ++ handled ending)
  obtain ⟨counts,copied,same⟩ := read streams heard
  exact ⟨accounts,ending,result,streams,counts,heard,copied,same⟩

end DTChat.BridgeDelivery
