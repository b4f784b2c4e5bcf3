import DTChat.BpReceive

namespace DTChat.BpBinding
open Holdings Runs BpStack BpCustody BpReceive
open LockedThreads (set_cases set_map spawned_cases)
open EndpointAddresses (afBp bpSchemeIpn)

section keys

variable {κ : Type} {keys : List κ} {bpList : List Nat} {sock : Nat} {key : κ}

def Distinct (keys : List κ) (bpList : List Nat) : Prop :=
  ∀ i ∈ bpList, ∀ j ∈ bpList, keys[i]? = keys[j]? → i = j

theorem Distinct.insert (distinct : Distinct keys bpList) (known : sock < keys.length) (apart : sock ∉ bpList)
    (fresh : ∀ other ∈ bpList, keys[other]? ≠ some key) : Distinct (keys.set sock key) (sock :: bpList) := by
  have elsewhere : ∀ other ∈ bpList, (keys.set sock key)[other]? = keys[other]? := by
    intro other inside
    refine List.getElem?_set_ne ?_
    rintro rfl
    exact apart inside
  have mine : (keys.set sock key)[sock]? = some key := List.getElem?_set_self known
  intro i first j second same
  rcases List.mem_cons.mp first with rfl | left
  · rcases List.mem_cons.mp second with rfl | right
    · rfl
    · rw [mine,elsewhere j right] at same
      exact absurd same.symm (fresh j right)
  · rcases List.mem_cons.mp second with rfl | right
    · rw [mine,elsewhere i left] at same
      exact absurd same (fresh i left)
    · rw [elsewhere i left,elsewhere j right] at same
      exact distinct i left j right same

theorem Distinct.erase (distinct : Distinct keys bpList) (sock : Nat) : Distinct keys (bpList.erase sock) :=
  fun i first j second same => distinct i (List.mem_of_mem_erase first) j (List.mem_of_mem_erase second) same

variable {f : BpSock → κ}

def OfAddress (f : BpSock → κ) : Prop := ∀ a b : BpSock, a.nodeId = b.nodeId → a.serviceId = b.serviceId → f a = f b

theorem Distinct.socket {socks : List BpSock} {bp next : BpSock} (distinct : Distinct (socks.map f) bpList) (here : socks[sock]? = some bp)
    (same : f next = f bp) : Distinct ((socks.set sock next).map f) bpList := by
  rw [set_map here same]
  exact distinct

theorem key_at {socks : List BpSock} {bp : BpSock} (here : socks[sock]? = some bp) : (socks.map f)[sock]? = some (f bp) := by
  simp [here]

theorem step_distinct (address : OfAddress f) (sound : Sound s) (fine : once s event = true) (distinct : Distinct (s.socks.map f) s.bpList)
    (fresh : ∀ (call sock : Nat) (nodeId : UInt32) (serviceId : UInt8) (bp : BpSock), event = .insert call →
      s.calls[call]? = some (.bind sock nodeId serviceId) → s.sockAt sock = some bp →
      ∀ other ∈ s.bpList, ∀ found, s.sockAt other = some found → f found ≠ f {bp with nodeId := nodeId,serviceId := serviceId})
    (taken : Step sdr s event t) : Distinct (t.socks.map f) t.bpList := by
  cases taken with
  | create =>
    have known : ∀ i ∈ s.bpList, ((s.socks ++ [BpSock.created]).map f)[i]? = (s.socks.map f)[i]? := by
      intro i inside
      obtain ⟨bp,here,_⟩ := sound.1.sockets.listed i inside
      have bound := (List.getElem?_eq_some_iff.mp here).1
      rw [List.map_append]
      exact List.getElem?_append_left (by simpa using bound)
    intro i first j second same
    rw [known i first,known j second] at same
    exact distinct i first j second same
  | bindRefused | bind | recv | wake | sendRefused | send | handleRequest | sendFailed | handleSend | arrive | receive | fail | lost
    | unclaimed => exact distinct
  | insert binding here free =>
    have apart := once_insert fine binding
    have new := fresh _ _ _ _ _ rfl binding here
    simp only [List.map_set]
    refine distinct.insert ?_ apart fun other inside same => ?_
    · simpa using (List.getElem?_eq_some_iff.mp here).1
    · obtain ⟨found,there,_⟩ := sound.1.sockets.listed other inside
      refine new other inside found there ?_
      rw [key_at there] at same
      exact Option.some.inj same
  | lock asked here => exact distinct.socket here (address _ _ rfl rfl)
  | take woken here => exact distinct.socket here (address _ _ rfl rfl)
  | interrupt waits here => exact distinct.socket here (address _ _ rfl rfl)
  | release here =>
    refine Distinct.erase (distinct.socket here ?_) _
    exact address _ _ rfl rfl
  | queued carried claimed here => exact distinct.socket here (address _ _ rfl rfl)

end keys

def addressOf (bp : BpSock) : UInt32 × UInt8 := (bp.nodeId,bp.serviceId)

def bindsTo : Call → Option (UInt32 × UInt8)
  | .bind _ nodeId serviceId => some (nodeId,serviceId)
  | _ => none

def binds (call : Call) : Nat := if (bindsTo call).isSome then 1 else 0

-- Sockets are bound once, and no bind starts while another one is between its scan and its insertion.
def serial (s : Stack) (event : Event) : Bool :=
  once s event && match event with
    | .bind _ _ _ => s.calls.all (binds · = 0)
    | _ => true

theorem serial_once (fine : serial s event = true) : once s event = true := (Bool.and_eq_true_iff.mp fine).1

theorem serial_bind (fine : serial s (.bind sock length address) = true) : ∀ call ∈ s.calls, binds call = 0 := by
  simpa [serial,once] using fine

structure Pending (socks : List BpSock) (bpList : List Nat) (calls : List Call) : Prop where
  alone : held binds calls ≤ 1
  fresh : ∀ call ∈ calls, ∀ key, bindsTo call = some key → ∀ other ∈ bpList, ∀ bp : BpSock, socks[other]? = some bp →
    addressOf bp ≠ key

section pending

variable {socks : List BpSock} {bpList : List Nat} {calls : List Call} {bp next : BpSock} {sock call : Nat} {old new : Call}

theorem Pending.socket (pending : Pending socks bpList calls) (here : socks[sock]? = some bp)
    (same : addressOf next = addressOf bp) : Pending (socks.set sock next) bpList calls := by
  refine ⟨pending.alone,fun call member key binding other inside found there => ?_⟩
  rcases set_cases there with ⟨rfl,rfl⟩ | ⟨_,old⟩
  · rw [same]
    exact pending.fresh call member key binding other inside bp here
  · exact pending.fresh call member key binding other inside found old

theorem Pending.start (pending : Pending socks bpList calls) (other : bindsTo new = none) :
    Pending socks bpList (calls ++ [new]) := by
  refine ⟨?_,fun call member key binding => ?_⟩
  · simpa [binds,other] using pending.alone
  · rcases List.mem_append.mp member with before | last
    · exact pending.fresh call before key binding
    · rw [List.mem_singleton.mp last,other] at binding
      cases binding

theorem Pending.move (pending : Pending socks bpList calls) (here : calls[call]? = some old) (was : bindsTo old = none)
    (other : bindsTo new = none) : Pending socks bpList (calls.set call new) := by
  refine ⟨?_,fun later member key binding => ?_⟩
  · have same := held_set_same here (show binds new = binds old by simp [binds,was,other])
    exact same.trans_le pending.alone
  · rcases List.mem_or_eq_of_mem_set member with before | rfl
    · exact pending.fresh later before key binding
    · rw [other] at binding
      cases binding

theorem Pending.none (nobody : held binds calls = 0) : Pending socks bpList calls := by
  refine ⟨nobody.trans_le (Nat.zero_le 1),fun call member key binding => ?_⟩
  obtain ⟨i,here⟩ := List.mem_iff_getElem?.mp member
  have least := le_held here (f := binds)
  simp [nobody,binds,binding] at least

theorem Pending.ends (pending : Pending socks bpList calls) (here : calls[call]? = some old) (bound : bindsTo old = some key) :
    Pending other list (calls.set call .returned) := by
  refine Pending.none ?_
  have left := held_set here .returned (f := binds)
  have before : binds old = 1 := by simp [binds,bound]
  have after : binds .returned = 0 := rfl
  have atMost := pending.alone
  omega

theorem Pending.erase (pending : Pending socks bpList calls) (sock : Nat) : Pending socks (bpList.erase sock) calls :=
  ⟨pending.alone,fun call member key binding other inside =>
    pending.fresh call member key binding other (List.mem_of_mem_erase inside)⟩

end pending

structure BoundOnce (s : Stack) : Prop where
  sound : Sound s
  distinct : Distinct (s.socks.map addressOf) s.bpList
  pending : Pending s.socks s.bpList s.calls

theorem cInt_small : 1 ≤ cInt n ↔ 1 ≤ n.toNat ∧ n.toNat < 2^31 := by
  unfold cInt
  rw [BitVec.toInt_eq_toNat_cond]
  have bound := n.toNat_lt
  simp only [UInt32.toNat_toBitVec]
  split <;> omega

theorem cInt_range : 1 ≤ cInt n ∧ cInt n ≤ 255 ↔ 1 ≤ n.toNat ∧ n.toNat ≤ 255 := by
  unfold cInt
  rw [BitVec.toInt_eq_toNat_cond]
  have bound := n.toNat_lt
  simp only [UInt32.toNat_toBitVec]
  split <;> omega

theorem check_iff : checkAddress length address = .ok (nodeId,serviceId) ↔
    sockaddrSize ≤ length ∧ address.bpFamily = afBp ∧ address.bpScheme = bpSchemeIpn ∧
    (1 ≤ address.nodeId.toNat ∧ address.nodeId.toNat < 2^31) ∧ (1 ≤ address.serviceId.toNat ∧ address.serviceId.toNat ≤ 255) ∧
    nodeId = address.nodeId ∧ serviceId = address.serviceId := by
  rw [← cInt_small,← cInt_range]
  unfold checkAddress
  by_cases long : length < sockaddrSize
  · simp [long,Nat.not_le.mpr long]
  · by_cases family : address.bpFamily = afBp
    · by_cases scheme : address.bpScheme = bpSchemeIpn
      · by_cases service : cInt address.serviceId < 1 ∨ 255 < cInt address.serviceId
        · simp only [long,family,scheme,service,ne_eq,not_true_eq_false,↓reduceIte,reduceCtorEq,false_iff,not_and]
          omega
        · by_cases node : cInt address.nodeId < 1
          · simp only [long,family,scheme,service,node,ne_eq,not_true_eq_false,↓reduceIte,reduceCtorEq,false_iff,not_and]
            omega
          · simp only [long,family,scheme,service,node,ne_eq,not_true_eq_false,↓reduceIte,Except.ok.injEq,Prod.mk.injEq,true_and]
            rw [and_comm (a := address.nodeId = nodeId)]
            constructor
            · rintro ⟨rfl,rfl⟩
              exact ⟨Nat.le_of_not_lt long,by omega,by omega,rfl,rfl⟩
            · rintro ⟨_,_,_,rfl,rfl⟩
              exact ⟨rfl,rfl⟩
      · by_cases dtn : address.bpScheme = bpSchemeDtn
        · simp [long,family,dtn,bpSchemeDtn,bpSchemeIpn]
        · simp [long,family,scheme,dtn]
    · simp [long,family]

theorem scan_fresh {s : Stack} (scanned : s.bindScan length address = .ok (nodeId,serviceId)) :
    ∀ other ∈ s.bpList, ∀ bp, s.sockAt other = some bp → addressOf bp ≠ (nodeId,serviceId) := by
  unfold Stack.bindScan at scanned
  split at scanned
  · cases scanned
  · rename_i node service checked
    split at scanned
    · cases scanned
    · rename_i nobody
      cases scanned
      obtain ⟨_,_,_,_,range,_,rfl⟩ := check_iff.mp checked
      intro other inside bp here same
      apply nobody
      refine List.any_eq_true.mpr ⟨other,inside,?_⟩
      obtain ⟨node,service⟩ := Prod.mk.inj same
      simp only [here,Option.any_some,node,service,decide_true,Bool.and_true,decide_eq_true_eq]
      apply UInt32.toNat_inj.mp
      rw [UInt8.toNat_toUInt32,UInt32.toNat_toUInt8]
      omega

theorem step_pending (sound : Sound s) (pending : Pending s.socks s.bpList s.calls) (fine : serial s event = true)
    (taken : Step sdr s event t) : Pending t.socks t.bpList t.calls := by
  cases taken with
  | create =>
    refine ⟨pending.alone,fun call member key binding other inside bp there => ?_⟩
    rcases spawned_cases there with old | ⟨rfl,_⟩
    · exact pending.fresh call member key binding other inside bp old
    · obtain ⟨_,here,_⟩ := sound.1.sockets.listed _ inside
      exact absurd (List.getElem?_eq_some_iff.mp here).1 (Nat.lt_irrefl _)
  | bindRefused | sendRefused | send | handleRequest | sendFailed | handleSend | arrive | receive | fail | lost | unclaimed => exact pending
  | bind here alive scanned =>
    refine ⟨?_,fun call member key binding => ?_⟩
    · have nobody := held_none (serial_bind fine)
      simp [nobody,binds,bindsTo]
    · rcases List.mem_append.mp member with before | last
      · exact pending.fresh call before key binding
      · rw [List.mem_singleton.mp last] at binding
        cases binding
        exact scan_fresh scanned
  | insert binding here free => exact pending.ends binding rfl
  | recv here alive => exact pending.start rfl
  | lock asked here =>
    refine Pending.move (pending.socket here ?_) asked ?_ ?_
    all_goals rfl
  | wake waits here => exact pending.move waits rfl rfl
  | take woken here =>
    refine Pending.move (pending.socket here ?_) woken ?_ ?_
    all_goals rfl
  | interrupt waits here =>
    refine Pending.move (pending.socket here ?_) waits ?_ ?_
    all_goals rfl
  | release here =>
    refine Pending.erase (pending.socket here ?_) _
    rfl
  | queued carried claimed here =>
    refine pending.socket here ?_
    rfl

theorem step_bound (inv : BoundOnce s) (fine : serial s event = true) (taken : Step sdr s event t) : BoundOnce t := by
  refine ⟨sound_step inv.sound (serial_once fine) taken,step_distinct ?_ inv.sound (serial_once fine) inv.distinct ?_ taken,
    step_pending inv.sound inv.pending fine taken⟩
  · intro a b node service
    simp [addressOf,node,service]
  · intro call sock nodeId serviceId bp _ binding here other inside found there
    exact inv.pending.fresh _ (List.mem_of_getElem? binding) _ rfl other inside found there

theorem bound_empty : BoundOnce Stack.empty := by
  refine ⟨sound_empty,?_,Nat.zero_le _,?_⟩
  · intro i member
    cases member
  · intro call member
    cases member

def overlapping : List Event := [
  .create,.create,.bind 0 16 ⟨afBp,bpSchemeIpn,20,3⟩,.bind 1 16 ⟨afBp,bpSchemeIpn,20,3⟩,.insert 0,.insert 1]

def overlapped : Stack := (follow (step roomySdr) Stack.empty overlapping).getD Stack.empty

theorem overlapped_run : Run (Checked once (Step roomySdr)) Stack.empty overlapping overlapped := checked_run rfl rfl

-- As long as no bind starts while another is between its scan of bp_list and its insertion,
-- an address is bound once, in every state of every run. The two parts are not one
-- critical section, and without that condition an address can be bound twice.
theorem address_bound_once :
    (∀ sdr events s, Run (Checked serial (Step sdr)) Stack.empty events s → ∀ i ∈ s.bpList, ∀ j ∈ s.bpList, ∀ first second,
      s.sockAt i = some first → s.sockAt j = some second → addressOf first = addressOf second → i = j) ∧
    ∃ sdr events s, Run (Checked once (Step sdr)) Stack.empty events s ∧ ∃ i ∈ s.bpList, ∃ j ∈ s.bpList, ∃ first second,
      s.sockAt i = some first ∧ s.sockAt j = some second ∧ addressOf first = addressOf second ∧ i ≠ j := by
  constructor
  · intro sdr events s run i left j right first second here there same
    have inv : BoundOnce s := run.preserves (fun _ _ _ inv taken => step_bound inv taken.1 taken.2) bound_empty
    refine inv.distinct i left j right ?_
    rw [key_at here,key_at there,same]
  · refine ⟨roomySdr,overlapping,overlapped,overlapped_run,1,?_,0,?_,_,_,rfl,rfl,rfl,by decide⟩
    · exact List.mem_cons_self
    · exact List.mem_cons_of_mem _ List.mem_cons_self

theorem exchange_serial : Run (Checked serial (Step roomySdr)) Stack.empty exchange exchanged :=
  checked_run exchange_followed rfl

theorem address_bound_once_exchange : ∀ i ∈ exchanged.bpList, ∀ j ∈ exchanged.bpList, ∀ first second,
    exchanged.sockAt i = some first → exchanged.sockAt j = some second → addressOf first = addressOf second → i = j :=
  address_bound_once.1 roomySdr exchange exchanged exchange_serial

end DTChat.BpBinding
