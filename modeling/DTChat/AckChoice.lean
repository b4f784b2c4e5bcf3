import DTChat.NodeRun

namespace DTChat.AckChoice
open ClockTime Utf8Text PeerMessages ProtoMessages WireCodec WireRoundTrip SortedInsert ChatModels SocketControllers NodeRun

-- The first valid endpoint of the best kind there is, in the order BP, TCP, UDP.
def BestKind (platform : Platform) (endpoints : List Endpoint) (endpoint : Endpoint) : Prop :=
  let first (kind : Endpoint → Bool) := endpoints.find? fun ep => isValid platform ep && kind ep
  first isBp = some endpoint ∨ (first isBp = none ∧ (first isTcp = some endpoint ∨
    (first isTcp = none ∧ first isUdp = some endpoint)))

structure Preferred (platform : Platform) (endpoints : List Endpoint) (receivedOnEndpoint : Option Endpoint)
    (choice : Option Endpoint) : Prop where
  answers : choice.isSome ↔ ∃ endpoint ∈ endpoints, isValid platform endpoint = true
  usable : ∀ endpoint, choice = some endpoint → endpoint ∈ endpoints ∧ isValid platform endpoint = true
  family : ∀ endpoint receivedEndpoint, choice = some endpoint → receivedOnEndpoint = some receivedEndpoint →
    (∃ ep ∈ endpoints, isValid platform ep = true ∧ familyMatch receivedEndpoint ep = true) →
      familyMatch receivedEndpoint endpoint = true
  otherwise : ∀ endpoint, choice = some endpoint →
    (∀ receivedEndpoint, receivedOnEndpoint = some receivedEndpoint →
      ¬∃ ep ∈ endpoints, isValid platform ep = true ∧ familyMatch receivedEndpoint ep = true) →
        BestKind platform endpoints endpoint

-- The first endpoint of the transport the message arrived on, if any, is valid.
def FamilyValid (platform : Platform) (endpoints : List Endpoint) (receivedOnEndpoint : Option Endpoint) : Prop :=
  ∀ receivedEndpoint endpoint, receivedOnEndpoint = some receivedEndpoint →
    endpoints.find? (familyMatch receivedEndpoint) = some endpoint → isValid platform endpoint = true

def byKinds (platform : Platform) (endpoints : List Endpoint) : Option Endpoint :=
  let first (kind : Endpoint → Bool) := endpoints.find? fun ep => isValid platform ep && kind ep
  (first isBp).or <| (first isTcp).or <| (first isUdp).or <| endpoints.find? (isValid platform)

theorem kinds_cover (endpoint : Endpoint) : isBp endpoint = true ∨ isTcp endpoint = true ∨ isUdp endpoint = true := by
  cases endpoint with
  | udp address => exact .inr (.inr rfl)
  | tcp address => exact .inr (.inl rfl)
  | bp address => exact .inl rfl

theorem byKinds_none : byKinds platform endpoints = none ↔ ∀ endpoint ∈ endpoints, isValid platform endpoint ≠ true := by
  constructor
  · intro missing
    simp only [byKinds,Option.or_eq_none_iff] at missing
    exact List.find?_eq_none.mp missing.2.2.2
  · intro invalid
    have noKind : ∀ kind : Endpoint → Bool, (endpoints.find? fun ep => isValid platform ep && kind ep) = none := by
      intro kind
      apply List.find?_eq_none.mpr
      intro endpoint member both
      exact invalid endpoint member (Bool.and_eq_true_iff.mp both).1
    simp only [byKinds,noKind,Option.none_or]
    exact List.find?_eq_none.mpr invalid

theorem byKinds_best (chosen : byKinds platform endpoints = some endpoint) : BestKind platform endpoints endpoint := by
  simp only [byKinds,Option.or_eq_some_iff] at chosen
  rcases chosen with bp | ⟨noBp,tcp | ⟨noTcp,udp | ⟨noUdp,any⟩⟩⟩
  · exact .inl bp
  · exact .inr ⟨noBp,.inl tcp⟩
  · exact .inr ⟨noBp,.inr ⟨noTcp,udp⟩⟩
  · have member := List.mem_of_find?_eq_some any
    have valid := List.find?_some any
    have covered : ∀ kind : Endpoint → Bool, (endpoints.find? fun ep => isValid platform ep && kind ep) = none →
        kind endpoint ≠ true := by
      intro kind missing same
      exact List.find?_eq_none.mp missing endpoint member (Bool.and_eq_true_iff.mpr ⟨valid,same⟩)
    rcases kinds_cover endpoint with bp | tcp | udp
    · exact absurd bp (covered isBp noBp)
    · exact absurd tcp (covered isTcp noTcp)
    · exact absurd udp (covered isUdp noUdp)

theorem bestKind_usable (best : BestKind platform endpoints endpoint) :
    endpoint ∈ endpoints ∧ isValid platform endpoint = true := by
  have found : ∀ kind : Endpoint → Bool, (endpoints.find? fun ep => isValid platform ep && kind ep) = some endpoint →
      endpoint ∈ endpoints ∧ isValid platform endpoint = true := by
    intro kind here
    have both := List.find?_some here
    exact ⟨List.mem_of_find?_eq_some here,(Bool.and_eq_true_iff.mp both).1⟩
  rcases best with bp | ⟨_,tcp | ⟨_,udp⟩⟩
  · exact found isBp bp
  · exact found isTcp tcp
  · exact found isUdp udp

theorem choose_parts (platform : Platform) (senderPeer : Peer) (receivedOnEndpoint : Option Endpoint) :
    (∃ receivedEndpoint endpoint, receivedOnEndpoint = some receivedEndpoint ∧
      senderPeer.endpoints.find? (familyMatch receivedEndpoint) = some endpoint ∧
      chooseAckEndpoint platform senderPeer receivedOnEndpoint = some endpoint) ∨
    ((∀ receivedEndpoint, receivedOnEndpoint = some receivedEndpoint →
      senderPeer.endpoints.find? (familyMatch receivedEndpoint) = none) ∧
      chooseAckEndpoint platform senderPeer receivedOnEndpoint = byKinds platform senderPeer.endpoints) := by
  cases receivedOnEndpoint with
  | none =>
    refine .inr ⟨?_,rfl⟩
    intro receivedEndpoint given
    cases given
  | some receivedEndpoint =>
    cases found : senderPeer.endpoints.find? (familyMatch receivedEndpoint) with
    | some endpoint =>
      refine .inl ⟨receivedEndpoint,endpoint,rfl,found,?_⟩
      simp only [chooseAckEndpoint,Option.bind_some,found,Option.some_or]
    | none =>
      refine .inr ⟨?_,?_⟩
      · intro other given
        cases given
        exact found
      · simp only [chooseAckEndpoint,byKinds,Option.bind_some,found,Option.none_or]

theorem preferred_family (preferred : Preferred platform senderPeer.endpoints receivedOnEndpoint
    (chooseAckEndpoint platform senderPeer receivedOnEndpoint)) :
    FamilyValid platform senderPeer.endpoints receivedOnEndpoint := by
  intro receivedEndpoint endpoint given found
  rcases choose_parts platform senderPeer receivedOnEndpoint with first | kinds
  · obtain ⟨other,chosenOne,arrived,here,chosen⟩ := first
    rw [given] at arrived
    cases arrived
    rw [found] at here
    cases here
    exact (preferred.usable endpoint chosen).2
  · rw [kinds.1 receivedEndpoint given] at found
    cases found

theorem family_preferred (allValid : FamilyValid platform senderPeer.endpoints receivedOnEndpoint) :
    Preferred platform senderPeer.endpoints receivedOnEndpoint
      (chooseAckEndpoint platform senderPeer receivedOnEndpoint) := by
  rcases choose_parts platform senderPeer receivedOnEndpoint with first | kinds
  · obtain ⟨receivedEndpoint,endpoint,rfl,found,chosen⟩ := first
    have member := List.mem_of_find?_eq_some found
    have same := List.find?_some found
    have valid := allValid receivedEndpoint endpoint rfl found
    rw [chosen]
    refine ⟨⟨fun _ => ⟨endpoint,member,valid⟩,fun _ => rfl⟩,?_,?_,?_⟩
    · intro ep given
      cases given
      exact ⟨member,valid⟩
    · intro ep other given arrived _
      cases given
      cases arrived
      exact same
    · intro ep given unmatched
      exact absurd ⟨endpoint,member,valid,same⟩ (unmatched receivedEndpoint rfl)
  · obtain ⟨noFamily,chosen⟩ := kinds
    rw [chosen]
    refine ⟨?_,?_,?_,?_⟩
    · rw [← not_iff_not,Option.not_isSome_iff_eq_none,byKinds_none]
      simp only [not_exists,not_and]
    · exact fun endpoint given => bestKind_usable (byKinds_best given)
    · intro endpoint receivedEndpoint given arrived available
      obtain ⟨ep,member,_,same⟩ := available
      exact absurd same (List.find?_eq_none.mp (noFamily receivedEndpoint arrived) ep member)
    · exact fun endpoint given _ => byKinds_best given

theorem ack_choice_iff (platform : Platform) (senderPeer : Peer) (receivedOnEndpoint : Option Endpoint) :
    Preferred platform senderPeer.endpoints receivedOnEndpoint (chooseAckEndpoint platform senderPeer receivedOnEndpoint) ↔
      FamilyValid platform senderPeer.endpoints receivedOnEndpoint := ⟨preferred_family,family_preferred⟩

def halfConfigured : Peer := {moon with endpoints := [.bp (ascii "ipn:PLACEHOLDER.1"),.bp (ascii "ipn:20.1")]}

theorem placeholder_chosen :
    chooseAckEndpoint loopback halfConfigured (some (.bp (ascii "ipn:10.1"))) = some (.bp (ascii "ipn:PLACEHOLDER.1")) ∧
    isValid loopback (.bp (ascii "ipn:PLACEHOLDER.1")) = false ∧ isValid loopback (.bp (ascii "ipn:20.1")) = true ∧
    ¬∀ senderPeer receivedOnEndpoint, Preferred loopback senderPeer.endpoints receivedOnEndpoint
      (chooseAckEndpoint loopback senderPeer receivedOnEndpoint) := by
  have chosen : chooseAckEndpoint loopback halfConfigured (some (.bp (ascii "ipn:10.1"))) =
      some (.bp (ascii "ipn:PLACEHOLDER.1")) := by decide +kernel
  have invalid : isValid loopback (.bp (ascii "ipn:PLACEHOLDER.1")) = false := by decide +kernel
  refine ⟨chosen,invalid,by decide +kernel,fun claimed => ?_⟩
  have valid := ((claimed halfConfigured (some (.bp (ascii "ipn:10.1")))).usable _ chosen).2
  rw [invalid] at valid
  cases valid

end DTChat.AckChoice
