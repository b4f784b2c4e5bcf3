import DTChat.EndpointAddresses

namespace DTChat.IonNodes
open Utf8Text DecimalText PeerMessages EndpointAddresses

theorem dot_ascii : dot < 0x80 := by decide

-- layout/rooms/message_prompt.rs
def extractIonIdFromBpAddress (bpAddress : Utf8) : Utf8 :=
  match bpAddress.stripPrefix (ascii "ipn:") with
  | some afterIpn =>
    match afterIpn.before dot dot_ascii with
    | some ionId => ionId
    | none => bpAddress
  | none => bpAddress

def bpAddress : Endpoint → Option Utf8
  | .bp address => some address
  | .udp _ => none
  | .tcp _ => none

def ionIdOf (peer : Peer) : Utf8 :=
  match peer.endpoints.findSome? bpAddress with
  | some address => extractIonIdFromBpAddress address
  | none => peer.uuid

-- utils/prediction_config.rs
def extractIonNodeFromEndpoint : Endpoint → Option Utf8
  | .bp bpAddress =>
    let whole := if bpAddress.bytes.all isDigit then some bpAddress else some bpAddress
    match bpAddress.stripPrefix (ascii "ipn:") with
    | some afterIpn =>
      match afterIpn.before dot dot_ascii with
      | some node => some node
      | none => whole
    | none => whole
  | .udp _ => none
  | .tcp _ => none

def PlainNode (address : Utf8) : Prop := ∃ node service, IpnText address node service ∧ Canonical node

-- Socket layer, sender and prediction name one node, by its number.
structure OneNode (address : Utf8) (sockaddr : SockAddrBp) : Prop where
  routed : ∀ peer : Peer, peer.endpoints.findSome? bpAddress = some address →
    ionIdOf peer = extractIonIdFromBpAddress address
  predicted : extractIonNodeFromEndpoint (.bp address) = some (extractIonIdFromBpAddress address)
  canonical : (extractIonIdFromBpAddress address).bytes = decimal sockaddr.nodeId.toNat

theorem ion_id_node (ipn : IpnText address node service) : (extractIonIdFromBpAddress address).bytes = node ∧
    extractIonNodeFromEndpoint (.bp address) = some (extractIonIdFromBpAddress address) := by
  have starts : (ascii "ipn:").bytes <+: address.bytes := ⟨_,ipn.bytes.symm⟩
  have body : address.stripPrefix (ascii "ipn:") =
      some ⟨address.bytes.drop (ascii "ipn:").bytes.length,strip_valid starts⟩ := dif_pos starts
  have rest : (⟨address.bytes.drop (ascii "ipn:").bytes.length,strip_valid starts⟩ : Utf8).bytes = node ++ dot :: service := by
    simp only [ipn.bytes,List.drop_left]
  obtain ⟨part,cut,same⟩ := before_first dot_ascii rest (numeral_dot ipn.node)
  simp only [extractIonIdFromBpAddress,extractIonNodeFromEndpoint,body,cut]
  exact ⟨same,trivial⟩

theorem node_number (numeral : Numeral UInt32.size text) :
    (UInt32.ofNat (value (unsigned text))).toNat = value (unsigned text) := UInt32.toNat_ofNat_of_lt' numeral.fits

theorem created_node (created : createBpSockaddrWithString address = .ok sockaddr) :
    ∃ node service, IpnText address node service ∧ sockaddr.nodeId.toNat = value (unsigned node) ∧
      (extractIonIdFromBpAddress address).bytes = node := by
  obtain ⟨node,service,ipn,rfl⟩ := create_parts created
  exact ⟨node,service,ipn,node_number ipn.node,(ion_id_node ipn).1⟩

theorem key_canonical_iff (created : createBpSockaddrWithString address = .ok sockaddr) :
    (extractIonIdFromBpAddress address).bytes = decimal sockaddr.nodeId.toNat ↔ PlainNode address := by
  obtain ⟨node,service,ipn,number,key⟩ := created_node created
  rw [key,number,canonical_iff ipn.node]
  constructor
  · exact fun plain => ⟨node,service,ipn,plain⟩
  · intro plain
    obtain ⟨other,rest,otherIpn,plain⟩ := plain
    rw [← key,(ion_id_node otherIpn).1]
    exact plain

theorem digit_ascii (here : isDigit b = true) : b < 0x80 := by
  have bounds := isDigit_bounds here
  exact UInt8.lt_iff_toNat_lt.mpr (Nat.lt_of_le_of_lt bounds.2 (by decide))

theorem plain_address (n : UInt32) : ∃ other sockaddr, createBpSockaddrWithString other = .ok sockaddr ∧
    PlainNode other ∧ sockaddr.nodeId = n ∧ (extractIonIdFromBpAddress other).bytes = decimal n.toNat := by
  have small : ∀ b ∈ (ascii "ipn:").bytes ++ (decimal n.toNat ++ dot :: decimal 1), b < 0x80 := by
    intro b member
    rcases List.mem_append.mp member with scheme | body
    · exact (by decide +kernel : ∀ b ∈ (ascii "ipn:").bytes, b < 0x80) b scheme
    · rcases List.mem_append.mp body with inNode | tail
      · exact digit_ascii (decimal_digits _ b inNode)
      · rcases List.mem_cons.mp tail with rfl | inService
        · exact dot_ascii
        · exact digit_ascii (decimal_digits _ b inService)
  have numeral : Numeral UInt32.size (decimal n.toNat) := decimal_numeral n.toNat_lt
  have ipn : IpnText ⟨_,ascii_wellFormed _ small⟩ (decimal n.toNat) (decimal 1) := ⟨rfl,numeral,decimal_numeral (by decide)⟩
  refine ⟨_,_,create_ipn ipn,⟨_,_,ipn,decimal_canonical _⟩,?_,(ion_id_node ipn).1⟩
  apply UInt32.toNat_inj.mp
  rw [node_number numeral,decimal_unsigned,value_decimal]

theorem one_node_iff (created : createBpSockaddrWithString address = .ok sockaddr) :
    (OneNode address sockaddr ↔ PlainNode address) ∧
    ((∀ other otherAddr, createBpSockaddrWithString other = .ok otherAddr → PlainNode other →
      (otherAddr.nodeId = sockaddr.nodeId ↔ extractIonIdFromBpAddress other = extractIonIdFromBpAddress address)) ↔
        PlainNode address) := by
  obtain ⟨node,service,ipn,number,key⟩ := created_node created
  refine ⟨?_,?_⟩
  · constructor
    · exact fun one => (key_canonical_iff created).mp one.canonical
    · intro plain
      refine ⟨?_,(ion_id_node ipn).2,(key_canonical_iff created).mpr plain⟩
      intro peer first
      rw [ionIdOf,first]
  · constructor
    · intro shared
      obtain ⟨other,otherAddr,createdOther,plain,same,otherKey⟩ := plain_address sockaddr.nodeId
      apply (key_canonical_iff created).mp
      rw [← (shared other otherAddr createdOther plain).mp same,otherKey]
    · intro plain other otherAddr createdOther plainOther
      have here := (key_canonical_iff created).mpr plain
      have there := (key_canonical_iff createdOther).mpr plainOther
      constructor
      · intro same
        apply Utf8.ext
        rw [here,there,same]
      · intro same
        rw [same,here] at there
        have numbers := congrArg value there
        rw [value_decimal,value_decimal] at numbers
        exact (UInt32.toNat_inj.mp numbers).symm

def earthEid : Utf8 := ascii "ipn:10.2"

theorem earthEid_created : createBpSockaddrWithString earthEid = .ok ⟨afBp,bpSchemeIpn,10,2⟩ := rfl

theorem earthEid_plain : PlainNode earthEid :=
  ⟨decimal 10,decimal 2,⟨by decide +kernel,decimal_numeral (by decide),decimal_numeral (by decide)⟩,decimal_canonical 10⟩

theorem one_node_iff_earth : OneNode earthEid ⟨afBp,bpSchemeIpn,10,2⟩ := (one_node_iff earthEid_created).1.mpr earthEid_plain

def paddedEid : Utf8 := ascii "ipn:010.2"

theorem padded_differs : createBpSockaddrWithString paddedEid = .ok ⟨afBp,bpSchemeIpn,10,2⟩ ∧
    createBpSockaddrWithString earthEid = .ok ⟨afBp,bpSchemeIpn,10,2⟩ ∧
    extractIonIdFromBpAddress paddedEid = ascii "010" ∧ extractIonIdFromBpAddress earthEid = ascii "10" ∧
    ¬∀ address sockaddr, createBpSockaddrWithString address = .ok sockaddr → OneNode address sockaddr := by
  have created : createBpSockaddrWithString paddedEid = .ok ⟨afBp,bpSchemeIpn,10,2⟩ := rfl
  have key : extractIonIdFromBpAddress paddedEid = ascii "010" := by decide +kernel
  refine ⟨created,earthEid_created,key,by decide +kernel,fun claimed => ?_⟩
  have canonical := (claimed paddedEid _ created).canonical
  rw [key] at canonical
  have plain := decimal_canonical (10 : UInt32).toNat
  rw [← canonical] at plain
  exact absurd plain (by decide +kernel)

end DTChat.IonNodes
