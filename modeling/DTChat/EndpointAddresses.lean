import DTChat.NodeRun
import DTChat.Lib.TextParts
import DTChat.Lib.DecimalText

namespace DTChat.EndpointAddresses
open Utf8Text DecimalText PeerMessages SocketControllers NodeRun

inductive ErrorKind where
  | invalidInput
  | unsupported
  deriving DecidableEq

structure IoError where
  kind : ErrorKind
  text : Utf8
  deriving DecidableEq

structure SockAddrBp where
  bpFamily : UInt16
  bpScheme : UInt32
  nodeId : UInt32
  serviceId : UInt32
  deriving DecidableEq

def afBp : UInt16 := 28
def bpSchemeIpn : UInt32 := 1
def dot : UInt8 := 46

def parseU32 (text : List UInt8) : Option UInt32 := (parseUnsigned UInt32.size text).map UInt32.ofNat

def invalidInput (text : Utf8) : IoError := ⟨.invalidInput,text⟩

def createBpSockaddrWithString (eidString : Utf8) : Except IoError SockAddrBp :=
  if eidString.bytes = [] then .error (invalidInput (ascii "EID string cannot be empty"))
  else match eidString.stripPrefix (ascii "ipn:") with
    | some eidBody =>
      match eidBody.bytes.splitOn dot with
      | [node,service] =>
        match parseU32 node with
        | none => .error (invalidInput (ascii "Invalid node ID"))
        | some nodeId =>
          match parseU32 service with
          | none => .error (invalidInput (ascii "Invalid service ID"))
          | some serviceId => .ok ⟨afBp,bpSchemeIpn,nodeId,serviceId⟩
      | _ => .error (invalidInput ((ascii "Invalid IPN EID format: ").append eidString))
    | none =>
      if eidString.startsWith (ascii "dtn:") then .error ⟨.unsupported,ascii "DTN scheme not yet implemented"⟩
      else .error (invalidInput ((ascii "Unsupported scheme in EID: ").append eidString))

-- The address of `GenericSocket::new`; `inet` is what std parsed.
inductive SockAddr where
  | inet (address : Utf8)
  | bp (address : SockAddrBp)
  deriving DecidableEq

inductive AddressError where
  | addrParse
  | io (error : IoError)
  deriving DecidableEq

def inetAddress (platform : Platform) (address : Utf8) : Except AddressError SockAddr :=
  if platform.parses address then .ok (.inet address) else .error .addrParse

def socketAddress (platform : Platform) : Endpoint → Except AddressError SockAddr
  | .udp address => inetAddress platform address
  | .tcp address => inetAddress platform address
  | .bp address =>
    match createBpSockaddrWithString address with
    | .ok sockaddr => .ok (.bp sockaddr)
    | .error error => .error (.io error)

-- ipn:<node>.<service>, both of them u32 numerals
structure IpnText (address : Utf8) (node service : List UInt8) : Prop where
  bytes : address.bytes = (ascii "ipn:").bytes ++ (node ++ dot :: service)
  node : Numeral UInt32.size node
  service : Numeral UInt32.size service

theorem numeral_dot (numeral : Numeral limit text) : dot ∉ text := by
  intro member
  rcases numeral_byte numeral member with sign | digit
  · exact absurd sign (by decide)
  · exact absurd digit (by decide)

theorem parseU32_iff : parseU32 text = some n ↔ Numeral UInt32.size text ∧ n = UInt32.ofNat (value (unsigned text)) := by
  unfold parseU32
  rw [Option.map_eq_some_iff]
  constructor
  · intro parsed
    obtain ⟨read,here,rfl⟩ := parsed
    obtain ⟨numeral,rfl⟩ := (parseUnsigned_iff (by decide)).mp here
    exact ⟨numeral,rfl⟩
  · intro parts
    obtain ⟨numeral,rfl⟩ := parts
    exact ⟨_,(parseUnsigned_iff (by decide)).mpr ⟨numeral,rfl⟩,rfl⟩

theorem create_parts (created : createBpSockaddrWithString address = .ok sockaddr) :
    ∃ node service, IpnText address node service ∧
      sockaddr = ⟨afBp,bpSchemeIpn,UInt32.ofNat (value (unsigned node)),UInt32.ofNat (value (unsigned service))⟩ := by
  unfold createBpSockaddrWithString at created
  split at created
  · cases created
  · split at created
    · rename_i eidBody stripped
      split at created
      · rename_i node service parts
        split at created
        · cases created
        · rename_i nodeId nodeRead
          split at created
          · cases created
          · rename_i serviceId serviceRead
            cases created
            obtain ⟨nodeNumeral,rfl⟩ := parseU32_iff.mp nodeRead
            obtain ⟨serviceNumeral,rfl⟩ := parseU32_iff.mp serviceRead
            have joined : [dot].intercalate (eidBody.bytes.splitOn dot) = eidBody.bytes := List.intercalate_splitOn dot
            rw [parts] at joined
            refine ⟨node,service,⟨?_,nodeNumeral,serviceNumeral⟩,rfl⟩
            rw [stripPrefix_iff.mp stripped,← joined]
            simp [List.intercalate]
      · cases created
    · split at created <;> cases created

theorem create_ipn (ipn : IpnText address node service) : createBpSockaddrWithString address =
    .ok ⟨afBp,bpSchemeIpn,UInt32.ofNat (value (unsigned node)),UInt32.ofNat (value (unsigned service))⟩ := by
  have starts : (ascii "ipn:").bytes <+: address.bytes := ⟨_,ipn.bytes.symm⟩
  have body : address.stripPrefix (ascii "ipn:") =
      some ⟨address.bytes.drop (ascii "ipn:").bytes.length,strip_valid starts⟩ := dif_pos starts
  have nonempty : address.bytes ≠ [] := by
    rw [ipn.bytes]
    exact List.append_ne_nil_of_left_ne_nil (by decide +kernel) _
  have parts : (address.bytes.drop (ascii "ipn:").bytes.length).splitOn dot = [node,service] := by
    rw [ipn.bytes,List.drop_left,List.splitOn_append_cons_self_of_not_mem (numeral_dot ipn.node),
      List.splitOn_eq_singleton (numeral_dot ipn.service)]
  have nodeRead := parseU32_iff.mpr ⟨ipn.node,rfl⟩
  have serviceRead := parseU32_iff.mpr ⟨ipn.service,rfl⟩
  simp only [createBpSockaddrWithString,nonempty,body,parts,nodeRead,serviceRead,↓reduceIte]

theorem contains_member (found : Utf8.contains text part = true) : ∀ b ∈ part.bytes, b ∈ text.bytes := by
  intro b member
  obtain ⟨tail,inside,starts⟩ := List.any_eq_true.mp found
  have here := (List.isPrefixOf_iff_prefix.mp starts).subset member
  exact ((List.mem_tails _ _).mp inside).subset here

theorem ipn_starts (ipn : IpnText address node service) : address.startsWith (ascii "ipn:") = true := by
  apply List.isPrefixOf_iff_prefix.mpr
  exact ⟨_,ipn.bytes.symm⟩

theorem ipn_placeholder (ipn : IpnText address node service) : Utf8.contains address (ascii "PLACEHOLDER") = false := by
  cases found : Utf8.contains address (ascii "PLACEHOLDER") with
  | false => rfl
  | true =>
    have member := contains_member found 80 (by decide +kernel)
    rw [ipn.bytes] at member
    have numeral : ∀ {text}, Numeral UInt32.size text → (80 : UInt8) ∉ text := by
      intro text numeral inside
      rcases numeral_byte numeral inside with sign | digit
      · exact absurd sign (by decide)
      · exact absurd digit (by decide)
    rcases List.mem_append.mp member with scheme | body
    · exact absurd scheme (by decide +kernel)
    · rcases List.mem_append.mp body with inNode | tail
      · exact absurd inNode (numeral ipn.node)
      · rcases List.mem_cons.mp tail with same | inService
        · exact absurd same (by decide)
        · exact absurd inService (numeral ipn.service)

theorem ipn_valid (platform : Platform) (ipn : IpnText address node service) : isValid platform (.bp address) = true := by
  have nonempty : address.bytes.isEmpty = false := by
    rw [ipn.bytes,List.isEmpty_eq_false_iff]
    exact List.append_ne_nil_of_left_ne_nil (by decide +kernel) _
  simp only [isValid,ipn_placeholder ipn,nonempty,ipn_starts ipn,Bool.not_false,Bool.true_or,Bool.and_self]

def Agreed : Endpoint → Prop
  | .udp _ => True
  | .tcp _ => True
  | .bp address => Utf8.contains address (ascii "PLACEHOLDER") = true ∨
      (address.startsWith (ascii "ipn:") = false ∧ address.startsWith (ascii "dtn:") = false) ∨
      ∃ node service, IpnText address node service

theorem bp_valid_iff (platform : Platform) (address : Utf8) : isValid platform (.bp address) = true ↔
    Utf8.contains address (ascii "PLACEHOLDER") = false ∧
      (address.startsWith (ascii "ipn:") = true ∨ address.startsWith (ascii "dtn:") = true) := by
  simp only [isValid,Bool.and_eq_true,Bool.or_eq_true,Bool.not_eq_true']
  constructor
  · intro valid
    exact ⟨valid.1.1,valid.2⟩
  · intro parts
    refine ⟨⟨parts.1,?_⟩,parts.2⟩
    apply List.isEmpty_eq_false_iff.mpr
    intro empty
    have prefixes : ∀ start : Utf8, address.startsWith start = true → start.bytes = [] := by
      intro start starts
      unfold Utf8.startsWith at starts
      rw [empty] at starts
      exact List.prefix_nil.mp (List.isPrefixOf_iff_prefix.mp starts)
    rcases parts.2 with ipn | dtn
    · exact absurd (prefixes _ ipn) (by decide +kernel)
    · exact absurd (prefixes _ dtn) (by decide +kernel)

theorem bp_built_iff (platform : Platform) (address : Utf8) :
    (∃ sockaddr, socketAddress platform (.bp address) = .ok sockaddr) ↔ ∃ node service, IpnText address node service := by
  constructor
  · intro built
    obtain ⟨sockaddr,built⟩ := built
    simp only [socketAddress] at built
    split at built
    · rename_i bp created
      obtain ⟨node,service,ipn,_⟩ := create_parts created
      exact ⟨node,service,ipn⟩
    · cases built
  · intro ipn
    obtain ⟨node,service,ipn⟩ := ipn
    refine ⟨.bp ⟨afBp,bpSchemeIpn,UInt32.ofNat (value (unsigned node)),UInt32.ofNat (value (unsigned service))⟩,?_⟩
    simp only [socketAddress,create_ipn ipn]

theorem inet_built_iff (platform : Platform) (address : Utf8) :
    (∃ sockaddr, inetAddress platform address = .ok sockaddr) ↔ platform.parses address = true := by
  unfold inetAddress
  cases platform.parses address <;> simp

theorem valid_built_iff (platform : Platform) (endpoint : Endpoint) :
    (isValid platform endpoint = true ↔ ∃ sockaddr, socketAddress platform endpoint = .ok sockaddr) ↔ Agreed endpoint := by
  cases endpoint with
  | udp address => exact ⟨fun _ => trivial,fun _ => (inet_built_iff platform address).symm⟩
  | tcp address => exact ⟨fun _ => trivial,fun _ => (inet_built_iff platform address).symm⟩
  | bp address =>
    rw [bp_built_iff,bp_valid_iff]
    constructor
    · intro agree
      by_cases valid : Utf8.contains address (ascii "PLACEHOLDER") = false ∧
          (address.startsWith (ascii "ipn:") = true ∨ address.startsWith (ascii "dtn:") = true)
      · exact .inr (.inr (agree.mp valid))
      · cases placeholder : Utf8.contains address (ascii "PLACEHOLDER") with
        | true => exact .inl placeholder
        | false =>
          have scheme := fun starts => valid ⟨placeholder,starts⟩
          refine .inr (.inl ⟨?_,?_⟩)
          · exact Bool.eq_false_iff.mpr fun ipn => scheme (.inl ipn)
          · exact Bool.eq_false_iff.mpr fun dtn => scheme (.inr dtn)
    · intro agreed
      constructor
      · intro valid
        obtain ⟨clean,scheme⟩ := valid
        rcases agreed with placeholder | unknown | ipn
        · rw [clean] at placeholder
          cases placeholder
        · rcases scheme with starts | starts
          · rw [unknown.1] at starts
            cases starts
          · rw [unknown.2] at starts
            cases starts
        · exact ipn
      · intro ipn
        obtain ⟨node,service,ipn⟩ := ipn
        exact (bp_valid_iff platform address).mp (ipn_valid platform ipn)

theorem bare_node_valid : isValid loopback (.bp (ascii "ipn:10")) = true ∧
    socketAddress loopback (.bp (ascii "ipn:10")) =
      .error (.io ⟨.invalidInput,ascii "Invalid IPN EID format: ipn:10"⟩) ∧
    ¬∀ endpoint, isValid loopback endpoint = true ↔ ∃ sockaddr, socketAddress loopback endpoint = .ok sockaddr := by
  have valid : isValid loopback (.bp (ascii "ipn:10")) = true := by decide +kernel
  have refused : socketAddress loopback (.bp (ascii "ipn:10")) =
      .error (.io ⟨.invalidInput,ascii "Invalid IPN EID format: ipn:10"⟩) := by rfl
  refine ⟨valid,refused,fun claimed => ?_⟩
  obtain ⟨sockaddr,built⟩ := (claimed (.bp (ascii "ipn:10"))).mp valid
  rw [refused] at built
  cases built

end DTChat.EndpointAddresses
