import DTChat.Lib.ProtoWire

namespace ProtoRecord
open PrefixReader ProtoWire Utf8Text

-- Values of known fields. A known tag with another wire type is refused.
def varintValue (wire : WireType) : Reader Nat := if wire = .varint then decodeVarint else reject

def bytesValue (wire : WireType) : Reader (List UInt8) :=
  if wire = .lengthDelimited then andThen decodeVarint takeBytes else reject

def checked (value : Option α) : Reader α :=
  match value with
  | none => reject
  | some value => accept value

def stringValue (wire : WireType) : Reader Utf8 :=
  andThen (bytesValue wire) fun raw => checked (Utf8.check raw)

def messageValue (field : FieldReader σ) (s : σ) (wire : WireType) : Reader σ :=
  andThen (bytesValue wire) fun body => checked (field.merge s body)

def onRead (store : α → σ) (value : Reader α) : Reader σ := andThen value fun found => accept (store found)

theorem stable_varintValue (wire : WireType) : Stable (varintValue wire) := by
  unfold varintValue
  split
  · exact stable_decodeVarint
  · exact Stable.reject

theorem stable_bytesValue (wire : WireType) : Stable (bytesValue wire) := by
  unfold bytesValue
  split
  · exact stable_decodeVarint.andThen Stable.takeBytes
  · exact Stable.reject

theorem stable_checked (value : Option α) : Stable (checked value) := by
  cases value with
  | none => exact Stable.reject
  | some value => exact Stable.accept value

theorem stable_stringValue (wire : WireType) : Stable (stringValue wire) :=
  (stable_bytesValue wire).andThen fun _ => stable_checked _

theorem stable_messageValue (field : FieldReader σ) (s : σ) (wire : WireType) :
    Stable (messageValue field s wire) := (stable_bytesValue wire).andThen fun _ => stable_checked _

theorem Stable.onRead {store : α → σ} {value : Reader α} (stable : Stable value) :
    Stable (onRead store value) := stable.andThen fun _ => Stable.accept _

def recordReader (mergeField : σ → Nat → WireType → Reader σ)
    (stable : ∀ s tag wire, Stable (mergeField s tag wire)) : FieldReader σ where
  read s := andThen decodeKey fun key => mergeField s key.1 key.2
  stable s := stable_decodeKey.andThen fun key => stable s key.1 key.2
  starved _ := andThen_none decodeKey_nil

def varintField (tag n : Nat) : List UInt8 := encodeKey tag .varint ++ encodeVarint n
def bytesField (tag : Nat) (body : List UInt8) : List UInt8 :=
  encodeKey tag .lengthDelimited ++ (encodeVarint body.length ++ body)

-- proto3 leaves a field out when it holds its default.
def defaultVarint (tag n : Nat) : List UInt8 := if n = 0 then [] else varintField tag n
def defaultBytes (tag : Nat) (body : List UInt8) : List UInt8 := if body = [] then [] else bytesField tag body
def optionalString (tag : Nat) (text : Option Utf8) : List UInt8 :=
  match text with
  | none => []
  | some text => bytesField tag text.bytes

theorem varintValue_encode (fits : n < 2^64) (tail : List UInt8) :
    varintValue .varint (encodeVarint n ++ tail) = some (n,tail) := decodeVarint_encodeVarint fits tail

theorem bytesValue_encode (fits : body.length < 2^64) (tail : List UInt8) :
    bytesValue .lengthDelimited (encodeVarint body.length ++ body ++ tail) = some (body,tail) := by
  rw [bytesValue,if_pos rfl,List.append_assoc,andThen_some (decodeVarint_encodeVarint fits _),takeBytes_append]

theorem stringValue_encode (text : Utf8) (fits : text.bytes.length < 2^64) (tail : List UInt8) :
    stringValue .lengthDelimited (encodeVarint text.bytes.length ++ text.bytes ++ tail) = some (text,tail) := by
  rw [stringValue,andThen_some (bytesValue_encode fits tail),Utf8.check_bytes]
  rfl

theorem messageValue_encode (field : FieldReader σ) (fits : body.length < 2^64)
    (merged : field.merge s body = some next) (tail : List UInt8) :
    messageValue field s .lengthDelimited (encodeVarint body.length ++ body ++ tail) = some (next,tail) := by
  rw [messageValue,andThen_some (bytesValue_encode fits tail),merged]
  rfl

theorem onRead_some {store : α → σ} {value : Reader α} (read : value bytes = some (found,rest)) :
    onRead store value bytes = some (store found,rest) := by
  rw [onRead,andThen_some read]
  rfl

theorem onRead_inv {store : α → σ} {value : Reader α} (read : onRead store value bytes = some (next,rest)) :
    ∃ found, value bytes = some (found,rest) ∧ next = store found := by
  obtain ⟨⟨found,middle⟩,head,tail⟩ := Option.bind_eq_some_iff.mp read
  cases Option.some.inj tail
  exact ⟨found,head,rfl⟩

theorem checked_inv {value : Option α} (read : checked value bytes = some (found,rest)) :
    value = some found ∧ rest = bytes := by
  cases value with
  | none => cases read
  | some value => cases Option.some.inj read; exact ⟨rfl,rfl⟩

theorem stringValue_inv (read : stringValue wire bytes = some (text,rest)) :
    bytesValue wire bytes = some (text.bytes,rest) := by
  obtain ⟨⟨raw,middle⟩,head,tail⟩ := Option.bind_eq_some_iff.mp read
  obtain ⟨checkedText,rfl⟩ := checked_inv tail
  rw [Utf8.check_some checkedText]
  exact head

theorem messageValue_inv (read : messageValue field s wire bytes = some (next,rest)) :
    ∃ body, bytesValue wire bytes = some (body,rest) ∧ field.merge s body = some next := by
  obtain ⟨⟨body,middle⟩,head,tail⟩ := Option.bind_eq_some_iff.mp read
  obtain ⟨merged,rfl⟩ := checked_inv tail
  exact ⟨body,head,merged⟩

section record
variable {mergeField : σ → Nat → WireType → Reader σ} {stable : ∀ s tag wire, Stable (mergeField s tag wire)}

theorem record_read (positive : 0 < tag) (small : tag < 2^29) (wire : WireType) (payload : List UInt8) :
    (recordReader mergeField stable).read s (encodeKey tag wire ++ payload) = mergeField s tag wire payload := by
  change andThen decodeKey (fun key => mergeField s key.1 key.2) _ = _
  rw [andThen_some (decodeKey_encodeKey positive small wire payload)]

theorem record_unkeyed (unread : decodeKey bytes = none) : (recordReader mergeField stable).read s bytes = none := by
  change andThen decodeKey (fun key => mergeField s key.1 key.2) bytes = none
  exact andThen_none unread

theorem record_inv (read : (recordReader mergeField stable).read s bytes = some (next,rest)) :
    ∃ tag wire middle, decodeKey bytes = some ((tag,wire),middle) ∧
      mergeField s tag wire middle = some (next,rest) := by
  obtain ⟨⟨⟨tag,wire⟩,middle⟩,head,tail⟩ := Option.bind_eq_some_iff.mp read
  exact ⟨tag,wire,middle,head,tail⟩

theorem merge_varintField (store : Nat → σ) (positive : 0 < tag) (small : tag < 2^29) (fits : n < 2^64)
    (merged : ∀ payload, mergeField s tag .varint payload = onRead store (varintValue .varint) payload)
    (rest : List UInt8) : (recordReader mergeField stable).merge s (varintField tag n ++ rest) =
      (recordReader mergeField stable).merge (store n) rest := by
  apply FieldReader.merge_step
  rw [varintField,List.append_assoc,record_read positive small,merged]
  exact onRead_some (varintValue_encode fits rest)

theorem merge_stringField (store : Utf8 → σ) (positive : 0 < tag) (small : tag < 2^29) (text : Utf8) (fits : text.bytes.length < 2^64)
    (merged : ∀ payload, mergeField s tag .lengthDelimited payload = onRead store (stringValue .lengthDelimited) payload)
    (rest : List UInt8) : (recordReader mergeField stable).merge s (bytesField tag text.bytes ++ rest) =
      (recordReader mergeField stable).merge (store text) rest := by
  apply FieldReader.merge_step
  rw [bytesField,List.append_assoc,record_read positive small,merged]
  exact onRead_some (stringValue_encode text fits rest)

theorem merge_bytesField (store : List UInt8 → σ) (positive : 0 < tag) (small : tag < 2^29) (fits : body.length < 2^64)
    (merged : ∀ payload, mergeField s tag .lengthDelimited payload = onRead store (bytesValue .lengthDelimited) payload)
    (rest : List UInt8) : (recordReader mergeField stable).merge s (bytesField tag body ++ rest) =
      (recordReader mergeField stable).merge (store body) rest := by
  apply FieldReader.merge_step
  rw [bytesField,List.append_assoc,record_read positive small,merged]
  exact onRead_some (bytesValue_encode fits rest)

theorem read_messageField (store : τ → σ) (field : FieldReader τ) (positive : 0 < tag) (small : tag < 2^29)
    (fits : body.length < 2^64) (nested : field.merge held body = some value)
    (merged : ∀ payload, mergeField s tag .lengthDelimited payload =
      onRead store (messageValue field held .lengthDelimited) payload) (rest : List UInt8) :
    (recordReader mergeField stable).read s (bytesField tag body ++ rest) = some (store value,rest) := by
  rw [bytesField,List.append_assoc,record_read positive small,merged]
  exact onRead_some (messageValue_encode field fits nested rest)

theorem merge_defaultString (s : σ) (store : Utf8 → σ) (positive : 0 < tag) (small : tag < 2^29) (text : Utf8) (fits : text.bytes.length < 2^64)
    (merged : ∀ payload, mergeField s tag .lengthDelimited payload = onRead store (stringValue .lengthDelimited) payload)
    (unset : store .empty = s) (rest : List UInt8) :
    (recordReader mergeField stable).merge s (defaultBytes tag text.bytes ++ rest) =
      (recordReader mergeField stable).merge (store text) rest := by
  by_cases blank : text.bytes = []
  · have same : text = .empty := Utf8.ext blank
    rw [defaultBytes,if_pos blank,same,unset]
    rfl
  · rw [defaultBytes,if_neg blank]
    exact merge_stringField store positive small text fits merged rest

theorem merge_defaultBytes (s : σ) (store : List UInt8 → σ) (positive : 0 < tag) (small : tag < 2^29) (fits : body.length < 2^64)
    (merged : ∀ payload, mergeField s tag .lengthDelimited payload = onRead store (bytesValue .lengthDelimited) payload)
    (unset : store [] = s) (rest : List UInt8) :
    (recordReader mergeField stable).merge s (defaultBytes tag body ++ rest) =
      (recordReader mergeField stable).merge (store body) rest := by
  by_cases blank : body = []
  · rw [defaultBytes,if_pos blank,blank,unset]
    rfl
  · rw [defaultBytes,if_neg blank]
    exact merge_bytesField store positive small fits merged rest

theorem merge_defaultVarint (s : σ) (store : Nat → σ) (positive : 0 < tag) (small : tag < 2^29) (fits : n < 2^64)
    (merged : ∀ payload, mergeField s tag .varint payload = onRead store (varintValue .varint) payload)
    (unset : store 0 = s) (rest : List UInt8) :
    (recordReader mergeField stable).merge s (defaultVarint tag n ++ rest) =
      (recordReader mergeField stable).merge (store n) rest := by
  by_cases blank : n = 0
  · rw [defaultVarint,if_pos blank,blank,unset]
    rfl
  · rw [defaultVarint,if_neg blank]
    exact merge_varintField store positive small fits merged rest

end record

theorem bytesField_fits (tag : Nat) (body : List UInt8) : body.length ≤ (bytesField tag body).length := by
  simp only [bytesField,List.length_append]; omega

theorem defaultBytes_fits (tag : Nat) (body : List UInt8) : body.length ≤ (defaultBytes tag body).length := by
  unfold defaultBytes
  split
  · rename_i blank; simp [blank]
  · exact bytesField_fits tag body

theorem decodeKey_shortens (read : decodeKey bytes = some (key,rest)) : rest.length + 1 ≤ bytes.length := by
  obtain ⟨used,nonempty,rfl,_⟩ := stable_decodeKey.uses decodeKey_nil read
  have := List.length_pos_iff.mpr nonempty
  rw [List.length_append]
  omega

theorem varintValue_shortest (read : varintValue wire bytes = some (n,rest)) :
    (encodeVarint n).length + rest.length ≤ bytes.length := by
  unfold varintValue at read
  split at read
  · exact decodeVarint_shortest read
  · cases read

theorem varintValue_lt (read : varintValue wire bytes = some (n,rest)) : n < 2^64 := by
  unfold varintValue at read
  split at read
  · exact decodeVarint_lt read
  · cases read

theorem bytesValue_wire (read : bytesValue wire bytes = some (body,rest)) : wire = .lengthDelimited := by
  unfold bytesValue at read
  split at read
  · assumption
  · cases read

theorem bytesValue_shortest (read : bytesValue wire bytes = some (body,rest)) :
    (encodeVarint body.length).length + body.length + rest.length ≤ bytes.length := by
  unfold bytesValue at read
  split at read
  · obtain ⟨⟨count,middle⟩,head,tail⟩ := Option.bind_eq_some_iff.mp read
    have shorter := decodeVarint_shortest head
    simp only [takeBytes] at tail
    split at tail
    · cases tail
    · cases Option.some.inj tail
      have length : (middle.take count).length = count := by simp; omega
      rw [length,List.length_drop]
      omega
  · cases read

end ProtoRecord
