import DTChat.ProtoRoundTrip

namespace DTChat.ProtoMessages
open PrefixReader ProtoWire ProtoRecord Utf8Text

-- No reading is longer than the bytes it was read from: each field stored needs
-- at most the bytes its reading used.
theorem key_length (small : tag < 15) (wire : WireType) : (encodeKey tag wire).length = 1 := by
  have code := wire.number_lt
  rw [encodeKey,encodeVarint,varintBytes,if_pos (by omega)]
  rfl

theorem bytesField_weight (small : tag < 15) (key : decodeKey bytes = some (head,middle))
    (read : bytesValue wire middle = some (body,rest)) :
    (bytesField tag body).length + rest.length ≤ bytes.length := by
  have first := decodeKey_shortens key
  have second := bytesValue_shortest read
  simp only [bytesField,List.length_append,key_length small]
  omega

theorem defaultBytes_weight (small : tag < 15) (key : decodeKey bytes = some (head,middle))
    (read : bytesValue wire middle = some (body,rest)) :
    (defaultBytes tag body).length + rest.length ≤ bytes.length := by
  have stored := bytesField_weight small key read
  unfold defaultBytes
  split
  · rw [List.length_nil]; omega
  · exact stored

theorem defaultVarint_weight (small : tag < 15) (key : decodeKey bytes = some (head,middle))
    (read : varintValue wire middle = some (n,rest)) :
    (defaultVarint tag n).length + rest.length ≤ bytes.length := by
  have first := decodeKey_shortens key
  have second := varintValue_shortest read
  unfold defaultVarint
  split
  · rw [List.length_nil]; omega
  · simp only [varintField,List.length_append,key_length small]
    omega

theorem skipField_shortens (key : decodeKey bytes = some (head,middle))
    (read : skipField limit tag wire middle = some (done,rest)) : rest.length ≤ bytes.length := by
  have first := decodeKey_shortens key
  obtain ⟨used,rfl,_⟩ := stable_skipField limit tag wire _ _ _ read
  rw [List.length_append] at first
  omega

theorem TextMessage.weight_field {m next : TextMessage} (read : TextMessage.reader.read m bytes = some (next,rest)) :
    next.encode.length + rest.length ≤ m.encode.length + bytes.length := by
  obtain ⟨tag,wire,middle,key,field⟩ := record_inv read
  unfold TextMessage.mergeField at field
  split at field
  all_goals obtain ⟨found,value,rfl⟩ := onRead_inv field
  · have stored := defaultBytes_weight (by decide : 1 < 15) key (stringValue_inv value)
    simp only [encode,List.length_append]
    omega
  · have stored := bytesField_weight (by decide : 2 < 15) key (stringValue_inv value)
    simp only [encode,optionalString,List.length_append]
    omega
  · have shorter := skipField_shortens key value
    omega

def textWeight : Option Content → Nat
  | some (.text message) => (bytesField 5 message.encode).length
  | _ => 0

theorem textOf_weight (content : Option Content) (body : List UInt8) {next : TextMessage}
    (grown : next.encode.length ≤ (Content.textOf content).encode.length + body.length) :
    (bytesField 5 next.encode).length ≤ textWeight content + (bytesField 5 body).length := by
  have shorter := varintBytes_mono 10 grown
  have split := encodeVarint_add (Content.textOf content).encode.length body.length
  simp only [encodeVarint] at split
  unfold Content.textOf textWeight at *
  split at grown
  · simp only [bytesField,encodeVarint,List.length_append] at *
    omega
  · rename_i other
    have blank : TextMessage.default.encode.length = 0 := rfl
    rw [blank,Nat.zero_add] at grown
    have fewer := varintBytes_mono 10 grown
    simp only [bytesField,encodeVarint,List.length_append]
    omega

theorem int64_read (fits : n < 2^64) : (Int64.ofNat n).toUInt64.toNat = n := by
  change (BitVec.ofNat 64 n).toNat = n
  rw [BitVec.toNat_ofNat,Nat.mod_eq_of_lt fits]

namespace ProtoMessage

def bodyWeight (m : ProtoMessage) : Nat :=
  (defaultBytes 1 m.uuid.bytes).length + (defaultBytes 2 m.senderUuid.bytes).length + textWeight m.content

def stampWeight (m : ProtoMessage) : Nat :=
  (defaultVarint 3 m.timestamp.toUInt64.toNat).length + (defaultBytes 4 m.roomUuid.bytes).length

theorem weight_field {m next : ProtoMessage} (read : reader.read m bytes = some (next,rest)) :
    next.bodyWeight + rest.length ≤ m.bodyWeight + bytes.length ∧
    next.bodyWeight + next.stampWeight + rest.length ≤ m.bodyWeight + m.stampWeight + bytes.length := by
  obtain ⟨tag,wire,middle,key,field⟩ := record_inv read
  unfold mergeField at field
  split at field
  all_goals obtain ⟨found,value,rfl⟩ := onRead_inv field
  · have stored := defaultBytes_weight (by decide : 1 < 15) key (stringValue_inv value)
    simp only [bodyWeight,stampWeight]
    constructor <;> omega
  · have stored := defaultBytes_weight (by decide : 2 < 15) key (stringValue_inv value)
    simp only [bodyWeight,stampWeight]
    constructor <;> omega
  · have stored := defaultVarint_weight (by decide : 3 < 15) key value
    simp only [bodyWeight,stampWeight,int64_read (varintValue_lt value)]
    constructor <;> omega
  · have stored := defaultBytes_weight (by decide : 4 < 15) key (stringValue_inv value)
    simp only [bodyWeight,stampWeight]
    constructor <;> omega
  · obtain ⟨body,inside,nested⟩ := messageValue_inv value
    have grown := TextMessage.reader.merge_measure (fun s => s.encode.length) (fun _ _ _ _ => TextMessage.weight_field) nested
    have text := textOf_weight m.content body grown
    have stored := bytesField_weight (by decide : 5 < 15) key inside
    simp only [bodyWeight,stampWeight]
    simp only [textWeight] at text ⊢
    constructor <;> omega
  · obtain ⟨body,inside,_⟩ := messageValue_inv value
    have stored := bytesField_weight (by decide : 6 < 15) key inside
    simp only [bodyWeight,stampWeight,textWeight]
    constructor <;> omega
  · obtain ⟨body,inside,_⟩ := messageValue_inv value
    have stored := bytesField_weight (by decide : 6 < 15) key inside
    simp only [bodyWeight,stampWeight,textWeight]
    constructor <;> omega
  · obtain ⟨body,inside,_⟩ := messageValue_inv value
    have stored := bytesField_weight (by decide : 6 < 15) key inside
    simp only [bodyWeight,stampWeight,textWeight]
    constructor <;> omega
  · have shorter := skipField_shortens key value
    constructor <;> omega

theorem decode_weight {m : ProtoMessage} (decoded : decode bytes = some m) :
    m.bodyWeight + m.stampWeight ≤ bytes.length := by
  have bound := reader.merge_measure (fun s => s.bodyWeight + s.stampWeight)
    (fun _ _ _ _ read => (weight_field read).2) decoded
  rwa [show default.bodyWeight + default.stampWeight = 0 from rfl,Nat.zero_add] at bound

theorem merge_bodyWeight {m last : ProtoMessage} (merged : reader.merge m bytes = some last) :
    last.bodyWeight ≤ m.bodyWeight + bytes.length :=
  reader.merge_measure bodyWeight (fun _ _ _ _ read => (weight_field read).1) merged

theorem encode_weight {m : ProtoMessage} (text : m.content = some (.text message)) :
    m.encode.length = m.bodyWeight + m.stampWeight := by
  simp only [encode,header,bodyWeight,stampWeight,text,encodeContent,Content.encode,textWeight,List.length_append]
  omega

theorem body_untouched {m next : ProtoMessage} (read : reader.read m (b :: bytes) = some (next,rest))
    (other : b.toNat%64 ≠ 10 ∧ b.toNat%64 ≠ 18 ∧ b.toNat%64 ≠ 42) : next.bodyWeight ≤ m.bodyWeight := by
  obtain ⟨tag,wire,middle,key,field⟩ := record_inv read
  obtain ⟨code,varint,number,same⟩ := decodeKey_inv key
  have low := decodeVarint_low varint
  have type := WireType.number_of number
  have stringKey : wire = .lengthDelimited → tag ≠ 1 ∧ tag ≠ 2 ∧ tag ≠ 5 := by
    rintro rfl
    simp only [WireType.number] at type
    omega
  unfold mergeField at field
  split at field
  all_goals obtain ⟨found,value,rfl⟩ := onRead_inv field
  · exact absurd rfl (stringKey (bytesValue_wire (stringValue_inv value))).1
  · exact absurd rfl (stringKey (bytesValue_wire (stringValue_inv value))).2.1
  · exact Nat.le_refl _
  · exact Nat.le_refl _
  · obtain ⟨body,inside,_⟩ := messageValue_inv value
    exact absurd rfl (stringKey (bytesValue_wire inside)).2.2
  · simp [bodyWeight,textWeight]
  · simp [bodyWeight,textWeight]
  · simp [bodyWeight,textWeight]
  · exact Nat.le_refl _

theorem merge_bodyWeight_after {m last : ProtoMessage} (front back : List UInt8)
    (other : ∀ b ∈ front, b.toNat%64 ≠ 10 ∧ b.toNat%64 ≠ 18 ∧ b.toNat%64 ≠ 42)
    (merged : reader.merge m (front ++ back) = some last) : last.bodyWeight ≤ m.bodyWeight + back.length := by
  induction length : front.length using Nat.strongRecOn generalizing m front with
  | ind count ih =>
    cases front with
    | nil => exact merge_bodyWeight merged
    | cons b more =>
      obtain ⟨next,rest,read,shorter,later⟩ := reader.merge_cases (by simp) merged
      have same := body_untouched read (other b (by simp))
      obtain ⟨used,nonempty,split,_⟩ := (reader.stable m).uses (reader.starved m) read
      rcases List.append_eq_append_iff.mp split with ⟨part,_,tail⟩ | ⟨part,inside,tail⟩
      · have bound := merge_bodyWeight later
        rw [tail,List.length_append]
        omega
      · rw [tail] at later
        have positive := List.length_pos_iff.mpr nonempty
        have fewer : part.length < count := by rw [← length,inside,List.length_append]; omega
        have bound := ih part.length fewer part
          (fun c member => other c (by rw [inside]; exact List.mem_append_right _ member)) later rfl
        omega

end ProtoMessage
end DTChat.ProtoMessages
