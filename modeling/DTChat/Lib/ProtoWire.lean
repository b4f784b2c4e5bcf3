import DTChat.Lib.PrefixReader
import DTChat.Lib.Utf8Text

namespace ProtoWire
open PrefixReader Utf8Text

-- Base-128 varints of a `u64`: at most ten bytes, the tenth at most 1.
def varintBytes : Nat → Nat → List UInt8
  | 0,_ => []
  | more+1,n =>
    if n < 128 then [UInt8.ofNat n] else UInt8.ofNat (n%128+128) :: varintBytes more (n/128)

def encodeVarint (n : Nat) : List UInt8 := varintBytes 10 n

def varintFrom : Nat → Reader Nat
  | 0,_ => none
  | _+1,[] => none
  | more+1,b :: rest =>
    if b.toNat < 128 then if more = 0 ∧ 2 ≤ b.toNat then none else some (b.toNat,rest)
    else (varintFrom more rest).map fun read => (b.toNat-128+128*read.1,read.2)

def decodeVarint : Reader Nat := varintFrom 10

theorem varintFrom_varintBytes (more n : Nat) (fits : n < 2*128^more) (tail : List UInt8) :
    varintFrom (more+1) (varintBytes (more+1) n ++ tail) = some (n,tail) := by
  induction more generalizing n with
  | zero =>
    have small : n < 2 := by simpa using fits
    have byte : (UInt8.ofNat n).toNat = n := by simp; omega
    simp only [varintBytes,show n < 128 by omega,↓reduceIte,List.singleton_append,varintFrom,byte]
    rw [if_neg (by omega)]
  | succ more ih =>
    by_cases last : n < 128
    · have byte : (UInt8.ofNat n).toNat = n := by simp; omega
      simp [varintBytes,varintFrom,last,byte]
    · have byte : (UInt8.ofNat (n%128+128)).toNat = n%128+128 := by simp; omega
      have rest := ih (n/128) (by rw [Nat.pow_succ] at fits; omega)
      rw [varintBytes,if_neg last,List.cons_append,varintFrom,byte,if_neg (by omega),rest]
      simp only [Option.map_some,Option.some.injEq,Prod.mk.injEq,and_true]
      omega

theorem decodeVarint_encodeVarint (fits : n < 2^64) (tail : List UInt8) :
    decodeVarint (encodeVarint n ++ tail) = some (n,tail) :=
  varintFrom_varintBytes 9 n (by simpa using fits) tail

theorem stable_varintFrom (more : Nat) : Stable (varintFrom more) := by
  induction more with
  | zero => intro bytes value rest read; cases read
  | succ more ih =>
    intro bytes value rest read
    cases bytes with
    | nil => cases read
    | cons b later =>
      rw [varintFrom] at read
      by_cases last : b.toNat < 128
      · rw [if_pos last] at read
        split at read
        · cases read
        · rename_i allowed
          cases Option.some.inj read
          exact ⟨[b],rfl,fun tail => by simp [varintFrom,last,allowed]⟩
      · rw [if_neg last] at read
        obtain ⟨⟨high,after⟩,inner,same⟩ := Option.map_eq_some_iff.mp read
        cases same
        obtain ⟨used,rfl,again⟩ := ih _ _ _ inner
        exact ⟨b :: used,rfl,fun tail => by simp [varintFrom,last,again]⟩

theorem stable_decodeVarint : Stable decodeVarint := stable_varintFrom 10

theorem varintFrom_lt (read : varintFrom (more+1) bytes = some (n,rest)) : n < 2*128^more := by
  induction more generalizing bytes n rest with
  | zero =>
    cases bytes with
    | nil => cases read
    | cons b later =>
      rw [varintFrom] at read
      split at read
      · split at read
        · cases read
        · cases Option.some.inj read; simp at *; omega
      · cases read
  | succ more ih =>
    have positive : 0 < 128^more := Nat.pow_pos (by decide)
    cases bytes with
    | nil => cases read
    | cons b later =>
      have byte := b.toNat_lt
      rw [varintFrom] at read
      rw [Nat.pow_succ]
      split at read
      · split at read
        · cases read
        · cases Option.some.inj read; omega
      · obtain ⟨⟨high,after⟩,inner,same⟩ := Option.map_eq_some_iff.mp read
        cases same
        have bound := ih inner
        simp only
        omega

theorem decodeVarint_lt (read : decodeVarint bytes = some (n,rest)) : n < 2^64 := by
  have bound := @varintFrom_lt 9 _ _ _ read
  simpa using bound

theorem varintFrom_open (more : Nat) (bytes : List UInt8) (continued : ∀ b ∈ bytes.take more, 128 ≤ b.toNat) :
    varintFrom more bytes = none := by
  induction more generalizing bytes with
  | zero => rfl
  | succ more ih =>
    cases bytes with
    | nil => rfl
    | cons b rest =>
      simp only [List.take_succ_cons,List.mem_cons,forall_eq_or_imp] at continued
      rw [varintFrom,if_neg (by omega),ih rest continued.2,Option.map_none]

theorem varintFrom_shortest (read : varintFrom (more+1) bytes = some (n,rest)) :
    (varintBytes (more+1) n).length + rest.length ≤ bytes.length := by
  induction more generalizing bytes n rest with
  | zero =>
    cases bytes with
    | nil => cases read
    | cons b later =>
      rw [varintFrom] at read
      split at read
      · split at read
        · cases read
        · cases Option.some.inj read
          simp only [varintBytes]
          split <;> simp <;> omega
      · cases read
  | succ more ih =>
    cases bytes with
    | nil => cases read
    | cons b later =>
      have byte := b.toNat_lt
      rw [varintFrom] at read
      split at read
      · rename_i small
        split at read
        · cases read
        · cases Option.some.inj read
          rw [varintBytes,if_pos small]
          simp; omega
      · rename_i large
        obtain ⟨⟨high,after⟩,inner,same⟩ := Option.map_eq_some_iff.mp read
        cases same
        have shorter := ih inner
        rw [varintBytes]
        split
        · have positive : 0 < (varintBytes (more+1) high).length := by rw [varintBytes]; split <;> simp
          simp only [List.length_cons,List.length_nil] at shorter ⊢
          omega
        · have quotient : (b.toNat-128+128*high)/128 = high := by omega
          simp only [List.length_cons,quotient]
          omega

theorem decodeVarint_shortest (read : decodeVarint bytes = some (n,rest)) :
    (encodeVarint n).length + rest.length ≤ bytes.length := varintFrom_shortest read

theorem encodeVarint_positive (n : Nat) : 0 < (encodeVarint n).length := by
  rw [encodeVarint,varintBytes]; split <;> simp

theorem varintBytes_mono (more : Nat) (order : m ≤ n) :
    (varintBytes more m).length ≤ (varintBytes more n).length := by
  induction more generalizing m n with
  | zero => simp [varintBytes]
  | succ more ih =>
    rw [varintBytes,varintBytes]
    have later := ih (Nat.div_le_div_right (c := 128) order)
    by_cases small : m < 128
    · by_cases other : n < 128 <;> simp [small,other]
    · simp [small,show ¬n < 128 by omega,later]

theorem varintBytes_more (more n : Nat) : (varintBytes more n).length ≤ (varintBytes (more+1) n).length := by
  induction more generalizing n with
  | zero => simp [varintBytes]
  | succ more ih =>
    rw [varintBytes,varintBytes]
    split
    · exact Nat.le_refl _
    · simp only [List.length_cons]
      exact Nat.succ_le_succ (ih _)

theorem varintBytes_length (more : Nat) (fits : n < 128^(more+1)) :
    (varintBytes (more+1) n).length = Nat.log 128 n+1 := by
  induction more generalizing n with
  | zero =>
    have last : n < 128 := by simpa using fits
    rw [varintBytes,if_pos last,Nat.log_of_lt last]
    rfl
  | succ more ih =>
    rw [varintBytes]
    split
    · rename_i last
      rw [Nat.log_of_lt last]
      rfl
    · rename_i long
      have positive : 0 < Nat.log 128 n := Nat.log_pos (by decide) (Nat.le_of_not_lt long)
      have rest := ih (n := n/128) (by rw [Nat.pow_succ] at fits; omega)
      rw [List.length_cons,rest,Nat.log_div_base]
      omega

theorem encodeVarint_length (fits : n < 2^64) : (encodeVarint n).length = Nat.log 128 n+1 :=
  varintBytes_length 9 (Nat.lt_of_lt_of_le fits (by decide))

theorem encodeVarint_scaled (n : Nat) : (encodeVarint (128*n)).length ≤ (encodeVarint n).length+1 := by
  rw [encodeVarint,varintBytes]
  split
  · simp
  · rw [Nat.mul_div_cancel_left _ (by decide : 0 < 128)]
    exact Nat.succ_le_succ (varintBytes_more 9 n)

theorem encodeVarint_add (m n : Nat) :
    (encodeVarint (m+n)).length ≤ (encodeVarint m).length + (encodeVarint n).length := by
  have left := encodeVarint_positive m
  have right := encodeVarint_positive n
  rcases Nat.le_total m n with order | order
  · have grown := varintBytes_mono 10 (show m+n ≤ 128*n by omega)
    have scaled := encodeVarint_scaled n
    simp only [encodeVarint] at *
    omega
  · have grown := varintBytes_mono 10 (show m+n ≤ 128*m by omega)
    have scaled := encodeVarint_scaled m
    simp only [encodeVarint] at *
    omega

inductive WireType where
  | varint
  | sixtyFourBit
  | lengthDelimited
  | startGroup
  | endGroup
  | thirtyTwoBit
  deriving DecidableEq

def WireType.number : WireType → Nat
  | .varint => 0
  | .sixtyFourBit => 1
  | .lengthDelimited => 2
  | .startGroup => 3
  | .endGroup => 4
  | .thirtyTwoBit => 5

def WireType.ofNumber : Nat → Option WireType
  | 0 => some .varint
  | 1 => some .sixtyFourBit
  | 2 => some .lengthDelimited
  | 3 => some .startGroup
  | 4 => some .endGroup
  | 5 => some .thirtyTwoBit
  | _ => none

@[simp] theorem WireType.ofNumber_number (wire : WireType) : ofNumber wire.number = some wire := by
  cases wire <;> rfl

theorem WireType.number_lt (wire : WireType) : wire.number < 8 := by cases wire <;> decide

def encodeKey (tag : Nat) (wire : WireType) : List UInt8 := encodeVarint (8*tag+wire.number)

def keyOf (key : Nat) : Reader (Nat × WireType) :=
  if 2^32 ≤ key then reject
  else match WireType.ofNumber (key%8) with
    | none => reject
    | some wire => if key/8 = 0 then reject else accept (key/8,wire)

def decodeKey : Reader (Nat × WireType) := andThen decodeVarint keyOf

theorem stable_keyOf (key : Nat) : Stable (keyOf key) := by
  unfold keyOf
  split
  · exact Stable.reject
  · split
    · exact Stable.reject
    · split
      · exact Stable.reject
      · exact Stable.accept _

theorem stable_decodeKey : Stable decodeKey := stable_decodeVarint.andThen stable_keyOf

@[simp] theorem decodeKey_nil : decodeKey [] = none := rfl

theorem decodeKey_encodeKey (positive : 0 < tag) (small : tag < 2^29) (wire : WireType) (tail : List UInt8) :
    decodeKey (encodeKey tag wire ++ tail) = some ((tag,wire),tail) := by
  have code := wire.number_lt
  have fits : 8*tag+wire.number < 2^64 := by omega
  have same : (8*tag+wire.number)%8 = wire.number := by omega
  have quotient : (8*tag+wire.number)/8 = tag := by omega
  rw [decodeKey,encodeKey,andThen_some (decodeVarint_encodeVarint fits tail),keyOf,if_neg (by omega),same,
    WireType.ofNumber_number]
  simp only [quotient]
  rw [if_neg (by omega)]
  rfl

theorem decodeKey_inv (read : decodeKey bytes = some ((tag,wire),rest)) :
    ∃ key, decodeVarint bytes = some (key,rest) ∧ WireType.ofNumber (key%8) = some wire ∧ tag = key/8 := by
  obtain ⟨⟨key,middle⟩,varint,found⟩ := Option.bind_eq_some_iff.mp read
  refine ⟨key,?_⟩
  simp only [keyOf] at found
  split at found
  · cases found
  · cases number : WireType.ofNumber (key%8) with
    | none => rw [number] at found; cases found
    | some code =>
      simp only [number] at found
      split at found
      · cases found
      · cases Option.some.inj found
        exact ⟨varint,rfl,rfl⟩

theorem WireType.number_of (number : ofNumber code = some wire) : wire.number = code := by
  unfold ofNumber at number
  split at number
  all_goals first | cases Option.some.inj number; rfl | cases number

theorem decodeVarint_low (read : decodeVarint (b :: bytes) = some (n,rest)) : n%64 = b.toNat%64 := by
  rw [decodeVarint,varintFrom] at read
  split at read
  · split at read
    · cases read
    · cases Option.some.inj read; rfl
  · obtain ⟨⟨more,later⟩,_,same⟩ := Option.map_eq_some_iff.mp read
    cases same
    omega

theorem WireType.quarter (number : ofNumber code = some wire) (quarter : code%4 = 0) :
    wire = .varint ∨ wire = .endGroup := by
  unfold ofNumber at number
  split at number
  · exact .inl (Option.some.inj number).symm
  · cases quarter
  · cases quarter
  · cases quarter
  · exact .inr (Option.some.inj number).symm
  · cases quarter
  · cases number

-- Fields a record does not know. The recursion of a group is the stack of the
-- tags still open; `limit` is the recursion budget left when it was entered.
def skipValue : WireType → Reader Unit
  | .varint => andThen decodeVarint fun _ => accept ()
  | .thirtyTwoBit => andThen (takeBytes 4) fun _ => accept ()
  | .sixtyFourBit => andThen (takeBytes 8) fun _ => accept ()
  | .lengthDelimited => andThen decodeVarint fun length => andThen (takeBytes length) fun _ => accept ()
  | .startGroup => reject
  | .endGroup => reject

def skipGroups (limit : Nat) : Nat → List Nat → Reader Unit
  | _,[],bytes => some ((),bytes)
  | 0,_ :: _,_ => none
  | fuel+1,tag :: opened,bytes =>
    match decodeKey bytes with
    | none => none
    | some ((inner,wire),rest) =>
      if wire = .endGroup then if inner = tag then skipGroups limit fuel opened rest else none
      else if limit ≤ opened.length+1 then none
      else if wire = .startGroup then skipGroups limit fuel (inner :: tag :: opened) rest
      else match skipValue wire rest with
        | none => none
        | some (_,later) => skipGroups limit fuel (tag :: opened) later

def skipField (limit tag : Nat) (wire : WireType) : Reader Unit := fun bytes =>
  if limit = 0 then none
  else if wire = .startGroup then skipGroups limit bytes.length [tag] bytes
  else skipValue wire bytes

theorem stable_skipValue (wire : WireType) : Stable (skipValue wire) := by
  cases wire with
  | varint => exact stable_decodeVarint.andThen fun _ => Stable.accept _
  | thirtyTwoBit => exact (Stable.takeBytes 4).andThen fun _ => Stable.accept _
  | sixtyFourBit => exact (Stable.takeBytes 8).andThen fun _ => Stable.accept _
  | lengthDelimited =>
    exact stable_decodeVarint.andThen fun length => (Stable.takeBytes length).andThen fun _ => Stable.accept _
  | startGroup => exact Stable.reject
  | endGroup => exact Stable.reject

theorem skipGroups_round (nonempty : head ≠ [])
    (round : ∀ left later, skipGroups limit (left+1) opened (head ++ later) = skipGroups limit left inside later)
    (after : ∃ used, bytes = used ++ rest ∧ ∀ enough tail, used.length ≤ enough →
      skipGroups limit enough inside (used ++ tail) = some (done,tail)) :
    ∃ used, head ++ bytes = used ++ rest ∧ ∀ enough tail, used.length ≤ enough →
      skipGroups limit enough opened (used ++ tail) = some (done,tail) := by
  obtain ⟨used,rfl,later⟩ := after
  have counted := List.length_pos_iff.mpr nonempty
  refine ⟨head ++ used,by simp,fun enough tail room => ?_⟩
  rw [List.length_append] at room
  obtain ⟨left,rfl⟩ : ∃ left, enough = left+1 := ⟨enough-1,by omega⟩
  rw [List.append_assoc,round,later left tail (by omega)]

-- Every round of the group loop uses at least the byte of a key, so any fuel
-- of that many bytes gives the same answer.
theorem skipGroups_used (skipped : skipGroups limit fuel opened bytes = some (done,rest)) :
    ∃ used, bytes = used ++ rest ∧ ∀ enough tail, used.length ≤ enough →
      skipGroups limit enough opened (used ++ tail) = some (done,tail) := by
  induction fuel generalizing opened bytes with
  | zero =>
    cases opened with
    | nil =>
      cases Option.some.inj skipped
      exact ⟨[],rfl,fun enough tail _ => by cases enough <;> rfl⟩
    | cons tag more => cases skipped
  | succ fuel ih =>
    cases opened with
    | nil =>
      cases Option.some.inj skipped
      exact ⟨[],rfl,fun enough tail _ => by cases enough <;> rfl⟩
    | cons tag more =>
      rw [skipGroups] at skipped
      split at skipped
      · cases skipped
      · rename_i inner wire middle key
        obtain ⟨head,nonempty,rfl,again⟩ := stable_decodeKey.uses decodeKey_nil key
        split at skipped
        · rename_i ended
          split at skipped
          · rename_i same
            refine skipGroups_round nonempty (fun left later => ?_) (ih skipped)
            simp only [skipGroups,again]
            rw [if_pos ended,if_pos same]
          · cases skipped
        · rename_i going
          split at skipped
          · cases skipped
          · rename_i shallow
            split at skipped
            · rename_i nested
              refine skipGroups_round nonempty (fun left later => ?_) (ih skipped)
              simp only [skipGroups,again]
              rw [if_neg going,if_neg shallow,if_pos nested]
            · rename_i plain
              split at skipped
              · cases skipped
              · rename_i skippedValue after value
                obtain ⟨body,rfl,valueAgain⟩ := stable_skipValue wire _ _ _ value
                rw [← List.append_assoc]
                refine skipGroups_round (List.append_ne_nil_of_left_ne_nil nonempty body) (fun left later => ?_) (ih skipped)
                simp only [skipGroups,List.append_assoc,again,valueAgain]
                rw [if_neg going,if_neg shallow,if_neg plain]

theorem stable_skipField (limit tag : Nat) (wire : WireType) : Stable (skipField limit tag wire) := by
  intro bytes value rest read
  unfold skipField at read
  split at read
  · cases read
  · rename_i allowed
    split at read
    · rename_i group
      obtain ⟨used,rfl,again⟩ := skipGroups_used read
      refine ⟨used,rfl,fun tail => ?_⟩
      rw [skipField,if_neg allowed,if_pos group,again _ _ (by simp)]
    · rename_i plain
      obtain ⟨used,rfl,again⟩ := stable_skipValue wire _ _ _ read
      refine ⟨used,rfl,fun tail => ?_⟩
      rw [skipField,if_neg allowed,if_neg plain,again]

end ProtoWire
