import DTChat.Lib.BitGroups

namespace Base64Text
open BitGroups

-- RFC 4648 alphabet of the standard engine.
def symbol (n : Nat) : UInt8 :=
  if n < 26 then UInt8.ofNat (65+n)
  else if n < 52 then UInt8.ofNat (71+n)
  else if n < 62 then UInt8.ofNat (n-4)
  else if n = 62 then 43 else 47

def isSymbol (b : UInt8) : Bool :=
  (65 ≤ b && b ≤ 90) || (97 ≤ b && b ≤ 122) || (48 ≤ b && b ≤ 57) || b == 43 || b == 47

def sextet (b : UInt8) : Nat :=
  if 65 ≤ b && b ≤ 90 then b.toNat-65
  else if 97 ≤ b && b ≤ 122 then b.toNat-71
  else if 48 ≤ b && b ≤ 57 then b.toNat+4
  else if b == 43 then 62 else 63

def pad : UInt8 := 61

theorem symbol_table : ∀ n : Fin 64, sextet (symbol n) = n ∧ isSymbol (symbol n) = true := by decide

theorem sextet_symbol (small : n < 64) : sextet (symbol n) = n := (symbol_table ⟨n,small⟩).1
theorem isSymbol_symbol (small : n < 64) : isSymbol (symbol n) = true := (symbol_table ⟨n,small⟩).2

theorem symbols_table : ∀ n : Fin 256, isSymbol (UInt8.ofNat n) = true →
    sextet (UInt8.ofNat n) < 64 ∧ symbol (sextet (UInt8.ofNat n)) = UInt8.ofNat n := by decide +kernel

theorem symbol_facts (member : isSymbol b = true) : sextet b < 64 ∧ symbol (sextet b) = b := by
  have facts := symbols_table ⟨b.toNat,b.toNat_lt⟩
  simp only [UInt8.ofNat_toNat] at facts
  exact facts member

theorem sextet_lt (member : isSymbol b = true) : sextet b < 64 := (symbol_facts member).1

@[simp] theorem isSymbol_pad : isSymbol pad = false := rfl

def bits (bytes : List UInt8) : List Bool := spread 8 (bytes.map UInt8.toNat)

def sextets (bytes : List UInt8) : List Nat :=
  let groups := regroup 6 [] (bits bytes)
  groups.1 ++ if groups.2 = [] then [] else [ofBits (groups.2 ++ List.replicate (6-groups.2.length) false)]

-- `core` is the text without its pad characters.
def core (bytes : List UInt8) : List UInt8 := (sextets bytes).map symbol
def padding (length : Nat) : List UInt8 := List.replicate ((4 - length % 4) % 4) pad
def encode (bytes : List UInt8) : List UInt8 := core bytes ++ padding (core bytes).length

def readCore (text : List UInt8) : Option (List UInt8) :=
  let groups := regroup 8 [] (spread 6 (text.map sextet))
  if groups.2.all (!·) then some (groups.1.map UInt8.ofNat) else none

def decode (text : List UInt8) : Option (List UInt8) :=
  let body := text.takeWhile (· ≠ pad)
  let tail := text.dropWhile (· ≠ pad)
  if text.length % 4 = 0 ∧ tail.length ≤ 2 ∧ tail.all (· = pad) ∧ body.all isSymbol then readCore body
  else none

theorem bytes_small (bytes : List UInt8) : ∀ n ∈ bytes.map UInt8.toNat, n < 2^8 := by
  intro n member
  obtain ⟨b,_,rfl⟩ := List.mem_map.mp member
  exact b.toNat_lt

theorem map_ofNat_toNat (bytes : List UInt8) : (bytes.map UInt8.toNat).map UInt8.ofNat = bytes := by
  simp [List.map_map,Function.comp_def]

theorem bits_length (bytes : List UInt8) : (bits bytes).length = 8*bytes.length := by
  simp [bits,spread_length]

theorem sextets_spread (bytes : List UInt8) :
    ∃ zeros, zeros < 6 ∧ spread 6 (sextets bytes) = bits bytes ++ List.replicate zeros false := by
  obtain ⟨same,bound⟩ := spread_regroup [] (bits bytes) (by decide : 0 < 6)
  by_cases closed : (regroup 6 [] (bits bytes)).2 = []
  · refine ⟨0,by decide,?_⟩
    simp only [sextets,closed,↓reduceIte,List.append_nil,List.replicate_zero] at same ⊢
    exact same
  · refine ⟨6-(regroup 6 [] (bits bytes)).2.length,?_,?_⟩
    · have := List.length_pos_iff.mpr closed
      omega
    · have filled := toBits_ofBits ((regroup 6 [] (bits bytes)).2 ++
        List.replicate (6-(regroup 6 [] (bits bytes)).2.length) false)
      rw [List.length_append,List.length_replicate,Nat.add_sub_of_le (Nat.le_of_lt bound)] at filled
      simp only [sextets,closed,↓reduceIte,spread_append,spread_cons,spread_nil,List.append_nil,filled]
      rw [← List.append_assoc,same,List.nil_append]

theorem sextets_length (bytes : List UInt8) (filled : spread 6 (sextets bytes) = bits bytes ++ List.replicate zeros false) :
    6*(sextets bytes).length = 8*bytes.length+zeros := by
  have counted := congrArg List.length filled
  simpa [spread_length,bits_length] using counted

theorem sextets_small (bytes : List UInt8) : ∀ n ∈ sextets bytes, n < 64 := by
  intro n member
  have open_bound := (spread_regroup [] (bits bytes) (by decide : 0 < 6)).2
  rcases List.mem_append.mp member with full | last
  · exact regroup_small [] _ (by decide : 0 < 6) n full
  · split at last
    · cases last
    · rw [List.mem_singleton.mp last]
      refine Nat.lt_of_lt_of_le (ofBits_lt _) ?_
      simp [Nat.add_sub_of_le (Nat.le_of_lt open_bound)]

theorem core_symbols (bytes : List UInt8) : ∀ b ∈ core bytes, isSymbol b = true := by
  intro b member
  obtain ⟨n,inside,rfl⟩ := List.mem_map.mp member
  exact isSymbol_symbol (sextets_small bytes n inside)

theorem core_sextets (bytes : List UInt8) : (core bytes).map sextet = sextets bytes := by
  rw [core,List.map_map]
  exact (List.map_congr_left fun n member => sextet_symbol (sextets_small bytes n member)).trans (List.map_id _)

theorem core_length (bytes : List UInt8) : (core bytes).length = (8*bytes.length+5)/6 := by
  obtain ⟨zeros,few,filled⟩ := sextets_spread bytes
  have counted := sextets_length bytes filled
  rw [core,List.length_map]
  omega

theorem core_mod (bytes : List UInt8) : (core bytes).length % 4 ≠ 1 := by
  rw [core_length]; omega

theorem core_ne_nil (bytes : List UInt8) (nonempty : bytes ≠ []) : core bytes ≠ [] := by
  have positive := List.length_pos_iff.mpr nonempty
  intro empty
  have counted := core_length bytes
  rw [empty,List.length_nil] at counted
  omega

theorem padding_length (length : Nat) : (padding length).length = (4-length%4)%4 := by simp [padding]

theorem regroup_filled (bytes : List UInt8) (few : zeros < 8) :
    regroup 8 [] (bits bytes ++ List.replicate zeros false) = (bytes.map UInt8.toNat,List.replicate zeros false) := by
  rw [bits,regroup_spread (by decide) (bytes_small bytes),regroup_open (by simpa using few)]
  simp

theorem readCore_core (bytes : List UInt8) : readCore (core bytes) = some bytes := by
  obtain ⟨zeros,few,filled⟩ := sextets_spread bytes
  simp only [readCore,core_sextets,filled,regroup_filled bytes (by omega : zeros < 8),map_ofNat_toNat]
  simp

theorem readCore_exact (symbols : ∀ b ∈ text, isSymbol b = true) (length : text.length % 4 ≠ 1)
    (read : readCore text = some bytes) : text = core bytes := by
  have sixes : ∀ n ∈ text.map sextet, n < 2^6 := by
    intro n member
    obtain ⟨b,inside,rfl⟩ := List.mem_map.mp member
    exact sextet_lt (symbols b inside)
  obtain ⟨whole,short⟩ := spread_regroup [] (spread 6 (text.map sextet)) (by decide : 0 < 8)
  have eights := regroup_small [] (spread 6 (text.map sextet)) (by decide : 0 < 8)
  simp only [readCore] at read
  split at read
  · rename_i clear
    cases Option.some.inj read
    generalize regroup 8 [] (spread 6 (text.map sextet)) = groups at *
    obtain ⟨zeros,few,filled⟩ := sextets_spread (groups.1.map UInt8.ofNat)
    have back : (groups.1.map UInt8.ofNat).map UInt8.toNat = groups.1 := by
      rw [List.map_map]
      refine (List.map_congr_left fun n member => ?_).trans (List.map_id _)
      exact UInt8.toNat_ofNat_of_lt' (eights n member)
    have left : groups.2 = List.replicate groups.2.length false :=
      List.eq_replicate_iff.mpr ⟨rfl,fun bit member => by simpa using List.all_eq_true.mp clear bit member⟩
    have counted := sextets_length _ filled
    have measured := congrArg List.length whole
    simp only [List.length_append,spread_length,List.nil_append,List.length_map] at counted measured
    have residue : text.length % 4 = 0 ∨ text.length % 4 = 2 ∨ text.length % 4 = 3 := by omega
    have even : groups.2.length = zeros := by rcases residue with zero | two | three <;> omega
    have stream : spread 6 (text.map sextet) = spread 6 (sextets (groups.1.map UInt8.ofNat)) := by
      rw [filled,bits,back,← even,← left]
      exact whole.symm
    have same := spread_inj (by decide : 0 < 6) sixes (sextets_small _) stream
    rw [core,← same,List.map_map]
    exact ((List.map_congr_left fun b member => (symbol_facts (symbols b member)).2).trans (List.map_id _)).symm
  · cases read

theorem decode_padded (symbols : ∀ b ∈ body, isSymbol b = true) (length : body.length % 4 ≠ 1) :
    decode (body ++ padding body.length) = readCore body := by
  have notPad : ∀ b ∈ body, decide (b ≠ pad) = true := by
    intro b member
    have here := symbols b member
    simp only [decide_eq_true_eq]
    rintro rfl
    simp at here
  have taken : (body ++ padding body.length).takeWhile (· ≠ pad) = body := by
    rw [List.takeWhile_append_of_pos notPad,padding]
    simp
  have dropped : (body ++ padding body.length).dropWhile (· ≠ pad) = padding body.length := by
    rw [List.dropWhile_append_of_pos notPad,padding]
    simp
  have all : body.all isSymbol = true := List.all_eq_true.mpr symbols
  simp only [decode,taken,dropped,List.length_append,padding_length,all]
  rw [if_pos]
  refine ⟨by omega,by omega,?_,trivial⟩
  simp [padding]

theorem decode_encode (bytes : List UInt8) : decode (encode bytes) = some bytes := by
  rw [encode,decode_padded (core_symbols bytes) (core_mod bytes),readCore_core]

theorem decode_iff : decode text = some bytes ↔ text = encode bytes := by
  constructor
  · intro read
    simp only [decode] at read
    split at read
    · rename_i accepted
      obtain ⟨whole,few,pads,symbols⟩ := accepted
      have parts := List.takeWhile_append_dropWhile (p := fun b => decide (b ≠ pad)) (l := text)
      have counted := congrArg List.length parts
      rw [List.length_append] at counted
      generalize text.takeWhile (· ≠ pad) = body at *
      generalize text.dropWhile (· ≠ pad) = tail at *
      have filler : tail = padding body.length := by
        have count : (4-body.length%4)%4 = tail.length := by omega
        rw [padding,count]
        exact List.eq_replicate_iff.mpr ⟨rfl,fun b member => by simpa using List.all_eq_true.mp pads b member⟩
      have text_core := readCore_exact (List.all_eq_true.mp symbols) (by omega) read
      rw [← parts,filler,encode,← text_core]
    · cases read
  · rintro rfl
    exact decode_encode bytes

theorem encode_length (bytes : List UInt8) : (encode bytes).length = 4*((bytes.length+2)/3) := by
  rw [encode,List.length_append,padding_length,core_length]
  omega

theorem readCore_length (read : readCore text = some bytes) : 8*bytes.length ≤ 6*text.length := by
  have measured := regroup_length [] (spread 6 (text.map sextet)) (by decide : 0 < 8)
  rw [spread_length,List.length_map,List.length_nil] at measured
  simp only [readCore] at read
  split at read
  · cases Option.some.inj read
    rw [List.length_map]
    omega
  · cases read

theorem readCore_cut (bytes : List UInt8) (cut : k < (core bytes).length)
    (read : readCore ((core bytes).take k) = some shorter) :
    ∃ lost, lost ≠ [] ∧ bytes = shorter ++ lost := by
  obtain ⟨zeros,few,filled⟩ := sextets_spread bytes
  have counted := sextets_length bytes filled
  rw [core,List.length_map] at cut
  have whole := regroup_filled bytes (by omega : zeros < 8)
  rw [← filled,← List.take_append_drop k (sextets bytes),spread_append,regroup_append] at whole
  have front := congrArg Prod.fst whole
  simp only at front
  have measured := regroup_length [] (spread 6 ((sextets bytes).take k)) (by decide : 0 < 8)
  rw [spread_length,List.length_take,Nat.min_eq_left (Nat.le_of_lt cut)] at measured
  have kept := congrArg List.length front
  simp only [List.length_append,List.length_map] at kept
  rw [readCore,List.map_take,core_sextets] at read
  split at read
  · cases Option.some.inj read
    have same := map_ofNat_toNat bytes
    rw [← front,List.map_append] at same
    refine ⟨_,?_,same.symm⟩
    intro empty
    rw [List.map_eq_nil_iff] at empty
    rw [empty,List.length_nil] at kept
    simp only [List.length_nil] at measured
    omega
  · cases read

theorem readCore_append (bytes text : List UInt8) (whole : bytes.length % 3 = 0) :
    readCore (core bytes ++ text) = (readCore text).map (bytes ++ ·) := by
  obtain ⟨zeros,few,filled⟩ := sextets_spread bytes
  have counted := sextets_length bytes filled
  obtain rfl : zeros = 0 := by omega
  rw [List.replicate_zero,List.append_nil] at filled
  simp only [readCore,List.map_append,core_sextets,spread_append,filled,bits,
    regroup_spread (by decide : 0 < 8) (bytes_small bytes)]
  split <;> simp [List.map_map,Function.comp_def]

-- Reading with `carry` six bits in front: every byte is pushed six bits to the right.
def shifted : Nat → List UInt8 → List UInt8
  | _,[] => []
  | carry,b :: rest => UInt8.ofNat (carry*4 + b.toNat/64) :: shifted (b.toNat%64) rest

def carried : Nat → List UInt8 → Nat
  | carry,[] => carry
  | _,b :: rest => carried (b.toNat%64) rest

theorem shifted_append (carry : Nat) (left right : List UInt8) :
    shifted carry (left ++ right) = shifted carry left ++ shifted (carried carry left) right := by
  induction left generalizing carry with
  | nil => rfl
  | cons b rest ih => simp [shifted,carried,ih]

theorem shifted_length (carry : Nat) (bytes : List UInt8) : (shifted carry bytes).length = bytes.length := by
  induction bytes generalizing carry with
  | nil => rfl
  | cons b rest ih => simp [shifted,ih]

theorem shifted_high (small : carry < 64) (high : 32 ≤ carry) (bytes : List UInt8)
    (bits : ∀ b ∈ bytes, 32 ≤ b.toNat%64) : ∀ b ∈ shifted carry bytes, 128 ≤ b.toNat := by
  induction bytes generalizing carry with
  | nil => simp [shifted]
  | cons b rest ih =>
    have byte := b.toNat_lt
    have later := ih (Nat.mod_lt b.toNat (by decide : 0 < 64)) (bits b (by simp))
      (fun c member => bits c (List.mem_cons_of_mem _ member))
    intro c member
    rcases List.mem_cons.mp member with rfl | member
    · have fits : carry*4+b.toNat/64 < 256 := by omega
      rw [UInt8.toNat_ofNat_of_lt' fits]
      omega
    · exact later c member

theorem regroup_shifted (small : carry < 64) (bytes : List UInt8) (rest : List Bool) :
    (regroup 8 (toBits 6 carry) (bits bytes ++ rest)).1 =
      (shifted carry bytes).map UInt8.toNat ++ (regroup 8 (toBits 6 (carried carry bytes)) rest).1 := by
  induction bytes generalizing carry with
  | nil => simp [bits,shifted,carried]
  | cons b more ih =>
    have byte := b.toNat_lt
    have later := ih (Nat.mod_lt b.toNat (by decide : 0 < 64))
    have split : toBits 8 b.toNat = toBits 2 (b.toNat/64) ++ toBits 6 (b.toNat%64) := by
      rw [toBits_append 2 6,← toBits_mod 6 0 b.toNat]
      rfl
    have value : ofBits (toBits 6 carry ++ toBits 2 (b.toNat/64)) = carry*4+b.toNat/64 := by
      rw [ofBits_append,ofBits_toBits_lt 6 small,ofBits_toBits_lt 2 (by omega),toBits_length]
      rfl
    have opened : regroup 8 [] (toBits 6 (b.toNat%64) ++ (bits more ++ rest)) =
        regroup 8 (toBits 6 (b.toNat%64)) (bits more ++ rest) := by
      rw [regroup_append,regroup_open (by simp)]
      simp
    have fits : carry*4+b.toNat/64 < 256 := by omega
    simp only [bits,List.map_cons,spread_cons,List.append_assoc,shifted,carried] at later opened ⊢
    rw [split,List.append_assoc,regroup_full (by simp) (by simp),value,opened,later]
    simp [Nat.mod_eq_of_lt fits]

theorem readCore_shift (member : isSymbol first = true) (bytes : List UInt8)
    (read : readCore (first :: core bytes) = some result) :
    ∃ tail, result = shifted (sextet first) bytes ++ tail := by
  obtain ⟨zeros,few,filled⟩ := sextets_spread bytes
  have moved := regroup_shifted (sextet_lt member) bytes (List.replicate zeros false)
  have opened : regroup 8 [] (toBits 6 (sextet first) ++ (bits bytes ++ List.replicate zeros false)) =
      regroup 8 (toBits 6 (sextet first)) (bits bytes ++ List.replicate zeros false) := by
    rw [regroup_append,regroup_open (by simp)]
    simp
  simp only [readCore,List.map_cons,core_sextets,spread_cons,filled,opened,moved] at read
  split at read
  · cases Option.some.inj read
    exact ⟨_,by rw [List.map_append,map_ofNat_toNat]⟩
  · cases read

theorem readCore_shift_cut (member : isSymbol first = true) (bytes : List UInt8) (cut : k < (core bytes).length)
    (read : readCore (first :: (core bytes).take k) = some result) : result <+: shifted (sextet first) bytes := by
  obtain ⟨zeros,few,filled⟩ := sextets_spread bytes
  have counted := sextets_length bytes filled
  rw [core,List.length_map] at cut
  have whole := regroup_shifted (sextet_lt member) bytes (List.replicate zeros false)
  rw [← filled,← List.take_append_drop k (sextets bytes),spread_append,regroup_append] at whole
  have opened : regroup 8 [] (toBits 6 (sextet first) ++ spread 6 ((sextets bytes).take k)) =
      regroup 8 (toBits 6 (sextet first)) (spread 6 ((sextets bytes).take k)) := by
    rw [regroup_append,regroup_open (by simp)]
    simp
  have measured := regroup_length (toBits 6 (sextet first)) (spread 6 ((sextets bytes).take k))
    (by simp : (toBits 6 (sextet first)).length < 8)
  rw [spread_length,List.length_take,Nat.min_eq_left (Nat.le_of_lt cut),toBits_length] at measured
  simp only [readCore,List.map_cons,List.map_take,core_sextets,spread_cons,opened] at read
  split at read
  · cases Option.some.inj read
    have inside := List.prefix_of_prefix_length_le (List.prefix_append _ _) (whole ▸ List.prefix_append _ _)
      (by rw [List.length_map,shifted_length]; omega)
    have mapped := inside.map UInt8.ofNat
    rwa [map_ofNat_toNat] at mapped
  · cases read

theorem core_append (whole : bytes.length % 3 = 0) (more : List UInt8) : core (bytes ++ more) = core bytes ++ core more := by
  obtain ⟨zeros,few,filled⟩ := sextets_spread bytes
  have counted := sextets_length bytes filled
  obtain rfl : zeros = 0 := by omega
  rw [List.replicate_zero,List.append_nil] at filled
  have split : bits (bytes ++ more) = spread 6 (sextets bytes) ++ bits more := by
    rw [filled,bits,bits,bits,List.map_append,spread_append]
  have grouped : regroup 6 [] (spread 6 (sextets bytes) ++ bits more) = _ :=
    regroup_spread (by decide : 0 < 6) (sextets_small bytes)
  simp only [core,← List.map_append]
  rw [sextets,split,grouped]
  simp only [sextets,List.append_assoc]

theorem readCore_shift_append (member : isSymbol first = true) (whole : bytes.length % 3 = 0)
    (read : readCore (first :: (core bytes ++ text)) = some result) :
    ∃ tail, result = shifted (sextet first) bytes ++ tail := by
  obtain ⟨zeros,few,filled⟩ := sextets_spread bytes
  have counted := sextets_length bytes filled
  obtain rfl : zeros = 0 := by omega
  rw [List.replicate_zero,List.append_nil] at filled
  have moved := regroup_shifted (sextet_lt member) bytes (spread 6 (text.map sextet))
  have opened : regroup 8 [] (toBits 6 (sextet first) ++ (bits bytes ++ spread 6 (text.map sextet))) =
      regroup 8 (toBits 6 (sextet first)) (bits bytes ++ spread 6 (text.map sextet)) := by
    rw [regroup_append,regroup_open (by simp)]
    simp
  simp only [readCore,List.map_cons,List.map_append,core_sextets,spread_cons,spread_append,filled,opened,moved] at read
  split at read
  · cases Option.some.inj read
    exact ⟨_,by rw [map_ofNat_toNat]⟩
  · cases read

-- Reading without the first symbol: every byte is pushed six bits to the left.
def advanced : List UInt8 → List UInt8
  | a :: b :: rest => UInt8.ofNat (a.toNat%4*64 + b.toNat/4) :: advanced (b :: rest)
  | _ => []

theorem advanced_length (front : List UInt8) (b : UInt8) : (advanced (front ++ [b])).length = front.length := by
  induction front with
  | nil => rfl
  | cons a rest ih => cases rest <;> simp_all [advanced]

theorem advanced_append (front : List UInt8) (b : UInt8) (rest : List UInt8) :
    advanced (front ++ b :: rest) = advanced (front ++ [b]) ++ advanced (b :: rest) := by
  induction front with
  | nil => simp [advanced]
  | cons a more ih => cases more <;> simp_all [advanced]

theorem advanced_take (count : Nat) (a : UInt8) (bytes : List UInt8) :
    (advanced (a :: bytes)).take count = advanced ((a :: bytes).take (count+1)) := by
  induction count generalizing a bytes with
  | zero => simp [advanced]
  | succ count ih => cases bytes <;> simp_all [advanced]

theorem advanced_member (a : UInt8) (bytes : List UInt8) (member : b ∈ advanced (a :: bytes)) :
    ∃ c ∈ bytes, b.toNat%64 = c.toNat/4 := by
  induction bytes generalizing a with
  | nil => cases member
  | cons c rest ih =>
    have byte := c.toNat_lt
    rcases List.mem_cons.mp member with rfl | member
    · refine ⟨c,by simp,?_⟩
      have fits : a.toNat%4*64+c.toNat/4 < 256 := by omega
      rw [UInt8.toNat_ofNat_of_lt' fits]
      omega
    · obtain ⟨d,inside,same⟩ := ih c member
      exact ⟨d,List.mem_cons_of_mem _ inside,same⟩

theorem regroup_advanced (few : zeros < 6) (a : UInt8) (more : List UInt8) :
    (regroup 8 (toBits 2 a.toNat) (bits more ++ List.replicate zeros false)).1 =
      (advanced (a :: more)).map UInt8.toNat := by
  induction more generalizing a with
  | nil =>
    have short : (toBits 2 a.toNat).length+(List.replicate zeros false).length < 8 := by simp; omega
    simp [bits,regroup_open short,advanced]
  | cons b rest ih =>
    have byte := b.toNat_lt
    have later := ih b
    have opened : regroup 8 [] (toBits 2 b.toNat ++ (bits rest ++ List.replicate zeros false)) =
        regroup 8 (toBits 2 b.toNat) (bits rest ++ List.replicate zeros false) := by
      rw [regroup_append,regroup_open (by simp)]
      simp
    have value : ofBits (toBits 2 a.toNat ++ toBits 6 (b.toNat/4)) = a.toNat%4*64+b.toNat/4 := by
      rw [ofBits_append,ofBits_toBits,ofBits_toBits_lt 6 (by omega),toBits_length]
      rfl
    have split : toBits 8 b.toNat = toBits 6 (b.toNat/4) ++ toBits 2 b.toNat := toBits_append 6 2 b.toNat
    have fits : a.toNat%4*64+b.toNat/4 < 256 := by omega
    simp only [bits,List.map_cons,spread_cons,List.append_assoc,advanced] at later opened ⊢
    rw [split,List.append_assoc,regroup_full (by simp) (by simp),value,opened,later]
    simp [Nat.mod_eq_of_lt fits]

theorem readCore_tail (bytes : List UInt8) (read : readCore ((core bytes).take n).tail = some result) :
    result <+: advanced bytes := by
  obtain ⟨zeros,few,filled⟩ := sextets_spread bytes
  cases n with
  | zero =>
    cases Option.some.inj read
    exact List.nil_prefix
  | succ n =>
    cases split : sextets bytes with
    | nil =>
      rw [core,split] at read
      cases Option.some.inj read
      exact List.nil_prefix
    | cons s later =>
      cases bytes with
      | nil => cases split
      | cons a more =>
        have stream : spread 6 later = toBits 2 a.toNat ++ (bits more ++ List.replicate zeros false) := by
          rw [split,spread_cons,bits,List.map_cons,spread_cons,toBits_append 6 2,List.append_assoc,
            List.append_assoc] at filled
          exact (List.append_inj filled (by simp)).2
        have opened : regroup 8 [] (toBits 2 a.toNat ++ (bits more ++ List.replicate zeros false)) =
            regroup 8 (toBits 2 a.toNat) (bits more ++ List.replicate zeros false) := by
          rw [regroup_append,regroup_open (by simp)]
          simp
        have whole := regroup_advanced few a more
        rw [← opened,← stream,← List.take_append_drop n later,spread_append,regroup_append] at whole
        have kept : ((core (a :: more)).take (n+1)).tail.map sextet = later.take n := by
          rw [List.map_tail,List.map_take,core_sextets,split,List.take_succ_cons,List.tail_cons]
        simp only [readCore,kept] at read
        split at read
        · cases Option.some.inj read
          rw [← map_ofNat_toNat (advanced (a :: more)),← whole,List.map_append]
          exact List.prefix_append _ _
        · cases read

end Base64Text
