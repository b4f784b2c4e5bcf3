import Mathlib

namespace DTChat.ClockTime

-- Range of chrono's `DateTime<Utc>`: -262143-01-01 to +262142-12-31, in seconds.
def minSecs : Int := -8334601228800
def maxSecs : Int := 8210266876799

-- chrono keeps the seconds apart from the sub-second part, which runs past
-- 10^9 inside a leap second.
structure DateTime where
  secs : Int
  nanos : Nat
  secs_range : minSecs ≤ secs ∧ secs ≤ maxSecs
  nanos_range : nanos < 2000000000
  deriving DecidableEq

namespace DateTime

@[ext] theorem ext {s t : DateTime} (secs : s.secs = t.secs) (nanos : s.nanos = t.nanos) : s = t := by
  cases s; cases t; cases secs; cases nanos; rfl

def cmp : DateTime → DateTime → Ordering := compareLex (compareOn secs) (compareOn nanos)

instance : Std.TransCmp cmp := inferInstanceAs (Std.TransCmp (compareLex (compareOn secs) (compareOn nanos)))

theorem cmp_eq_iff {s t : DateTime} : cmp s t = .eq ↔ s = t := by
  constructor
  · intro equal
    simp only [cmp,compareLex,compareOn,Ordering.then_eq_eq,Int.compare_eq_eq,Nat.compare_eq_eq] at equal
    exact ext equal.1 equal.2
  · rintro rfl
    simp [cmp,compareLex,compareOn]

def Regular (t : DateTime) : Prop := t.nanos < 1000000000

instance (t : DateTime) : Decidable t.Regular := inferInstanceAs (Decidable (_ < _))

def timestampMillis (t : DateTime) : Int64 := Int64.ofInt (t.secs*1000+(t.nanos/1000000 : Nat))

def timestampMillisOpt (millis : Int64) : Option DateTime :=
  if range : minSecs ≤ millis.toInt/1000 ∧ millis.toInt/1000 ≤ maxSecs then
    some ⟨millis.toInt/1000,(millis.toInt%1000).toNat*1000000,range,by omega⟩
  else none

def floorMillis (t : DateTime) : DateTime :=
  ⟨t.secs,t.nanos/1000000*1000000,t.secs_range,by have := t.nanos_range; omega⟩

theorem timestampMillis_toInt (t : DateTime) :
    t.timestampMillis.toInt = t.secs*1000+(t.nanos/1000000 : Nat) := by
  have low := t.secs_range
  have high := t.nanos_range
  simp only [minSecs,maxSecs] at low
  apply Int64.toInt_ofInt_of_le <;> omega

theorem millis_regular {t : DateTime} (regular : t.Regular) :
    timestampMillisOpt t.timestampMillis = some t.floorMillis := by
  have range := t.secs_range
  simp only [Regular] at regular
  have secs : t.timestampMillis.toInt/1000 = t.secs := by rw [timestampMillis_toInt]; omega
  have nanos : t.timestampMillis.toInt%1000 = (t.nanos/1000000 : Nat) := by rw [timestampMillis_toInt]; omega
  simp only [timestampMillisOpt,secs,nanos]
  rw [dif_pos range]
  rfl

theorem millis_leap {t : DateTime} (leap : ¬t.Regular) (room : t.secs < maxSecs) :
    ∃ next, timestampMillisOpt t.timestampMillis = some next ∧ next.secs = t.secs+1 ∧
      next.nanos+1000000000 = t.nanos/1000000*1000000 := by
  have range := t.secs_range
  have high := t.nanos_range
  obtain ⟨past,same⟩ := Nat.exists_eq_add_of_le (Nat.le_of_not_lt leap)
  rw [same] at high ⊢
  have secs : t.timestampMillis.toInt/1000 = t.secs+1 := by rw [timestampMillis_toInt,same]; omega
  have nanos : t.timestampMillis.toInt%1000 = (past/1000000 : Nat) := by rw [timestampMillis_toInt,same]; omega
  have inside : minSecs ≤ t.secs+1 ∧ t.secs+1 ≤ maxSecs := by omega
  simp only [timestampMillisOpt,secs,nanos]
  exact ⟨_,dif_pos inside,rfl,by simp only [Int.toNat_natCast]; omega⟩

def Readable (t : DateTime) : Prop := t.Regular ∨ t.secs < maxSecs

instance (t : DateTime) : Decidable t.Readable := inferInstanceAs (Decidable (_ ∨ _))

structure MillisOf (t read : DateTime) : Prop where
  floored : t.Regular → read = t.floorMillis
  carried : ¬t.Regular → read.secs = t.secs+1 ∧ read.nanos+1000000000 = t.nanos/1000000*1000000

theorem millis_readable {t : DateTime} (readable : t.Readable) :
    ∃ read, timestampMillisOpt t.timestampMillis = some read ∧ MillisOf t read := by
  by_cases regular : t.Regular
  · exact ⟨_,millis_regular regular,fun _ => rfl,fun leap => absurd regular leap⟩
  · rcases readable with read | room
    · exact absurd read regular
    · obtain ⟨read,same,secs,nanos⟩ := millis_leap regular room
      exact ⟨read,same,fun here => absurd here regular,fun _ => ⟨secs,nanos⟩⟩

theorem millis_kept (read : timestampMillisOpt millis = some t) : t.timestampMillis = millis ∧ t.Regular := by
  unfold timestampMillisOpt at read
  split at read
  · cases Option.some.inj read
    constructor
    · apply Int64.toInt_inj.mp
      rw [timestampMillis_toInt]
      simp only
      omega
    · simp only [Regular]; omega
  · cases read

end DateTime

-- A reading of `Utc::now`; the system clock has no leap seconds.
structure UtcNow where
  time : DateTime
  regular : time.Regular
  deriving DecidableEq

theorem UtcNow.millis (now : UtcNow) :
    DateTime.timestampMillisOpt now.time.timestampMillis = some now.time.floorMillis :=
  DateTime.millis_regular now.regular

end DTChat.ClockTime
