/-
  Python `datetime` as the program uses it.

  The wall clock of a `datetime` is a number of microseconds since
  0001-01-01T00:00:00, below 10000-01-01. An aware one has a UTC offset of less than
  a day, and its `instant` is the wall clock less the offset. Two aware values compare
  by their instants. The instant of an aware value can lie outside the range of
  `datetime`; `astimezone` then raises OverflowError.

  A naive value is one without an offset. A tzinfo whose `utcoffset()` is None counts as
  naive: no code here tells the two apart.

  `Utc` is an aware value at offset zero. It is what the clock returns and what a
  `timestamptz` column is read back as.
-/
import Mathlib.Algebra.Group.Nat.Defs
import Mathlib.Data.List.DropRight

namespace Valor.Python

/-- `OverflowError("date value out of range")`. -/
structure OverflowError where
  deriving DecidableEq, Repr

namespace Datetime

/-- Microseconds of one day. -/
def day : Int := 86400000000

/-- Microseconds of one hour. -/
def hour : Int := 3600000000

/-- 10000-01-01T00:00:00, the first wall clock that `datetime` cannot hold. -/
def maxWall : Int := 3652059 * day

end Datetime

open Datetime

structure Aware where
  wall : Int
  offset : Int
  wall_range : 0 ≤ wall ∧ wall < maxWall
  offset_range : -day < offset ∧ offset < day
  deriving DecidableEq

structure Utc where
  instant : Int
  range : 0 ≤ instant ∧ instant < maxWall
  deriving DecidableEq

/-- A `datetime` object. -/
inductive Datetime where
  | naive (wall : Int) (range : 0 ≤ wall ∧ wall < maxWall)
  | aware (value : Aware)
  deriving DecidableEq

namespace Aware

def instant (a : Aware) : Int := a.wall - a.offset

instance : LT Aware := ⟨fun a b => a.instant < b.instant⟩
instance : LE Aware := ⟨fun a b => a.instant ≤ b.instant⟩
instance (a b : Aware) : Decidable (a < b) := inferInstanceAs (Decidable (a.instant < b.instant))
instance (a b : Aware) : Decidable (a ≤ b) := inferInstanceAs (Decidable (a.instant ≤ b.instant))

theorem lt_iff {a b : Aware} : a < b ↔ a.instant < b.instant := Iff.rfl

theorem le_iff {a b : Aware} : a ≤ b ↔ a.instant ≤ b.instant := Iff.rfl

/-- `a.astimezone(UTC)`. -/
def astimezone (a : Aware) : Except OverflowError Utc :=
  if h : 0 ≤ a.instant ∧ a.instant < maxWall then .ok ⟨a.instant, h⟩ else .error ⟨⟩

theorem astimezone_instant {a : Aware} {u : Utc} (h : a.astimezone = .ok u) :
    u.instant = a.instant := by
  unfold astimezone at h
  split at h
  · cases h
    rfl
  · cases h

end Aware

namespace Utc

/-- `n` microseconds after 0001-01-01T00:00:00. -/
instance (n : Nat) : OfNat Utc n :=
  ⟨⟨n % maxWall, Int.emod_nonneg _ (by decide), Int.emod_lt_of_pos _ (by decide)⟩⟩

theorem ext_instant {u v : Utc} (h : u.instant = v.instant) : u = v := by
  cases u
  cases v
  simpa using h

def toAware (u : Utc) : Aware := ⟨u.instant, 0, u.range, by decide⟩

instance : Coe Utc Aware := ⟨toAware⟩

@[simp] theorem instant_toAware (u : Utc) : u.toAware.instant = u.instant := by
  simp [toAware, Aware.instant]

@[simp] theorem astimezone_toAware (u : Utc) : u.toAware.astimezone = .ok u := by
  simp [Aware.astimezone, u.range]

/-- `u.replace(tzinfo=timezone(timedelta(hours=hours % 24)))`. -/
def withTimezone (u : Utc) (hours : Nat) : Aware :=
  ⟨u.instant, (hours % 24 : Nat) * hour, u.range, by
    simp only [day, hour]
    omega⟩

/-- `u.replace(hour=0, minute=0, second=0, microsecond=0)`. -/
def midnight (u : Utc) : Utc :=
  ⟨u.instant / day * day, by
    have := u.range
    simp only [day] at *
    omega⟩

/-- `u.replace(minute=0, second=0, microsecond=0)`. -/
def startOfHour (u : Utc) : Utc :=
  ⟨u.instant / hour * hour, by
    have := u.range
    simp only [hour] at *
    omega⟩

/-- `u - timedelta(days=n)`. -/
def subDays (u : Utc) (n : Nat) : Except OverflowError Utc :=
  if h : 0 ≤ u.instant - n * day ∧ u.instant - n * day < maxWall then .ok ⟨u.instant - n * day, h⟩
  else .error ⟨⟩

/-- `u + timedelta(days=1)`. -/
def addDay (u : Utc) : Except OverflowError Utc :=
  if h : 0 ≤ u.instant + day ∧ u.instant + day < maxWall then .ok ⟨u.instant + day, h⟩
  else .error ⟨⟩

end Utc

/-! ## isoformat -/

def daysInMonth : Nat → Nat
  | 2 => 28
  | 4 | 6 | 9 | 11 => 30
  | _ => 31

def daysBeforeMonth : Nat → Nat
  | 0 => 0
  | 1 => 0
  | m + 1 => daysBeforeMonth m + daysInMonth m

/-- `datetime._ord2ymd`: year, month and day of a proleptic Gregorian ordinal. -/
def ord2ymd (ordinal : Nat) : Nat × Nat × Nat :=
  let n := ordinal - 1
  let (n400, n) := (n / 146097, n % 146097)
  let (n100, n) := (n / 36524, n % 36524)
  let (n4, n) := (n / 1461, n % 1461)
  let (n1, n) := (n / 365, n % 365)
  let year := n400 * 400 + 1 + n100 * 100 + n4 * 4 + n1
  if n1 = 4 ∨ n100 = 4 then (year - 1, 12, 31)
  else
    let leapyear := n1 = 3 ∧ (n4 ≠ 24 ∨ n100 = 3)
    let month := (n + 50) / 32
    let preceding := daysBeforeMonth month + if month > 2 ∧ leapyear then 1 else 0
    if preceding > n then
      let month := month - 1
      let preceding := preceding - daysInMonth month - if month = 2 ∧ leapyear then 1 else 0
      (year, month, n - preceding + 1)
    else (year, month, n - preceding + 1)

/-- `n` in decimal, with leading zeros up to `width` digits. -/
def padded (width n : Nat) : String :=
  let digits := toString n
  String.ofList (List.replicate (width - digits.length) '0') ++ digits

/-- The date and the time of day, without the offset. -/
def isoformatWall (wall : Int) : String :=
  let (year, month, dayOfMonth) := ord2ymd ((wall / day).toNat + 1)
  let micros := (wall % day).toNat
  let seconds := micros / 1000000
  let fraction := micros % 1000000
  padded 4 year ++ "-" ++ padded 2 month ++ "-" ++ padded 2 dayOfMonth ++ "T" ++
    padded 2 (seconds / 3600) ++ ":" ++ padded 2 (seconds / 60 % 60) ++ ":" ++
    padded 2 (seconds % 60) ++ (if fraction = 0 then "" else "." ++ padded 6 fraction)

/-- `datetime._format_offset`. -/
def formatOffset (offset : Int) : String :=
  let micros := offset.natAbs
  let seconds := micros / 1000000
  let fraction := micros % 1000000
  (if offset < 0 then "-" else "+") ++ padded 2 (seconds / 3600) ++ ":" ++
    padded 2 (seconds / 60 % 60) ++
    (if seconds % 60 = 0 ∧ fraction = 0 then "" else ":" ++ padded 2 (seconds % 60)) ++
    (if fraction = 0 then "" else "." ++ padded 6 fraction)

/-- `a.isoformat()`. -/
def Aware.isoformat (a : Aware) : String := isoformatWall a.wall ++ formatOffset a.offset

def Utc.isoformat (u : Utc) : String := u.toAware.isoformat

/-! ### The text of an offset -/

theorem toList_padded (width n : Nat) : (padded width n).toList =
    List.replicate (width - (Nat.toDigits 10 n).length) '0' ++ Nat.toDigits 10 n := by
  simp [padded, ← String.length_toList]

theorem isDigit_of_mem_padded {width n : Nat} {c : Char} (h : c ∈ (padded width n).toList) :
    c.isDigit = true := by
  rw [toList_padded, List.mem_append] at h
  rcases h with h | h
  · obtain rfl := List.eq_of_mem_replicate h
    rfl
  · exact Nat.isDigit_of_mem_toDigits (by decide) (by decide) h

theorem length_padded {width n : Nat} (hw : 0 < width) (hn : n < 10 ^ width) :
    (padded width n).toList.length = width := by
  have hlen := (Nat.length_toDigits_le_iff (b := 10) (by decide) hw).mpr hn
  rw [toList_padded, List.length_append, List.length_replicate]
  omega

/-- The number that a padded text stands for. -/
theorem ofDigitChars_padded (width n : Nat) : Nat.ofDigitChars 10 (padded width n).toList 0 = n := by
  rw [toList_padded, Nat.ofDigitChars_append, Nat.ofDigitChars_replicate_zero, Nat.mul_zero,
    Nat.ofDigitChars_ten_toDigits]

theorem plus_not_mem_padded (width n : Nat) : '+' ∉ (padded width n).toList :=
  fun h => absurd (isDigit_of_mem_padded h) (by decide)

theorem plus_not_mem_isoformatWall (wall : Int) : '+' ∉ (isoformatWall wall).toList := by
  have hp := plus_not_mem_padded
  unfold isoformatWall
  dsimp only
  split_ifs <;> simp [hp]

theorem plus_not_mem_formatOffset {offset : Int} (h : offset < 0) :
    '+' ∉ (formatOffset offset).toList := by
  have hp := plus_not_mem_padded
  unfold formatOffset
  dsimp only
  rw [if_pos h]
  split_ifs <;> simp [hp]

/-- A padded text of zeros. -/
theorem eq_zero_of_padded {width n k : Nat} (h : (padded width n).toList = List.replicate k '0') :
    n = 0 := by
  have hv := ofDigitChars_padded width n
  rw [h, Nat.ofDigitChars_replicate_zero] at hv
  omega

/-- The text of an offset is that of UTC only if it is zero. -/
theorem offset_eq_zero {offset : Int} (hr : -day < offset ∧ offset < day)
    (h : formatOffset offset = "+00:00") : offset = 0 := by
  have hday : offset.natAbs / 1000000 < 86400 := by
    simp only [day] at hr
    omega
  have hsize := congrArg List.length (congrArg String.toList h)
  have hchars := congrArg String.toList h
  unfold formatOffset at hsize hchars
  dsimp only at hsize hchars
  have hh : (padded 2 (offset.natAbs / 1000000 / 3600)).toList.length = 2 :=
    length_padded (by decide) (by omega)
  have hm : (padded 2 (offset.natAbs / 1000000 / 60 % 60)).toList.length = 2 :=
    length_padded (by decide) (by omega)
  simp only [String.toList_append, List.length_append, hh, hm] at hsize
  have hsign : (if offset < 0 then "-" else "+" : String).toList.length = 1 := by
    split_ifs <;> rfl
  rw [hsign] at hsize
  have hseconds : offset.natAbs / 1000000 % 60 = 0 ∧ offset.natAbs % 1000000 = 0 := by
    by_contra hne
    rw [if_neg hne, String.toList_append, List.length_append] at hsize
    have h1 : (":" : String).toList.length = 1 := rfl
    have h6 : ("+00:00" : String).toList.length = 6 := rfl
    omega
  rw [if_pos hseconds, if_pos hseconds.2] at hchars
  simp only [String.toList_append] at hchars
  obtain ⟨a, b, hab⟩ := List.length_eq_two.mp hh
  obtain ⟨c, d, hcd⟩ := List.length_eq_two.mp hm
  rw [hab, hcd] at hchars
  have hzeros : ∀ s : List Char, s.length = 1 →
      s ++ [a, b] ++ ":".toList ++ [c, d] ++ "".toList ++ "".toList = "+00:00".toList →
      [a, b] = List.replicate 2 '0' ∧ [c, d] = List.replicate 2 '0' := by
    intro s hs he
    obtain ⟨x, rfl⟩ := List.length_eq_one_iff.mp hs
    simp only [List.cons_append, List.nil_append] at he
    obtain ⟨_, ha, hb, _, hc, hd⟩ : x = '+' ∧ a = '0' ∧ b = '0' ∧ ':' = ':' ∧ c = '0' ∧ d = '0' := by
      simpa using he
    rw [ha, hb, hc, hd]
    exact ⟨rfl, rfl⟩
  obtain ⟨h0, m0⟩ := hzeros _ hsign hchars
  have hhours := eq_zero_of_padded (hab.trans h0)
  have hminutes := eq_zero_of_padded (hcd.trans m0)
  omega

/-- An instant is written the same with an offset and in UTC only if the offset is zero. -/
theorem isoformat_eq_iff {a : Aware} {u : Utc} (h : u.instant = a.instant) :
    u.isoformat = a.isoformat ↔ a.offset = 0 := by
  constructor
  · intro he
    -- The wall clock has no plus sign: the text of the offset is what follows it.
    have hdrop := congrArg (fun s : String => s.toList.dropWhile (· ≠ '+')) he
    have hwall : ∀ wall rest, (isoformatWall wall ++ rest : String).toList.dropWhile (· ≠ '+') =
        rest.toList.dropWhile (· ≠ '+') := by
      intro wall rest
      rw [String.toList_append, List.dropWhile_append_of_pos]
      intro c hc
      have hne : c ≠ '+' := fun hplus => plus_not_mem_isoformatWall wall (hplus ▸ hc)
      simpa using hne
    simp only [Utc.isoformat, Aware.isoformat, hwall] at hdrop
    have hutc : (formatOffset u.toAware.offset).toList.dropWhile (· ≠ '+') = "+00:00".toList := by
      show (formatOffset 0).toList.dropWhile (· ≠ '+') = _
      decide
    rw [hutc] at hdrop
    by_cases hneg : a.offset < 0
    · have hplus : '+' ∈ (formatOffset a.offset).toList.dropWhile (· ≠ '+') := by
        rw [← hdrop]
        decide
      exact absurd ((List.dropWhile_suffix _).subset hplus) (plus_not_mem_formatOffset hneg)
    · obtain ⟨rest, hrest⟩ : ∃ rest, (formatOffset a.offset).toList = '+' :: rest := by
        unfold formatOffset
        rw [if_neg hneg]
        exact ⟨_, by simp only [String.toList_append, List.append_assoc]; rfl⟩
      have hkeep : List.dropWhile (fun c => decide (c ≠ '+')) ('+' :: rest) = '+' :: rest := rfl
      refine offset_eq_zero a.offset_range (String.toList_injective ?_)
      rw [hrest, hkeep] at hdrop
      rw [hrest, hdrop]
  · intro ho
    have hwall : u.instant = a.wall := by rw [h, Aware.instant, ho, Int.sub_zero]
    simp only [Utc.isoformat, Aware.isoformat, Utc.toAware, ho, hwall]
end Valor.Python
