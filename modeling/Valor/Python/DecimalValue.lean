/-
  What a `Decimal` is worth, and the arithmetic of contexts in terms of it.

  A value has many representations, with more or fewer trailing zeros. Rounding to the
  precision of a context does not tell them apart (`toRat_fix`): it rounds the value to its
  leading digits. A result that needs no more digits than the context has is exact, any
  other is off by at most one unit of the last digit kept.
-/
import Valor.Lib.Rounding
import Valor.Python.Decimal
import Mathlib.Algebra.Order.Field.Power
import Mathlib.Data.Rat.Floor

namespace Valor.Python.Decimal

open Rounding

def toRat (a : Decimal) : ℚ := a.coefficient * 10 ^ a.exponent

theorem toRat_eq_scaled {a : Decimal} {e : Int} (h : e ≤ a.exponent) :
    a.toRat = a.scaled e * 10 ^ e := by
  have hexp : a.exponent = ((a.exponent - e).toNat : ℤ) + e := by omega
  rw [toRat, scaled]
  push_cast
  rw [mul_assoc, ← zpow_natCast (10 : ℚ), ← zpow_add₀ (by norm_num), ← hexp]

theorem le_iff_toRat {a b : Decimal} : a ≤ b ↔ a.toRat ≤ b.toRat := by
  have hpos : (0 : ℚ) < 10 ^ min a.exponent b.exponent := by positivity
  rw [toRat_eq_scaled (min_le_left a.exponent b.exponent),
    toRat_eq_scaled (min_le_right a.exponent b.exponent),
    mul_le_mul_iff_left₀ hpos, Int.cast_le]
  exact Iff.rfl

theorem lt_iff_toRat {a b : Decimal} : a < b ↔ a.toRat < b.toRat := by
  have hpos : (0 : ℚ) < 10 ^ min a.exponent b.exponent := by positivity
  rw [toRat_eq_scaled (min_le_left a.exponent b.exponent),
    toRat_eq_scaled (min_le_right a.exponent b.exponent),
    mul_lt_mul_iff_left₀ hpos, Int.cast_lt]
  exact Iff.rfl

theorem eq_iff_toRat {a b : Decimal} : a.eq b ↔ a.toRat = b.toRat := by
  rw [Decimal.eq, le_iff_toRat, le_iff_toRat, le_antisymm_iff]

@[simp] theorem toRat_ofInt (n : Int) : (ofInt n).toRat = n := by
  simp [toRat, ofInt]

@[simp] theorem toRat_zero : (0 : Decimal).toRat = 0 := toRat_ofInt 0

theorem atPlaces_eq_some {places : Nat} {a : Decimal} {n : Int} :
    a.atPlaces places = some n ↔ a.toRat = n * 10 ^ (-places : ℤ) := by
  have hpos : (0 : ℚ) < 10 ^ (-places : ℤ) := by positivity
  unfold atPlaces
  dsimp only
  split
  · next he => rw [Option.some_inj, toRat_eq_scaled he, mul_left_inj' hpos.ne', Int.cast_inj]
  · next he =>
    -- The exponent is lower, so the value needs zeros at the end of the coefficient.
    have hexp : (-places : ℤ) = ((-places - a.exponent).toNat : ℤ) + a.exponent := by omega
    have hunit : (10 : ℚ) ^ (-places : ℤ) = 10 ^ (-places - a.exponent).toNat * 10 ^ a.exponent := by
      conv_lhs => rw [hexp]
      rw [zpow_add₀ (by norm_num), zpow_natCast]
    have hvalue : a.toRat = n * 10 ^ (-places : ℤ) ↔
        a.coefficient = n * 10 ^ (-places - a.exponent).toNat := by
      have hexpPos : (0 : ℚ) < 10 ^ a.exponent := by positivity
      rw [hunit, toRat, ← mul_assoc, mul_left_inj' hexpPos.ne']
      exact_mod_cast Iff.rfl
    have hten : (10 : ℤ) ^ (-places - a.exponent).toNat ≠ 0 := by positivity
    rw [hvalue]
    split
    · next hmod =>
      rw [Option.some_inj]
      constructor
      · rintro rfl
        exact (Int.ediv_mul_cancel (Int.dvd_of_emod_eq_zero hmod)).symm
      · intro h
        rw [h, Int.mul_ediv_cancel _ hten]
    · next hmod =>
      refine ⟨nofun, fun h => ?_⟩
      rw [h, Int.mul_emod_left] at hmod
      exact absurd rfl hmod

theorem fits_iff {digits places : Nat} {a : Decimal} :
    a.Fits digits places ↔
      ∃ n : Int, a.toRat = n * 10 ^ (-places : ℤ) ∧ n.natAbs < 10 ^ digits := by
  simp [Fits, Option.any_eq_true, atPlaces_eq_some]

/-- The rounded quotient of integers is the rounded quotient. -/
theorem divHalfEven_eq (n : Int) {d : Nat} (hd : 0 < d) :
    divHalfEven n d = roundHalfEven ((n : ℚ) / d) := by
  have hdpos : (0 : ℚ) < d := by exact_mod_cast hd
  have hfloor : ⌊(n : ℚ) / d⌋ = n / d := Rat.floor_intCast_div_natCast n d
  have hfract : Int.fract ((n : ℚ) / d) = (n % d : ℤ) / d := by
    rw [← Int.self_sub_floor, hfloor, Int.emod_def, eq_div_iff (ne_of_gt hdpos), sub_mul,
      div_mul_cancel₀ _ (ne_of_gt hdpos)]
    push_cast
    ring
  have hdown : 2 * Int.fract ((n : ℚ) / d) < 1 ↔ 2 * (n % d) < d := by
    rw [hfract, ← mul_div_assoc, div_lt_one hdpos]
    exact_mod_cast Iff.rfl
  have hup : 1 < 2 * Int.fract ((n : ℚ) / d) ↔ (d : ℤ) < 2 * (n % d) := by
    rw [hfract, ← mul_div_assoc, one_lt_div hdpos]
    exact_mod_cast Iff.rfl
  unfold divHalfEven roundHalfEven
  simp only [hdown, hup, hfloor]

/-! ## Digits -/

theorem digitCount_mul_pow {n : Nat} (hn : 0 < n) (j : Nat) :
    digitCount (n * 10 ^ j) = digitCount n + j := by
  have hlen : (Nat.digits 10 (n * 10 ^ j)).length = (Nat.digits 10 n).length + j := by
    rw [mul_comm, Nat.digits_base_pow_mul (by decide) hn]
    simp [add_comm]
  have hpos : 0 < (Nat.digits 10 n).length :=
    List.length_pos_iff.mpr (Nat.digits_ne_nil_iff_ne_zero.mpr (by omega))
  rw [digitCount, digitCount, hlen]
  omega

theorem pow_le_of_digitCount {n k : Nat} (hk : 0 < k) (h : k < digitCount n) : 10 ^ k ≤ n := by
  by_contra hlt
  have hle := (digitCount_le_iff hk).mpr (not_le.mp hlt)
  omega

theorem lt_pow_digitCount (n : Nat) : n < 10 ^ digitCount n :=
  (digitCount_le_iff (by unfold digitCount; omega)).mp le_rfl

/-- `n * 10 ^ u`, rounded to `prec` digits. -/
def roundDigits (prec : Nat) (n u : Int) : ℚ :=
  roundHalfEven ((n : ℚ) / 10 ^ (digitCount n.natAbs - prec)) *
    10 ^ ((digitCount n.natAbs - prec : ℕ) + u)

theorem roundDigits_of_lt {prec : Nat} {n : Int} (u : Int) (hp : 0 < prec)
    (h : n.natAbs < 10 ^ prec) : roundDigits prec n u = n * 10 ^ u := by
  have hcount := (digitCount_le_iff hp).mpr h
  have hzero : digitCount n.natAbs - prec = 0 := by omega
  rw [roundDigits, hzero, pow_zero, div_one, roundHalfEven_intCast, Nat.cast_zero, zero_add]

/-- A zero moved from the coefficient to the exponent changes nothing. -/
theorem roundDigits_shift {prec : Nat} (hp : 0 < prec) (n u : Int) (j : Nat) :
    roundDigits prec (n * 10 ^ j) u = roundDigits prec n (j + u) := by
  by_cases hn : n = 0
  · subst hn
    rw [zero_mul, roundDigits_of_lt u hp (by positivity), roundDigits_of_lt _ hp (by positivity)]
    simp
  have hcount : digitCount (n * 10 ^ j).natAbs = digitCount n.natAbs + j := by
    rw [Int.natAbs_mul, Int.natAbs_pow]
    exact digitCount_mul_pow (Int.natAbs_pos.mpr hn) j
  rw [roundDigits, hcount]
  push_cast
  by_cases hlong : prec ≤ digitCount n.natAbs
  · have hexcess : digitCount n.natAbs + j - prec = digitCount n.natAbs - prec + j := by omega
    rw [hexcess, pow_add, mul_div_mul_right _ _ (by positivity), roundDigits, Nat.cast_add, add_assoc]
  · -- The digits dropped are zeros.
    have hle : digitCount n.natAbs + j - prec ≤ j := by omega
    have hlt : n.natAbs < 10 ^ prec := (digitCount_le_iff hp).mp (by omega)
    have hsplit : (10 : ℚ) ^ j =
        10 ^ (j - (digitCount n.natAbs + j - prec)) * 10 ^ (digitCount n.natAbs + j - prec) := by
      rw [← pow_add, Nat.sub_add_cancel hle]
    have hcast : (n : ℚ) * 10 ^ (j - (digitCount n.natAbs + j - prec)) =
        ((n * 10 ^ (j - (digitCount n.natAbs + j - prec)) : ℤ) : ℚ) := by push_cast; rfl
    rw [roundDigits_of_lt _ hp hlt, hsplit, ← mul_assoc, mul_div_cancel_right₀ _ (by positivity),
      hcast, roundHalfEven_intCast]
    push_cast
    rw [mul_assoc, ← zpow_natCast (10 : ℚ), ← zpow_add₀ (by norm_num)]
    congr 2
    omega

/-- The last digit kept bounds the error. -/
theorem abs_roundDigits_sub_le {prec : Nat} (hp : 1 < prec) (n u : Int) :
    |roundDigits prec n u - n * 10 ^ u| ≤ |(n * 10 ^ u : ℚ)| / 10 ^ (prec - 1) := by
  by_cases hlong : prec < digitCount n.natAbs
  · have hsub : prec - 1 + (digitCount n.natAbs - prec) < digitCount n.natAbs := by omega
    have hn : 10 ^ (prec - 1 + (digitCount n.natAbs - prec)) ≤ n.natAbs :=
      pow_le_of_digitCount (by omega) hsub
    have habs : (10 : ℚ) ^ (prec - 1) * 10 ^ (digitCount n.natAbs - prec) ≤ |(n : ℚ)| := by
      rw [← pow_add, ← Int.cast_abs, Int.abs_eq_natAbs]
      exact_mod_cast hn
    have hunit : (10 : ℚ) ^ (digitCount n.natAbs - prec) ≤ |(n : ℚ)| / 10 ^ (prec - 1) := by
      rw [le_div_iff₀ (by positivity), mul_comm]
      exact habs
    have hround := abs_sub_roundHalfEven_le ((n : ℚ) / 10 ^ (digitCount n.natAbs - prec))
    rw [abs_sub_comm] at hround
    unfold roundDigits
    generalize digitCount n.natAbs - prec = k at hunit hround ⊢
    have hpow : (0 : ℚ) < 10 ^ k := by positivity
    have hu : (0 : ℚ) < 10 ^ u := by positivity
    calc |(roundHalfEven ((n : ℚ) / 10 ^ k) : ℚ) * 10 ^ ((k : ℤ) + u) - n * 10 ^ u|
        = |(roundHalfEven ((n : ℚ) / 10 ^ k) - (n : ℚ) / 10 ^ k) * (10 ^ k * 10 ^ u)| := by
          rw [zpow_add₀ (by norm_num), zpow_natCast]
          congr 1
          field_simp
      _ = |(roundHalfEven ((n : ℚ) / 10 ^ k) - (n : ℚ) / 10 ^ k)| * (10 ^ k * 10 ^ u) := by
          rw [abs_mul, abs_of_pos (mul_pos hpow hu)]
      _ ≤ 1 * (10 ^ k * 10 ^ u) := by
          gcongr
          linarith
      _ ≤ |(n : ℚ)| / 10 ^ (prec - 1) * 10 ^ u := by
          rw [one_mul]
          gcongr
      _ = |(n * 10 ^ u : ℚ)| / 10 ^ (prec - 1) := by
          rw [abs_mul, abs_of_pos hu, div_mul_eq_mul_div]
  · have hlt : n.natAbs < 10 ^ prec := (digitCount_le_iff (by omega)).mp (by omega)
    rw [roundDigits_of_lt u (by omega) hlt, sub_self, abs_zero]
    positivity

theorem roundDigits_congr {prec : Nat} (hp : 0 < prec) {n u m v : Int}
    (h : (n : ℚ) * 10 ^ u = m * 10 ^ v) : roundDigits prec n u = roundDigits prec m v := by
  wlog huv : u ≤ v generalizing n u m v
  · exact (this h.symm (by omega)).symm
  have hv : v = ((v - u).toNat : ℤ) + u := by omega
  have hn : n = m * 10 ^ (v - u).toNat := by
    have hu : (10 : ℚ) ^ u ≠ 0 := by positivity
    rw [hv, zpow_add₀ (by norm_num), zpow_natCast, ← mul_assoc] at h
    exact_mod_cast mul_right_cancel₀ hu h
  rw [hn, roundDigits_shift hp, ← hv]

/-! ## Operations of a context -/

/-- Rounding up past the last digit gives a power of ten. -/
theorem divHalfEven_overflow {prec excess : Nat} {n : Int} (h : n.natAbs < 10 ^ (prec + excess))
    (hlong : 10 ^ prec ≤ (divHalfEven n (10 ^ excess)).natAbs) :
    (divHalfEven n (10 ^ excess)).natAbs = 10 ^ prec := by
  have hpow : (0 : ℚ) < 10 ^ excess := by positivity
  have hn : |(n : ℚ)| ≤ 10 ^ prec * 10 ^ excess := by
    rw [← pow_add, ← Int.cast_abs, Int.abs_eq_natAbs]
    exact_mod_cast h.le
  obtain ⟨hlow, hhigh⟩ := abs_le.mp hn
  rw [divHalfEven_eq n (by positivity)] at hlong ⊢
  push_cast at hlong ⊢
  have hle : roundHalfEven ((n : ℚ) / 10 ^ excess) ≤ roundHalfEven (((10 ^ prec : ℤ) : ℚ)) := by
    refine roundHalfEven_mono ?_
    rw [div_le_iff₀ hpow]
    exact_mod_cast hhigh
  have hge : roundHalfEven (((-10 ^ prec : ℤ) : ℚ)) ≤ roundHalfEven ((n : ℚ) / 10 ^ excess) := by
    refine roundHalfEven_mono ?_
    rw [le_div_iff₀ hpow]
    push_cast
    linarith
  rw [roundHalfEven_intCast] at hle hge
  have habs : (roundHalfEven ((n : ℚ) / 10 ^ excess)).natAbs ≤ 10 ^ prec := by
    zify
    rw [abs_le]
    exact ⟨hge, hle⟩
  omega

theorem toRat_fix_self {prec : Nat} (hp : 0 < prec) (a : Decimal) :
    (fix prec a).toRat = roundDigits prec a.coefficient a.exponent := by
  unfold fix roundDigits
  dsimp only
  split
  · next hzero => rw [hzero, pow_zero, div_one, roundHalfEven_intCast, Nat.cast_zero, zero_add, toRat]
  · next hexcess =>
    have hbound : a.coefficient.natAbs <
        10 ^ (prec + (digitCount a.coefficient.natAbs - prec)) := by
      have hcount := lt_pow_digitCount a.coefficient.natAbs
      rwa [Nat.add_sub_cancel' (by omega)]
    have hround : divHalfEven a.coefficient (10 ^ (digitCount a.coefficient.natAbs - prec)) =
        roundHalfEven ((a.coefficient : ℚ) / 10 ^ (digitCount a.coefficient.natAbs - prec)) := by
      rw [divHalfEven_eq _ (by positivity)]
      push_cast
      rfl
    split
    · next hlong =>
      have hten := divHalfEven_overflow hbound (pow_le_of_digitCount hp hlong)
      have hdvd : (10 : ℤ) ∣ divHalfEven a.coefficient
          (10 ^ (digitCount a.coefficient.natAbs - prec)) := by
        rw [← Int.dvd_natAbs, hten]
        exact_mod_cast dvd_pow_self 10 (by omega)
      obtain ⟨c, hc⟩ := hdvd
      rw [← hround, hc, Int.mul_ediv_cancel_left _ (by norm_num), toRat]
      push_cast
      rw [show a.exponent + ((digitCount a.coefficient.natAbs - prec : ℕ) : ℤ) + 1 =
        ((digitCount a.coefficient.natAbs - prec : ℕ) + a.exponent) + 1 by ring,
        zpow_add_one₀ (by norm_num)]
      ring
    · rw [← hround, toRat, add_comm a.exponent]

variable {prec : Nat} {a b : Decimal} {n u : Int}

/-- `_fix` of any representation. -/
theorem toRat_fix (hp : 0 < prec) (h : a.toRat = n * 10 ^ u) :
    (fix prec a).toRat = roundDigits prec n u := by
  rw [toRat_fix_self hp]
  exact roundDigits_congr hp h

theorem toRat_add (hp : 0 < prec) (h : a.toRat + b.toRat = n * 10 ^ u) :
    (add prec a b).toRat = roundDigits prec n u := by
  refine toRat_fix hp ?_
  rw [← h, toRat_eq_scaled (min_le_left a.exponent b.exponent),
    toRat_eq_scaled (min_le_right a.exponent b.exponent), toRat]
  push_cast
  ring

/-- A sum depends on the values only. -/
theorem toRat_add_congr {a' b' : Decimal} (hp : 0 < prec) (ha : a.toRat = a'.toRat)
    (hb : b.toRat = b'.toRat) : (add prec a b).toRat = (add prec a' b').toRat := by
  have hsum : a'.toRat + b'.toRat =
      (a'.scaled (min a'.exponent b'.exponent) + b'.scaled (min a'.exponent b'.exponent) : ℤ) *
        10 ^ min a'.exponent b'.exponent := by
    rw [toRat_eq_scaled (min_le_left a'.exponent b'.exponent),
      toRat_eq_scaled (min_le_right a'.exponent b'.exponent)]
    push_cast
    ring
  rw [toRat_add hp hsum, toRat_add hp (by rw [ha, hb, hsum])]

theorem toRat_mul (hp : 0 < prec) (h : a.toRat * b.toRat = n * 10 ^ u) :
    (mul prec a b).toRat = roundDigits prec n u := by
  refine toRat_fix hp ?_
  rw [← h, toRat, toRat, toRat, zpow_add₀ (by norm_num)]
  push_cast
  ring

theorem toRat_trim (ideal : Int) (fuel : Nat) (a : Decimal) : (trim ideal fuel a).toRat = a.toRat := by
  induction fuel generalizing a with
  | zero => rfl
  | succ fuel ih =>
    unfold trim
    split
    · next h =>
      rw [ih, toRat, toRat]
      obtain ⟨c, hc⟩ := Int.dvd_of_emod_eq_zero h.2
      rw [hc, Int.mul_ediv_cancel_left _ (by norm_num), zpow_add_one₀ (by norm_num)]
      push_cast
      ring
    · rfl

/-- `quantize` rounds the value. -/
theorem quantize_eq (prec : Nat) (e : Int) (a : Decimal) :
    quantize prec e a =
      if digitCount (roundHalfEven (a.toRat / 10 ^ e)).natAbs ≤ prec then
        .ok ⟨roundHalfEven (a.toRat / 10 ^ e), e⟩
      else .error ⟨⟩ := by
  have hcoefficient : (if e ≤ a.exponent then a.scaled e
      else divHalfEven a.coefficient (10 ^ (e - a.exponent).toNat)) =
      roundHalfEven (a.toRat / 10 ^ e) := by
    split
    · next he =>
      rw [toRat_eq_scaled he, mul_div_cancel_right₀ _ (by positivity), roundHalfEven_intCast]
    · next he =>
      rw [divHalfEven_eq _ (by positivity), toRat, mul_div_assoc, ← zpow_sub₀ (by norm_num)]
      have hexp : a.exponent - e = -((e - a.exponent).toNat : ℤ) := by omega
      rw [hexp, zpow_neg, zpow_natCast, div_eq_mul_inv]
      push_cast
      rfl
  unfold quantize
  rw [hcoefficient]

/-- Rounding leaves a value with too many digits above all that have few enough. -/
theorem pow_le_roundDigits (hp : 0 < prec) (hn : 10 ^ prec ≤ n) :
    10 ^ prec * 10 ^ u ≤ roundDigits prec n u := by
  have hn0 : 0 ≤ n := le_trans (by positivity) hn
  have hlong : prec < digitCount n.natAbs := by
    by_contra hshort
    have hlt := (digitCount_le_iff hp).mp (not_lt.mp hshort)
    zify at hlt
    rw [abs_of_nonneg hn0] at hlt
    exact absurd hn (not_le.mpr hlt)
  have hlow : 10 ^ (digitCount n.natAbs - 1) ≤ n.natAbs :=
    pow_le_of_digitCount (by omega) (by omega)
  have hlow' : (10 : ℚ) ^ (prec - 1) * 10 ^ (digitCount n.natAbs - prec) ≤ n := by
    have hsum : prec - 1 + (digitCount n.natAbs - prec) = digitCount n.natAbs - 1 := by omega
    have habs : ((10 : ℤ) ^ (digitCount n.natAbs - 1)) ≤ n := by
      zify at hlow
      rwa [abs_of_nonneg hn0] at hlow
    rw [← pow_add, hsum]
    exact_mod_cast habs
  have hround : roundHalfEven (((10 ^ (prec - 1) : ℤ) : ℚ)) ≤
      roundHalfEven ((n : ℚ) / 10 ^ (digitCount n.natAbs - prec)) := by
    refine roundHalfEven_mono ?_
    rw [le_div_iff₀ (by positivity)]
    push_cast
    exact hlow'
  rw [roundHalfEven_intCast] at hround
  have hround' : (10 : ℚ) ^ (prec - 1) ≤
      roundHalfEven ((n : ℚ) / 10 ^ (digitCount n.natAbs - prec)) := by exact_mod_cast hround
  calc (10 : ℚ) ^ prec * 10 ^ u = 10 ^ (prec - 1) * 10 * 10 ^ u := by
        rw [← pow_succ, Nat.sub_add_cancel hp]
    _ ≤ 10 ^ (prec - 1) * 10 ^ (digitCount n.natAbs - prec) * 10 ^ u := by
        gcongr
        exact le_self_pow₀ (by norm_num) (by omega)
    _ ≤ roundHalfEven ((n : ℚ) / 10 ^ (digitCount n.natAbs - prec)) *
        10 ^ (digitCount n.natAbs - prec) * 10 ^ u := by gcongr
    _ = roundDigits prec n u := by
        rw [roundDigits, zpow_add₀ (by norm_num), zpow_natCast, mul_assoc]

/-- A sum compares like the exact sum with a value that the context holds in its unit. -/
theorem add_le_iff {l : Decimal} {m k : Int} (hp : 0 < prec) (ha : a.toRat = m * 10 ^ u)
    (hb : b.toRat = n * 10 ^ u) (hl : l.toRat = k * 10 ^ u) (hnonneg : 0 ≤ m + n)
    (hk : k < 10 ^ prec) : add prec a b ≤ l ↔ m + n ≤ k := by
  have hpow : (0 : ℚ) < 10 ^ u := by positivity
  have hsum : a.toRat + b.toRat = (m + n : ℤ) * 10 ^ u := by
    rw [ha, hb]
    push_cast
    ring
  rw [le_iff_toRat, toRat_add hp hsum, hl]
  by_cases hfew : m + n < 10 ^ prec
  · rw [roundDigits_of_lt u hp (by zify; rwa [abs_of_nonneg hnonneg]),
      mul_le_mul_iff_left₀ hpow, Int.cast_le]
  · have hmany : 10 ^ prec ≤ m + n := not_lt.mp hfew
    have hkq : (k : ℚ) < 10 ^ prec := by exact_mod_cast hk
    refine iff_of_false (not_le.mpr ?_) (by omega)
    calc (k : ℚ) * 10 ^ u < 10 ^ prec * 10 ^ u := by gcongr
      _ ≤ roundDigits prec (m + n) u := pow_le_roundDigits hp hmany

/-! ## Division -/

/-- The digits by which `__truediv__` extends the quotient of two coefficients. -/
def divShift (prec n d : Nat) : Int := digitCount d - digitCount n + prec + 1

/-- The extended quotient of `__truediv__`, before its last digit is made sticky. -/
theorem div_quotient (prec : Nat) {n d : Nat} (hn : 0 < n) (hd : 0 < d) :
    (n * 10 ^ (divShift prec n d).toNat : ℚ) / (d * 10 ^ (-divShift prec n d).toNat) =
      n / d * 10 ^ divShift prec n d ∧
    10 ^ prec ≤ n * 10 ^ (divShift prec n d).toNat / (d * 10 ^ (-divShift prec n d).toNat) := by
  have hd' : (d : ℚ) ≠ 0 := by exact_mod_cast hd.ne'
  have hshift : divShift prec n d =
      ((divShift prec n d).toNat : ℤ) - ((-divShift prec n d).toNat : ℤ) := by omega
  have hcounts : ((divShift prec n d).toNat : ℤ) + digitCount n =
      digitCount d + prec + 1 + (-divShift prec n d).toNat := by
    have hdef : divShift prec n d = digitCount d - digitCount n + prec + 1 := rfl
    omega
  constructor
  · conv_rhs => rw [hshift]
    rw [zpow_sub₀ (by norm_num), zpow_natCast, zpow_natCast]
    field_simp
  · rw [Nat.le_div_iff_mul_le (by positivity)]
    generalize (divShift prec n d).toNat = s at hcounts ⊢
    generalize (-divShift prec n d).toNat = t at hcounts ⊢
    have hlow : 10 ^ (digitCount n - 1) ≤ n := by
      by_cases hone : digitCount n = 1
      · rw [hone]
        exact hn
      · have hcount : 1 ≤ digitCount n := by
          unfold digitCount
          omega
        exact pow_le_of_digitCount (by omega) (by omega)
    have hcount : 1 ≤ digitCount n := by
      unfold digitCount
      omega
    calc 10 ^ prec * (d * 10 ^ t) ≤ 10 ^ prec * (10 ^ digitCount d * 10 ^ t) := by
          gcongr
          exact (lt_pow_digitCount d).le
      _ = 10 ^ (digitCount n - 1) * 10 ^ s := by
          rw [← pow_add, ← pow_add, ← pow_add]
          congr 1
          omega
      _ ≤ n * 10 ^ s := by gcongr

/-- The quotient that is rounded: the exact one, or a quotient of more than `prec` digits
    that is less than one off where the exact one ends later. -/
theorem toRat_div (hp : 0 < prec) (ha : 0 ≤ a.coefficient) (hb : 0 < b.coefficient) :
    ∃ (q : Nat) (e : Int), (div prec a b).toRat = roundDigits prec q e ∧
      ((q : ℚ) * 10 ^ e = a.toRat / b.toRat ∨
        10 ^ prec * 10 ^ e ≤ a.toRat / b.toRat ∧
        |(q : ℚ) * 10 ^ e - a.toRat / b.toRat| ≤ 10 ^ e ∧
        ∀ m : Int, a.toRat / b.toRat ≠ m * 10 ^ e) := by
  have hacast : (a.coefficient : ℚ) = a.coefficient.natAbs := by
    rw [← Int.cast_natCast, Int.natAbs_of_nonneg ha]
  have hbcast : (b.coefficient : ℚ) = b.coefficient.natAbs := by
    rw [← Int.cast_natCast, Int.natAbs_of_nonneg hb.le]
  have hvalue : a.toRat / b.toRat =
      a.coefficient.natAbs / b.coefficient.natAbs * 10 ^ (a.exponent - b.exponent) := by
    rw [toRat, toRat, hacast, hbcast, zpow_sub₀ (by norm_num), mul_div_mul_comm]
  have hd : 0 < b.coefficient.natAbs := Int.natAbs_pos.mpr hb.ne'
  unfold div
  dsimp only
  split
  · next hzero =>
    refine ⟨0, 0, ?_, .inl ?_⟩
    · rw [roundDigits_of_lt _ hp (by positivity)]
      simp [toRat]
    · rw [hvalue, hzero]
      simp
  · next hne =>
    have hn : 0 < a.coefficient.natAbs := by omega
    obtain ⟨hquotient, hlong⟩ := div_quotient prec hn hd
    change 10 ^ prec ≤ _ at hlong
    rw [show (digitCount b.coefficient.natAbs - digitCount a.coefficient.natAbs + prec + 1 : ℤ) =
      divShift prec a.coefficient.natAbs b.coefficient.natAbs from rfl]
    generalize divShift prec a.coefficient.natAbs b.coefficient.natAbs = shift at *
    have hx : a.toRat / b.toRat =
        ((a.coefficient.natAbs * 10 ^ shift.toNat : ℕ) : ℚ) /
          ((b.coefficient.natAbs * 10 ^ (-shift).toNat : ℕ) : ℚ) *
          10 ^ (a.exponent - b.exponent - shift) := by
      push_cast
      rw [hquotient, hvalue, mul_assoc, ← zpow_add₀ (by norm_num)]
      congr 2
      ring
    have hd' : 0 < b.coefficient.natAbs * 10 ^ (-shift).toNat := by positivity
    generalize a.coefficient.natAbs * 10 ^ shift.toNat = n' at hlong hx ⊢
    generalize b.coefficient.natAbs * 10 ^ (-shift).toNat = d' at hlong hx hd' ⊢
    generalize a.exponent - b.exponent - shift = e at hx ⊢
    have hd'' : (0 : ℚ) < d' := by exact_mod_cast hd'
    have he : (0 : ℚ) < 10 ^ e := by positivity
    have hdivmod : (n' : ℚ) / d' = (n' / d' : ℕ) + (n' % d' : ℕ) / d' := by
      have hcast : (d' : ℚ) * (n' / d' : ℕ) + (n' % d' : ℕ) = n' := by
        exact_mod_cast Nat.div_add_mod n' d'
      rw [div_eq_iff hd''.ne', add_mul, div_mul_cancel₀ _ hd''.ne', ← hcast, mul_comm (d' : ℚ)]
    split
    · next hmod =>
      refine ⟨n' / d', e, ?_, .inl ?_⟩
      · exact toRat_fix hp (toRat_trim ..)
      · rw [hx, hdivmod, hmod, Nat.cast_zero, zero_div, add_zero]
    · next hmod =>
      have hrem : (0 : ℚ) < (n' % d' : ℕ) / d' :=
        div_pos (by exact_mod_cast Nat.pos_of_ne_zero hmod) hd''
      have hrem' : ((n' % d' : ℕ) : ℚ) / d' < 1 := by
        rw [div_lt_one hd'']
        exact_mod_cast Nat.mod_lt n' hd'
      refine ⟨if n' / d' % 5 = 0 then n' / d' + 1 else n' / d', e, ?_, .inr ⟨?_, ?_, ?_⟩⟩
      · refine toRat_fix hp ?_
        rw [toRat]
        push_cast
        split_ifs <;> rfl
      · rw [hx]
        gcongr
        rw [hdivmod]
        have hq : ((10 ^ prec : ℕ) : ℚ) ≤ (n' / d' : ℕ) := by exact_mod_cast hlong
        push_cast at hq
        linarith
      · rw [hx, ← sub_mul, abs_mul, abs_of_pos he]
        refine mul_le_of_le_one_left he.le ?_
        rw [hdivmod, abs_le]
        split_ifs <;> push_cast <;> constructor <;> linarith
      · intro m hm
        rw [hx] at hm
        have hinteger := mul_right_cancel₀ he.ne' hm
        rw [hdivmod] at hinteger
        have hlow : (((n' / d' : ℕ) : ℤ) : ℚ) < m := by
          rw [Int.cast_natCast]
          linarith
        have hhigh : (m : ℚ) < (((n' / d' : ℕ) : ℤ) + 1 : ℤ) := by
          rw [Int.cast_add, Int.cast_natCast, Int.cast_one]
          linarith
        have hlow' := Int.cast_lt.mp hlow
        have hhigh' := Int.cast_lt.mp hhigh
        exact absurd (Int.lt_add_one_iff.mp hhigh') (not_le.mpr hlow')

/-- A quotient that the context can hold is exact. -/
theorem toRat_div_exact (hp : 0 < prec) (ha : 0 ≤ a.coefficient) (hb : 0 < b.coefficient)
    (h : a.toRat / b.toRat = n * 10 ^ u) (hn : n.natAbs < 10 ^ prec) :
    (div prec a b).toRat = a.toRat / b.toRat := by
  obtain ⟨q, e, hdiv, hexact | ⟨hlong, -, hnot⟩⟩ := toRat_div hp ha hb
  · have hsame : ((q : ℤ) : ℚ) * 10 ^ e = n * 10 ^ u := by
      rw [← h, ← hexact]
      rfl
    rw [hdiv, roundDigits_congr hp hsame, roundDigits_of_lt u hp hn, h]
  · -- A quotient of so few digits ends at the exponent of the extended one.
    exfalso
    have hn' : (n : ℚ) < 10 ^ prec := by
      have habs : (n.natAbs : ℚ) < ((10 ^ prec : ℕ) : ℚ) := by exact_mod_cast hn
      have hle : (n : ℚ) ≤ n.natAbs := by
        rw [← Int.cast_natCast, Int.cast_le]
        exact Int.le_natAbs
      push_cast at habs
      linarith
    have heu : e ≤ u := by
      by_contra hlt
      have hpow : (10 : ℚ) ^ u < 10 ^ e := zpow_lt_zpow_right₀ (by norm_num) (by omega)
      have hupos : (0 : ℚ) < 10 ^ u := by positivity
      have hppos : (0 : ℚ) < 10 ^ prec := by positivity
      have hless : (n : ℚ) * 10 ^ u < 10 ^ prec * 10 ^ e := by
        calc (n : ℚ) * 10 ^ u < 10 ^ prec * 10 ^ u := by gcongr
          _ < 10 ^ prec * 10 ^ e := by gcongr
      linarith
    refine hnot (n * 10 ^ (u - e).toNat) ?_
    have hu : u = ((u - e).toNat : ℤ) + e := by omega
    conv_lhs => rw [h, hu]
    rw [zpow_add₀ (by norm_num), zpow_natCast]
    push_cast
    ring

/-- Any quotient is off by little more than its last digit. -/
theorem abs_toRat_div_sub_le (hp : 1 < prec) (ha : 0 ≤ a.coefficient) (hb : 0 < b.coefficient) :
    |(div prec a b).toRat - a.toRat / b.toRat| ≤ 3 * (a.toRat / b.toRat) / 10 ^ (prec - 1) := by
  have hx : 0 ≤ a.toRat / b.toRat := by
    have ha' : (0 : ℚ) ≤ a.coefficient := by exact_mod_cast ha
    have hb' : (0 : ℚ) < b.coefficient := by exact_mod_cast hb
    unfold toRat
    positivity
  obtain ⟨q, e, hdiv, hcases⟩ := toRat_div (Nat.zero_lt_of_lt hp) ha hb
  have hround := abs_roundDigits_sub_le hp q e
  rw [← hdiv] at hround
  push_cast at hround
  have hpow : (0 : ℚ) < 10 ^ (prec - 1) := by positivity
  obtain hexact | ⟨hlong, hclose, -⟩ := hcases
  · rw [hexact, abs_of_nonneg hx] at hround
    refine hround.trans ?_
    gcongr
    linarith
  · generalize a.toRat / b.toRat = x at *
    have he : (0 : ℚ) < 10 ^ e := by positivity
    have hunit : (10 : ℚ) ^ e ≤ x / 10 ^ (prec - 1) / 10 := by
      rw [div_div, ← pow_succ, Nat.sub_add_cancel (by omega), le_div_iff₀ (by positivity)]
      linarith
    have hq : |(q : ℚ) * 10 ^ e| ≤ 2 * x := by
      have hsmall : x / 10 ^ (prec - 1) ≤ x := div_le_self hx (one_le_pow₀ (by norm_num))
      rw [abs_of_nonneg (by positivity)]
      have hup := (abs_le.mp hclose).2
      linarith
    calc |(div prec a b).toRat - x|
        ≤ |(div prec a b).toRat - q * 10 ^ e| + |q * 10 ^ e - x| := abs_sub_le ..
      _ ≤ 2 * x / 10 ^ (prec - 1) + x / 10 ^ (prec - 1) / 10 := by
          refine add_le_add (hround.trans ?_) (hclose.trans hunit)
          gcongr
      _ ≤ 3 * x / 10 ^ (prec - 1) := by
          have hnonneg : 0 ≤ x / 10 ^ (prec - 1) := by positivity
          rw [mul_div_assoc, mul_div_assoc]
          linarith

end Valor.Python.Decimal
