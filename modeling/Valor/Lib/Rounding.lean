/-
  Rounding to the nearest integer, ties to the even one.

  Rounding is monotone and at most one half away. A value that is less than one half away
  from an integer rounds to it, so a value that stays clear of every tie by `δ` rounds as
  every value within `δ` of it does (`roundHalfEven_eq_of_close`): a second rounding then
  changes nothing that the first one did not.
-/
import Mathlib.Algebra.Order.Floor.Ring
import Mathlib.Algebra.Order.Field.Basic
import Mathlib.Algebra.Ring.Int.Parity
import Mathlib.Tactic.Linarith
import Mathlib.Tactic.Ring
import Mathlib.Tactic.FieldSimp
import Mathlib.Tactic.GCongr
import Mathlib.Tactic.NormNum

namespace Valor.Rounding

variable {K : Type*} [Field K] [LinearOrder K] [IsStrictOrderedRing K] [FloorRing K]

def roundHalfEven (x : K) : ℤ :=
  if 2 * Int.fract x < 1 then ⌊x⌋
  else if 1 < 2 * Int.fract x then ⌊x⌋ + 1
  else if ⌊x⌋ % 2 = 0 then ⌊x⌋
  else ⌊x⌋ + 1

omit [IsStrictOrderedRing K] in
theorem roundHalfEven_le_floor_add_one (x : K) : roundHalfEven x ≤ ⌊x⌋ + 1 := by
  unfold roundHalfEven
  split_ifs <;> omega

omit [IsStrictOrderedRing K] in
theorem floor_le_roundHalfEven (x : K) : ⌊x⌋ ≤ roundHalfEven x := by
  unfold roundHalfEven
  split_ifs <;> omega

@[simp] theorem roundHalfEven_intCast (n : ℤ) : roundHalfEven (n : K) = n := by
  have hzero : Int.fract (n : K) = 0 := Int.fract_intCast n
  rw [roundHalfEven, hzero, if_pos (by norm_num), Int.floor_intCast]

/-- The nearest integer is at most one half away. -/
theorem abs_sub_roundHalfEven_le (x : K) : |x - roundHalfEven x| ≤ 1 / 2 := by
  have hx : x - ⌊x⌋ = Int.fract x := Int.self_sub_floor x
  have hnonneg := Int.fract_nonneg x
  have hlt := Int.fract_lt_one x
  unfold roundHalfEven
  split_ifs <;> push_cast <;> rw [abs_le] <;> constructor <;> linarith

/-- An integer less than one half away is the nearest. -/
theorem roundHalfEven_eq_of_abs_lt {x : K} {n : ℤ} (h : |x - n| < 1 / 2) :
    roundHalfEven x = n := by
  obtain ⟨hlow, hhigh⟩ := abs_lt.mp h
  obtain ⟨hlow', hhigh'⟩ := abs_le.mp (abs_sub_roundHalfEven_le x)
  have hup : (roundHalfEven x : K) < (n + 1 : ℤ) := by
    push_cast
    linarith
  have hdown : (n : K) < (roundHalfEven x + 1 : ℤ) := by
    push_cast
    linarith
  have hup' := Int.cast_lt.mp hup
  have hdown' := Int.cast_lt.mp hdown
  omega

/-- Between two values with the same floor only the fractional part decides. -/
theorem roundHalfEven_mono {x y : K} (hxy : x ≤ y) : roundHalfEven x ≤ roundHalfEven y := by
  rcases lt_or_eq_of_le (Int.floor_le_floor hxy) with hlt | heq
  · have hx := roundHalfEven_le_floor_add_one x
    have hy := floor_le_roundHalfEven y
    omega
  · have hfract : Int.fract x ≤ Int.fract y := by
      have hx : x - ⌊x⌋ = Int.fract x := Int.self_sub_floor x
      have hy : y - ⌊y⌋ = Int.fract y := Int.self_sub_floor y
      rw [heq] at hx
      linarith
    by_cases hup : 1 < 2 * Int.fract y
    · have hy : roundHalfEven y = ⌊y⌋ + 1 := by
        rw [roundHalfEven, if_neg (by linarith), if_pos hup]
      have hx := roundHalfEven_le_floor_add_one x
      omega
    · by_cases hdown : 2 * Int.fract x < 1
      · have hx : roundHalfEven x = ⌊x⌋ := by rw [roundHalfEven, if_pos hdown]
        have hy := floor_le_roundHalfEven y
        omega
      · -- Both are the tie above the same floor.
        have hnot : ¬2 * Int.fract y < 1 := by linarith
        have hnot' : ¬1 < 2 * Int.fract x := by linarith
        have hsame : roundHalfEven x = roundHalfEven y := by
          rw [roundHalfEven, if_neg hdown, if_neg hnot', roundHalfEven, if_neg hnot, if_neg hup, heq]
        exact le_of_eq hsame

/-- Two values within `δ` round the same, if one of them is `δ` away from every tie. -/
theorem roundHalfEven_eq_of_close {x y δ : K} (hties : ∀ n : ℤ, δ ≤ |x - (n + 1 / 2)|)
    (h : |y - x| < δ) : roundHalfEven y = roundHalfEven x := by
  refine roundHalfEven_eq_of_abs_lt ?_
  obtain ⟨hlow, hhigh⟩ := abs_le.mp (abs_sub_roundHalfEven_le x)
  obtain ⟨hbelow, habove⟩ := abs_lt.mp h
  have hupper : δ ≤ 1 / 2 - (x - roundHalfEven x) := by
    have htie := hties (roundHalfEven x)
    rw [abs_of_nonpos (by linarith)] at htie
    linarith
  have hlower : δ ≤ 1 / 2 + (x - roundHalfEven x) := by
    have htie := hties (roundHalfEven x - 1)
    push_cast at htie
    rw [abs_of_nonneg (by linarith)] at htie
    linarith
  rw [abs_lt]
  constructor <;> linarith

/-- A quotient by `d` is a tie or at least `1 / (2 * d)` away from every one. -/
theorem tie_or_far (n : ℤ) {d : ℤ} (hd : 0 < d) :
    (∃ k : ℤ, (n : K) / d = k + 1 / 2) ∨ ∀ k : ℤ, 1 / (2 * d : K) ≤ |(n : K) / d - (k + 1 / 2)| := by
  have hd' : (0 : K) < d := by exact_mod_cast hd
  by_cases htie : ∃ k : ℤ, 2 * n = (2 * k + 1) * d
  · obtain ⟨k, hk⟩ := htie
    refine .inl ⟨k, ?_⟩
    have hcast : (2 : K) * n = (2 * k + 1) * d := by exact_mod_cast hk
    rw [div_eq_iff hd'.ne']
    linarith
  · refine .inr fun k => ?_
    have hne : 2 * n - (2 * k + 1) * d ≠ 0 := fun h => htie ⟨k, by omega⟩
    have hone : (1 : K) ≤ |((2 * n - (2 * k + 1) * d : ℤ) : K)| := by
      rw [← Int.cast_abs]
      exact_mod_cast Int.one_le_abs hne
    have hdiff : (n : K) / d - (k + 1 / 2) = ((2 * n - (2 * k + 1) * d : ℤ) : K) / (2 * d) := by
      push_cast
      field_simp
    have hpos : (0 : K) < 2 * d := by linarith
    rw [hdiff, abs_div, abs_of_pos hpos]
    gcongr

end Valor.Rounding
