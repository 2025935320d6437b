/-
  Half-open intervals of one width that tile the integers.

  A truncation of a time to a day or an hour is `tileStart` of that width. Two times have
  the same tile if and only if one tile contains both, and a tile of a width that divides
  another lies in one tile of the larger width.
-/
import Mathlib.Tactic

namespace Valor.Tiles

/-- The first number of the tile of `t`. -/
def tileStart (width t : ℤ) : ℤ := t / width * width

variable {width fine t u s : ℤ}

theorem tileStart_le (h : 0 < width) : tileStart width t ≤ t :=
  Int.ediv_mul_le t h.ne'

theorem lt_tileStart_add (h : 0 < width) : t < tileStart width t + width :=
  Int.lt_ediv_add_one_mul_self t h |>.trans_eq (by rw [tileStart]; ring)

theorem tileStart_emod (width t : ℤ) : tileStart width t % width = 0 :=
  Int.mul_emod_left _ _

theorem tileStart_eq_iff (h : 0 < width) :
    tileStart width t = tileStart width u ↔ t / width = u / width := by
  unfold tileStart
  exact mul_left_inj' h.ne'

/-- A multiple of the width starts the tile of every number of its interval. -/
theorem tileStart_unique (h : 0 < width) (hs : s % width = 0) (hle : s ≤ t)
    (hlt : t < s + width) : tileStart width t = s := by
  obtain ⟨k, rfl⟩ := Int.dvd_of_emod_eq_zero hs
  have hquotient : t / width = k := by
    rw [Int.ediv_eq_iff_of_pos h]
    constructor
    · rwa [mul_comm]
    · rwa [mul_comm]
  rw [tileStart, hquotient, mul_comm]

/-- Tiles that share a number are equal. -/
theorem tileStart_eq_of_common (h : 0 < width) {x : ℤ} (ht : tileStart width t ≤ x)
    (ht' : x < tileStart width t + width) (hu : tileStart width u ≤ x)
    (hu' : x < tileStart width u + width) : tileStart width t = tileStart width u := by
  rw [← tileStart_unique h (tileStart_emod width t) ht ht']
  exact tileStart_unique h (tileStart_emod width u) hu hu'

/-- The fine tile of a number lies in its coarse tile. -/
theorem tileStart_le_tileStart (hwidth : 0 < width) (hfine : 0 < fine) (h : fine ∣ width) :
    tileStart width t ≤ tileStart fine t := by
  obtain ⟨k, hk⟩ := h
  have hmultiple : tileStart width t = t / width * k * fine := by
    rw [tileStart, hk]
    ring
  rw [hmultiple, tileStart, Int.mul_le_mul_right hfine, Int.le_ediv_iff_mul_le hfine,
    ← hmultiple]
  exact tileStart_le hwidth

end Valor.Tiles
