/-
  A limit that is checked before something is spent, and spent later.

  A request is admitted when the total is at most `limit`; it is then in flight until it
  settles, with at most `most`, or is lost. Between the check and the settlement the total
  grows by what others settle, so it can end above the limit. If never more than `k` requests
  are in flight together, it is at most `limit + k • most`: the reserve for those that are in
  flight is an invariant of every order of the steps (`Within`).
-/
import Mathlib.Algebra.Order.Monoid.Defs
import Mathlib.Algebra.Order.Monoid.Unbundled.Pow
import Mathlib.Data.Finset.Card

namespace Valor.Overshoot

variable {ι M : Type*} [AddCommMonoid M] [PartialOrder M]

/-- No more than `k` requests are in flight. -/
def AtMost (k : ℕ) (flight : Set ι) : Prop :=
  ∀ s : Finset ι, (∀ i ∈ s, i ∈ flight) → s.card ≤ k

/-- Whichever of the requests in flight settle, the total stays within the bound. -/
def Within (flight : Set ι) (most bound total : M) : Prop :=
  ∀ s : Finset ι, (∀ i ∈ s, i ∈ flight) → total + s.card • most ≤ bound

variable {flight flight' : Set ι} {limit most bound total total' : M} {k : ℕ} {i : ι}

theorem Within.total_le (h : Within flight most bound total) : total ≤ bound := by
  have hnone := h ∅ (by simp)
  rwa [Finset.card_empty, zero_nsmul, add_zero] at hnone

theorem within_of_empty (h : total ≤ bound) : Within (∅ : Set ι) most bound total := by
  intro s hs
  have hempty : s = ∅ := Finset.eq_empty_of_forall_notMem hs
  rwa [hempty, Finset.card_empty, zero_nsmul, add_zero]

/-- What a step does to the total and to the requests in flight. -/
inductive Moves (limit most : M) (flight flight' : Set ι) (total total' : M) : Prop
  | keeps (hflight : flight' ⊆ flight) (htotal : total' ≤ total)
  | admits (htotal : total' ≤ limit)
  | settles (i : ι) (hin : i ∈ flight) (hflight : flight' ⊆ flight) (hout : i ∉ flight')
      (htotal : total' ≤ total + most)

/-- Every step keeps the total within the limit and `k` reserves. -/
theorem Moves.within [IsOrderedAddMonoid M] (h : Moves limit most flight flight' total total') (hmost : 0 ≤ most)
    (hk : AtMost k flight') (hw : Within flight most (limit + k • most) total) :
    Within flight' most (limit + k • most) total' := by
  classical
  intro s hs
  cases h with
  | keeps hflight htotal =>
    exact le_trans (add_le_add_left htotal _) (hw s fun i hi => hflight (hs i hi))
  | admits htotal => exact add_le_add htotal (nsmul_le_nsmul_left hmost (hk s hs))
  | settles i hin hflight hout htotal =>
    have hi : i ∉ s := fun hi => hout (hs i hi)
    -- Before the step the request that settles was one more in flight.
    have hbefore := hw (insert i s) fun j hj => by
      rcases Finset.mem_insert.mp hj with rfl | hj
      · exact hin
      · exact hflight (hs j hj)
    calc total' + s.card • most ≤ total + most + s.card • most := add_le_add_left htotal _
      _ = total + (insert i s).card • most := by
        rw [Finset.card_insert_of_notMem hi, succ_nsmul, add_assoc, add_comm most]
      _ ≤ limit + k • most := hbefore

end Valor.Overshoot
