/-
  A table that keeps the first row for each key, for a span of time.

  Every row has a time that its key determines. A new row first removes the rows that are
  more than `span` before it and is then inserted, unless its key is taken. When the rows
  come in the order of their times, the table is at every moment a function of the rows so
  far: for each key within the span of the last row, the first row with that key
  (`find?_retained`).
-/
import Valor.Lib.Table
import Mathlib.Data.List.Induction

open Keyed

namespace Table

variable {R K : Type} [Keyed R K] [DecidableEq K] (time : K → Int) (span : Int)

/-- Remove what is too old beside the row `r`, and insert `r`. -/
def retain (t : Table R) (r : R) : Table R :=
  (t.delete fun s => time (key s) < time (key r) - span).insert r

/-- The table after the rows have come one by one. -/
def retained (rows : List R) : Table R := rows.foldl (retain time span) empty

variable {time span} {rows : List R} {r : R} {k : K}

@[simp] theorem retained_nil : (retained time span [] : Table R) = empty := rfl

theorem retained_snoc (rows : List R) (r : R) :
    retained time span (rows ++ [r]) = (retained time span rows).retain time span r := by
  rw [retained, List.foldl_append]
  rfl

/-- What a row that is not older than any other leaves. -/
theorem find?_retain {t : Table R} (hspan : 0 ≤ span) :
    (t.retain time span r).find? k =
      (((t.find? k).or (if key r = k then some r else none))).filter
        fun s => decide (time (key r) - span ≤ time (key s)) := by
  rw [retain, find?_insert, find?_delete]
  cases h : t.find? k with
  | none =>
    by_cases hk : key r = k
    · have hkeep : time (key r) - span ≤ time (key r) := by omega
      rw [if_pos hk, Option.none_or, Option.filter_some, if_pos (decide_eq_true hkeep)]
      rfl
    · rw [if_neg hk]
      rfl
  | some s =>
    obtain ⟨_, hs⟩ := find?_some h
    by_cases hkeep : time (key r) - span ≤ time (key s)
    · have hnot : ¬time (key s) < time (key r) - span := by omega
      simp only [Option.filter_some, decide_true, decide_false, Bool.not_false, if_true,
        Option.some_or, hkeep, hnot]
    · have hne : key r ≠ k := by
        rintro rfl
        rw [hs] at hkeep
        omega
      have hold : time (key s) < time (key r) - span := by omega
      simp only [Option.filter_some, decide_true, decide_false, Bool.not_true, Bool.false_eq_true,
        if_false, Option.or_none, hkeep, hold, hne]

/-- The table after `rows` and then `r`, if they come in the order of their times. -/
theorem find?_retained (hspan : 0 ≤ span)
    (hsorted : (rows ++ [r]).Pairwise fun s s' => time (key s) ≤ time (key s')) :
    (retained time span (rows ++ [r])).find? k =
      ((rows ++ [r]).find? (key · = k)).filter
        fun s => decide (time (key r) - span ≤ time (key s)) := by
  induction rows using List.reverseRecOn generalizing r with
  | nil =>
    rw [retained_snoc, find?_retain hspan]
    by_cases hk : key r = k <;> simp [hk, Option.filter_some]
  | append_singleton rows q ih =>
    obtain ⟨hrows, _, hlast⟩ := List.pairwise_append.mp hsorted
    have hq : time (key q) ≤ time (key r) := hlast q (by simp) r (by simp)
    have hone : [r].find? (fun s => decide (key s = k)) = if key r = k then some r else none := by
      by_cases hk : key r = k <;> simp [hk]
    have hlastRow : (rows ++ [q] ++ [r]).find? (fun s => decide (key s = k)) =
        ((rows ++ [q]).find? fun s => decide (key s = k)).or ([r].find? fun s => decide (key s = k)) :=
      List.find?_append
    rw [retained_snoc, find?_retain hspan, ih hrows, hlastRow, hone]
    -- What the last row kept of an older time, this one removes as well.
    cases h : (rows ++ [q]).find? fun s => decide (key s = k) with
    | none => rfl
    | some s =>
      have hs : key s = k := by simpa using List.find?_some h
      by_cases hkeep : time (key q) - span ≤ time (key s)
      · simp only [Option.filter_some, decide_true, if_true, Option.some_or, hkeep]
      · have hold : ¬time (key r) - span ≤ time (key s) := by omega
        have hne : key r ≠ k := by
          rintro rfl
          rw [hs] at hkeep
          omega
        simp only [Option.filter_some, Option.filter_none, decide_false, Bool.false_eq_true, if_false,
          Option.some_or, Option.none_or, hkeep, hold, hne]

end Table
