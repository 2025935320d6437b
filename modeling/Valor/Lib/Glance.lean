/-
  What one sees of a table: the rows that satisfy a predicate, and which of some keys are
  taken.

  An INSERT fails on a key that is taken by any row, so who sees some rows only has to know
  more than these to say what his own insertions do. `glance_insert` says that the keys which
  he inserts himself are enough, and `glance_insert_other` that another's row is not seen.
-/
import Mathlib.Data.Set.Insert
import Valor.Lib.Table

open Keyed

structure Glance (R K : Type) where
  rows : List R
  keys : Set K

/-- Lists that agree on the rows of `p` agree on fewer. -/
theorem List.filter_eq_of_filter_eq {R : Type} {p q : R → Bool} {rows rows' : List R}
    (hq : ∀ r, q r = true → p r = true) (h : rows.filter p = rows'.filter p) :
    rows.filter q = rows'.filter q := by
  have hfilter : ∀ rows : List R, rows.filter q = (rows.filter p).filter q := by
    intro rows
    rw [List.filter_filter]
    refine List.filter_congr fun r _ => ?_
    cases hr : q r with
    | false => rfl
    | true => rw [hq r hr, Bool.true_and]
  rw [hfilter rows, hfilter rows', h]

/-- Of rows of which at most one is looked up, the one that is found and then has to satisfy `p`. -/
theorem List.filter_find?_of_unique {R : Type} {rows : List R} {p q : R → Bool}
    (h : ∀ r ∈ rows, ∀ s ∈ rows, q r = true → q s = true → r = s) :
    (rows.find? q).filter p = (rows.filter p).find? q := by
  cases hfind : rows.find? q with
  | none =>
    rw [Option.filter_none, eq_comm, List.find?_eq_none]
    intro r hr
    exact List.find?_eq_none.mp hfind r (List.mem_filter.mp hr).1
  | some s =>
    have hs := List.mem_of_find?_eq_some hfind
    have hq := List.find?_some hfind
    cases hp : p s with
    | false =>
      rw [Option.filter_some, hp, eq_comm]
      refine List.find?_eq_none.mpr fun r hr hqr => ?_
      obtain ⟨hmem, hsatisfies⟩ := List.mem_filter.mp hr
      rw [h r hmem s hs hqr hq, hp] at hsatisfies
      cases hsatisfies
    | true =>
      rw [Option.filter_some, hp, eq_comm]
      cases hfound : (rows.filter p).find? q with
      | none => exact absurd hq (List.find?_eq_none.mp hfound s (List.mem_filter.mpr ⟨hs, hp⟩))
      | some r =>
        have hmem := (List.mem_filter.mp (List.mem_of_find?_eq_some hfound)).1
        rw [h r hmem s hs (List.find?_some hfound) hq]
        rfl

namespace Table

variable {R K : Type} [Keyed R K] [DecidableEq K]

def glance (p : R → Bool) (I : Set K) (t : Table R) : Glance R K :=
  ⟨t.rows.filter p, {k | k ∈ I ∧ t.find? k ≠ none}⟩

variable {p : R → Bool} {I : Set K} {t u : Table R} {r : R} {k : K}

/-- A row that is looked up by its key and then has to satisfy `p`. -/
theorem filter_find? (p : R → Bool) (t : Table R) (k : K) :
    (t.find? k).filter p = (t.rows.filter p).find? (key · = k) := by
  refine List.filter_find?_of_unique fun r hr s hs hrk hsk => ?_
  exact eq_of_key hr hs ((of_decide_eq_true hrk).trans (of_decide_eq_true hsk).symm)

/-- A row that satisfies `p` if it has its key. -/
theorem find?_filter (h : ∀ r, key r = k → p r = true) :
    t.find? k = (t.rows.filter p).find? (key · = k) := by
  rw [← filter_find?]
  cases hfind : t.find? k with
  | none => rfl
  | some r => rw [Option.filter_some, h r (find?_some hfind).2, if_pos rfl]

theorem find?_congr (h : t.glance p I = u.glance p I) (hk : k ∈ I) :
    t.find? k = none ↔ u.find? k = none := by
  have hkeys : k ∈ (t.glance p I).keys ↔ k ∈ (u.glance p I).keys := by rw [h]
  have hiff : t.find? k ≠ none ↔ u.find? k ≠ none := by simpa [glance, hk] using hkeys
  exact not_iff_not.mp hiff

end Table

open Classical in
/-- The glance after an INSERT of one's own. -/
noncomputable def Glance.insert {R K : Type} [Keyed R K] (g : Glance R K) (r : R) : Glance R K :=
  if key r ∈ g.keys then g else ⟨g.rows ++ [r], Set.insert (key r) g.keys⟩

namespace Table

variable {R K : Type} [Keyed R K] [DecidableEq K] {p : R → Bool} {I : Set K} {t : Table R} {r : R}

theorem filter_insert (h : t.find? (key r) = none) :
    (t.insert r).rows.filter p = t.rows.filter p ++ if p r then [r] else [] := by
  rw [rows_insert h, List.filter_append]
  cases hp : p r <;> simp [hp]

theorem rows_insert_of_taken (h : t.find? (key r) ≠ none) : (t.insert r).rows = t.rows := by
  have hkey : key r ∈ t.rows.map key := by
    obtain ⟨s, hs⟩ := Option.ne_none_iff_exists'.mp h
    obtain ⟨hmem, hk⟩ := find?_some hs
    exact List.mem_map.mpr ⟨s, hmem, hk⟩
  rw [insert, dif_pos hkey]

theorem rows_insert_eq (t : Table R) (r : R) :
    (t.insert r).rows = if key r ∈ t.rows.map key then t.rows else t.rows ++ [r] := by
  unfold insert
  split <;> rfl

theorem glance_insert (hp : p r = true) (hI : key r ∈ I) :
    (t.insert r).glance p I = (t.glance p I).insert r := by
  unfold Glance.insert
  split
  · next h =>
    have htaken : t.find? (key r) ≠ none := h.2
    have hrows := rows_insert_of_taken htaken
    simp only [glance, find?, hrows]
  · next h =>
    have hfree : t.find? (key r) = none := by
      by_contra htaken
      exact h ⟨hI, htaken⟩
    have hkeys : {k | k ∈ I ∧ (t.insert r).find? k ≠ none} =
        Set.insert (key r) {k | k ∈ I ∧ t.find? k ≠ none} := by
      ext k
      by_cases hk : k = key r
      · subst hk
        refine iff_of_true ⟨hI, ?_⟩ (.inl rfl)
        rw [find?_insert, hfree]
        simp
      · have hfind : (t.insert r).find? k = t.find? k := find?_insert_of_ne (Ne.symm hk)
        constructor
        · rintro ⟨hin, hk'⟩
          exact .inr ⟨hin, hfind ▸ hk'⟩
        · rintro (heq | ⟨hin, hk'⟩)
          · exact absurd heq hk
          · exact ⟨hin, hfind ▸ hk'⟩
    simp only [glance, filter_insert hfree, hp, if_true, hkeys]

omit [DecidableEq K] in
theorem mem_insert_rows {g : Glance R K} {s : R} (h : s ∈ g.rows) : s ∈ (g.insert r).rows := by
  unfold Glance.insert
  split
  · exact h
  · exact List.mem_append_left _ h

/-- Another's row. -/
theorem glance_insert_other (hp : p r = false) (hI : key r ∉ I) :
    (t.insert r).glance p I = t.glance p I := by
  have hkeys : {k | k ∈ I ∧ (t.insert r).find? k ≠ none} = {k | k ∈ I ∧ t.find? k ≠ none} := by
    ext k
    refine and_congr_right fun hk => ?_
    have hne : key r ≠ k := by
      rintro rfl
      exact hI hk
    rw [find?_insert_of_ne hne]
  have hrows : (t.insert r).rows.filter p = t.rows.filter p := by
    cases h : t.find? (key r) with
    | none => simp [filter_insert h, hp]
    | some s => rw [rows_insert_of_taken (by simp [h])]
  simp only [glance, hrows, hkeys]

end Table
