/-
  GROUP BY, ORDER BY and LIMIT over lists of rows.

  The groups partition the rows, so sums over the groups add up to the sum over all rows
  (`sum_groups`). A query that orders by a total order and takes the first `n` keeps the
  `n` least: whatever it leaves out comes after all it keeps (`ranked_before`).
-/
import Mathlib.Algebra.BigOperators.Group.Finset.Piecewise
import Mathlib.Data.List.Dedup

namespace Grouping

variable {R K A : Type}

section Groups

variable [DecidableEq K]

/-- The groups of `GROUP BY f`: the values of `f`, each once. -/
def keys (f : R → K) (rows : List R) : List K := (rows.map f).dedup

/-- The rows of a group. -/
def group (f : R → K) (k : K) (rows : List R) : List R := rows.filter (f · = k)

theorem nodup_keys (f : R → K) (rows : List R) : (keys f rows).Nodup := List.nodup_dedup _

theorem mem_keys {f : R → K} {rows : List R} {k : K} : k ∈ keys f rows ↔ ∃ r ∈ rows, f r = k := by
  simp [keys]

theorem group_eq_nil {f : R → K} {rows : List R} {k : K} (h : k ∉ keys f rows) :
    group f k rows = [] := by
  refine List.filter_eq_nil_iff.mpr fun r hr => ?_
  simpa using fun heq => h (mem_keys.mpr ⟨r, hr, heq⟩)

theorem sum_groups_of_nodup {M : Type} [AddCommMonoid M] (f : R → K) (m : R → M) {ks : List K}
    (hnodup : ks.Nodup) {rows : List R} (hmem : ∀ r ∈ rows, f r ∈ ks) :
    (ks.map fun k => ((group f k rows).map m).sum).sum = (rows.map m).sum := by
  induction rows with
  | nil => simp [group]
  | cons r rows ih =>
    have hgroup : ∀ k, ((group f k (r :: rows)).map m).sum =
        (if k = f r then m r else 0) + ((group f k rows).map m).sum := by
      intro k
      by_cases hk : f r = k
      · simp [group, hk]
      · simp [group, hk, Ne.symm hk]
    have hone : (ks.map fun k => if k = f r then m r else 0).sum = m r := by
      rw [← List.sum_toFinset _ hnodup, Finset.sum_ite_eq']
      exact if_pos (List.mem_toFinset.mpr (hmem r List.mem_cons_self))
    rw [List.map_congr_left fun k _ => hgroup k, List.sum_map_add, hone,
      ih fun s hs => hmem s (List.mem_cons_of_mem _ hs), List.map_cons, List.sum_cons]

/-- The groups partition the rows. -/
theorem sum_groups {M : Type} [AddCommMonoid M] (f : R → K) (m : R → M) (rows : List R) :
    ((keys f rows).map fun k => ((group f k rows).map m).sum).sum = (rows.map m).sum :=
  sum_groups_of_nodup f m (nodup_keys f rows) fun r hr => mem_keys.mpr ⟨r, hr, rfl⟩

end Groups

section Ranking

/-- `ORDER BY le LIMIT n`. -/
def ranked (le : A → A → Bool) (n : Nat) (rows : List A) : List A := (rows.mergeSort le).take n

variable {le : A → A → Bool} {n : Nat} {rows : List A}

theorem length_ranked : (ranked le n rows).length = min n rows.length := by
  rw [ranked, List.length_take, (List.mergeSort_perm rows le).length_eq]

theorem mem_of_mem_ranked {a : A} (h : a ∈ ranked le n rows) : a ∈ rows :=
  (List.mergeSort_perm rows le).mem_iff.mp (List.mem_of_mem_take h)

/-- Different rows stay different. -/
theorem nodup_map_ranked (f : A → K) (h : (rows.map f).Nodup) : ((ranked le n rows).map f).Nodup := by
  have hsorted := ((List.mergeSort_perm rows le).map f).nodup_iff.mpr h
  exact hsorted.sublist ((List.take_sublist n _).map f)

theorem ranked_perm (h : rows.length ≤ n) : (ranked le n rows).Perm rows := by
  have hall : ranked le n rows = rows.mergeSort le := by
    refine List.take_of_length_le ?_
    rwa [(List.mergeSort_perm rows le).length_eq]
  rw [hall]
  exact List.mergeSort_perm rows le

theorem take_ranked {m : Nat} (h : m ≤ n) : (ranked le n rows).take m = ranked le m rows := by
  rw [ranked, ranked, List.take_take, min_eq_left h]

variable (htrans : ∀ a b c, le a b → le b c → le a c) (htotal : ∀ a b, le a b || le b a)

include htrans htotal

theorem ranked_ordered : (ranked le n rows).Pairwise fun a b => le a b := by
  have hsorted := List.pairwise_mergeSort htrans htotal rows
  exact hsorted.sublist (List.take_sublist n _)

/-- What is left out comes after what is kept. -/
theorem ranked_before {a b : A} (ha : a ∈ ranked le n rows) (hb : b ∈ rows)
    (hout : b ∉ ranked le n rows) : le a b := by
  have hsorted := List.pairwise_mergeSort htrans htotal rows
  have hdrop : b ∈ (rows.mergeSort le).drop n := by
    have hmem := (List.mergeSort_perm rows le).mem_iff.mpr hb
    rw [← List.take_append_drop n (rows.mergeSort le)] at hmem
    exact (List.mem_append.mp hmem).resolve_left hout
  rw [← List.take_append_drop n (rows.mergeSort le), List.pairwise_append] at hsorted
  exact hsorted.2.2 a ha b hdrop

/-- The first `n` of any list that has the same rows in this order. -/
theorem ranked_eq_take {sorted : List A} (hperm : sorted.Perm rows)
    (hsorted : sorted.Pairwise fun a b => le a b)
    (hantisymm : ∀ a ∈ rows, ∀ b ∈ rows, le a b → le b a → a = b) :
    ranked le n rows = sorted.take n := by
  have hmerge := List.mergeSort_perm rows le
  have heq : rows.mergeSort le = sorted := by
    have hmerged : (rows.mergeSort le).Pairwise fun a b => le a b :=
      List.pairwise_mergeSort htrans htotal rows
    refine List.Perm.eq_of_pairwise ?_ hmerged hsorted (hmerge.trans hperm.symm)
    intro a b ha hb hab hba
    exact hantisymm a (hmerge.mem_iff.mp ha) b (hperm.mem_iff.mp hb) hab hba
  rw [ranked, heq]

end Ranking

section Joins

variable {B : Type}

/-- `xs LEFT OUTER JOIN ys ON on`. -/
def leftJoin (on : A → B → Bool) (xs : List A) (ys : List B) : List (A × Option B) :=
  xs.flatMap fun x =>
    match ys.filter (on x) with
    | [] => [(x, none)]
    | y :: ys => (y :: ys).map fun y => (x, some y)

/-- A join with at most one match for each row keeps the rows. -/
theorem leftJoin_eq_map {on : A → B → Bool} {xs : List A} {ys : List B}
    (h : ∀ x ∈ xs, (ys.filter (on x)).length ≤ 1) :
    leftJoin on xs ys = xs.map fun x => (x, ys.find? (on x)) := by
  rw [leftJoin, ← List.flatMap_singleton' (xs.map _), List.flatMap_map]
  refine List.flatMap_congr fun x hx => ?_
  have hone := h x hx
  rw [← List.head?_filter]
  cases hys : ys.filter (on x) with
  | nil => rfl
  | cons y rest =>
    rw [hys, List.length_cons] at hone
    have hrest : rest = [] := List.length_eq_zero_iff.mp (by omega)
    rw [hrest]
    rfl

/-- A join with the groups of another table: each row gets its group, if it has one. -/
theorem leftJoin_groups [DecidableEq K] {C : Type} (f : R → K) (g : K → C) (h : A → K) (xs : List A)
    (rows : List R) :
    leftJoin (fun x y => y.1 = h x) xs ((keys f rows).map fun k => (k, g k)) =
      xs.map fun x => (x, if h x ∈ keys f rows then some (h x, g (h x)) else none) := by
  have hfilter : ∀ k, ((keys f rows).map fun k => (k, g k)).filter (fun y => y.1 = k) =
      if k ∈ keys f rows then [(k, g k)] else [] := by
    intro k
    have hsame : (keys f rows).filter ((fun y : K × C => decide (y.1 = k)) ∘ fun k => (k, g k)) =
        List.replicate ((keys f rows).count k) k := List.filter_eq k
    rw [List.filter_map, hsame]
    split
    · next hmem => rw [List.count_eq_one_of_mem (nodup_keys f rows) hmem]; rfl
    · next hmem => rw [List.count_eq_zero_of_not_mem hmem]; rfl
  rw [leftJoin_eq_map]
  · refine List.map_congr_left fun x _ => ?_
    rw [← List.head?_filter, hfilter]
    split <;> rfl
  · intro x _
    rw [hfilter]
    split <;> simp

end Joins

end Grouping
