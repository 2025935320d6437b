/-
  Database tables with a primary key.

  A table is a list of rows whose keys differ; the order of the list means nothing and
  `RowOrder` gives any other. The operations keep the keys different by construction:
  `insert` adds a row unless its key is taken, `modify` must not change the key, and
  `delete` only removes rows. Everything else is proved through `find?` and through
  `mem_iff_find?`, which says that a table is the same thing as its lookup function.
-/
import Mathlib.Data.List.Nodup
import Mathlib.Data.List.Perm.Basic

class Keyed (R : Type) (K : outParam Type) where
  key : R → K

open Keyed

structure Table (R : Type) {K : Type} [Keyed R K] where
  rows : List R
  nodup : (rows.map key).Nodup

namespace Table

variable {R K : Type} [Keyed R K]

instance : Membership R (Table R) := ⟨fun t r => r ∈ t.rows⟩

theorem mem_rows {t : Table R} {r : R} : r ∈ t ↔ r ∈ t.rows := Iff.rfl

def empty : Table R := ⟨[], List.nodup_nil⟩

/-- The rows as one of the orders a query may return them in. -/
structure RowOrder (t : Table R) where
  rows : List R
  perm : rows.Perm t.rows

@[simp] theorem RowOrder.mem {t : Table R} (o : RowOrder t) (r : R) : r ∈ o.rows ↔ r ∈ t :=
  o.perm.mem_iff

/-- `DELETE`: drop the rows that satisfy `p`. -/
def delete (t : Table R) (p : R → Bool) : Table R :=
  ⟨t.rows.filter (!p ·), t.nodup.sublist (List.filter_sublist.map key)⟩

@[simp] theorem mem_delete {t : Table R} {p : R → Bool} {r : R} :
    r ∈ t.delete p ↔ r ∈ t ∧ p r = false := by
  simp [mem_rows, delete]

@[simp] theorem not_mem_empty (r : R) : r ∉ (empty : Table R) := by simp [mem_rows, empty]

/-- Rows of one table with the same key are the same row. -/
theorem eq_of_key {t : Table R} {r s : R} (hr : r ∈ t) (hs : s ∈ t) (h : key r = key s) : r = s :=
  List.inj_on_of_nodup_map t.nodup hr hs h

variable [DecidableEq K]

/-- `session.get`: the row with the given primary key. -/
def find? (t : Table R) (k : K) : Option R := t.rows.find? (key · = k)

/-- `INSERT`; the table is unchanged if the key is taken. -/
def insert (t : Table R) (r : R) : Table R :=
  if h : key r ∈ t.rows.map key then t
  else ⟨t.rows ++ [r], by
    have := t.nodup
    simp_all [List.nodup_append, eq_comm]⟩

/-- `UPDATE … WHERE key = k`. -/
def modify (t : Table R) (k : K) (f : R → R) (hf : ∀ r, key (f r) = key r) : Table R :=
  ⟨t.rows.map fun r => if key r = k then f r else r, by
    have hkeys : (t.rows.map fun r => if key r = k then f r else r).map key = t.rows.map key := by
      rw [List.map_map]
      refine List.map_congr_left fun r _ => ?_
      by_cases h : key r = k <;> simp [h, hf]
    rw [hkeys]
    exact t.nodup⟩

theorem find?_some {t : Table R} {k : K} {r : R} (h : t.find? k = some r) : r ∈ t ∧ key r = k :=
  ⟨List.mem_of_find?_eq_some h, by simpa using List.find?_some h⟩

theorem mem_iff_find? {t : Table R} {r : R} : r ∈ t ↔ t.find? (key r) = some r := by
  constructor
  · intro hr
    cases h : t.find? (key r) with
    | none => simpa using List.find?_eq_none.mp h r hr
    | some s =>
      obtain ⟨hs, hk⟩ := find?_some h
      rw [eq_of_key hs hr hk]
  · exact fun h => (find?_some h).1

theorem find?_eq_some {t : Table R} {k : K} {r : R} : t.find? k = some r ↔ r ∈ t ∧ key r = k := by
  constructor
  · exact find?_some
  · rintro ⟨hr, rfl⟩
    exact mem_iff_find?.mp hr

theorem find?_eq_none {t : Table R} {k : K} : t.find? k = none ↔ ∀ r ∈ t, key r ≠ k := by
  simp [find?, mem_rows]

@[simp] theorem find?_empty (k : K) : (empty : Table R).find? k = none := rfl

theorem rows_insert {t : Table R} {r : R} (h : t.find? (key r) = none) :
    (t.insert r).rows = t.rows ++ [r] := by
  have hkey : key r ∉ t.rows.map key := by
    simpa [find?_eq_none, mem_rows] using h
  rw [insert, dif_neg hkey]

theorem mem_insert {t : Table R} {r s : R} :
    s ∈ t.insert r ↔ s ∈ t ∨ (s = r ∧ t.find? (key r) = none) := by
  have hkey : t.find? (key r) = none ↔ key r ∉ t.rows.map key := by
    simp [find?_eq_none, mem_rows]
  unfold insert
  split
  · next h => simp [hkey, h]
  · next h =>
    have hr : t.find? (key r) = none := hkey.mpr h
    simp [mem_rows, hr]

theorem mem_insert_of_mem {t : Table R} {r s : R} (h : s ∈ t) : s ∈ t.insert r :=
  mem_insert.mpr (.inl h)

theorem find?_insert (t : Table R) (r : R) (k : K) :
    (t.insert r).find? k = (t.find? k).or (if key r = k then some r else none) := by
  cases h : t.find? k with
  | some s =>
    obtain ⟨hs, rfl⟩ := find?_some h
    simpa using mem_iff_find?.mp (mem_insert_of_mem hs)
  | none =>
    by_cases hk : key r = k
    · subst hk
      simpa using mem_iff_find?.mp (mem_insert.mpr (.inr ⟨rfl, h⟩))
    · rw [Option.none_or, if_neg hk, find?_eq_none]
      intro s hs
      rcases mem_insert.mp hs with hs | ⟨rfl, _⟩
      · exact find?_eq_none.mp h s hs
      · exact hk

theorem find?_delete (t : Table R) (p : R → Bool) (k : K) :
    (t.delete p).find? k = (t.find? k).filter (!p ·) := by
  cases h : t.find? k with
  | none =>
    refine find?_eq_none.mpr fun r hr => ?_
    exact find?_eq_none.mp h r (mem_delete.mp hr).1
  | some s =>
    obtain ⟨hs, rfl⟩ := find?_some h
    by_cases hp : p s = true
    · rw [Option.filter_some, hp]
      refine find?_eq_none.mpr fun r hr hk => ?_
      obtain ⟨hmem, hnot⟩ := mem_delete.mp hr
      rw [eq_of_key hmem hs hk, hp] at hnot
      cases hnot
    · have hnot : p s = false := by simpa using hp
      rw [Option.filter_some, hnot]
      exact mem_iff_find?.mp (mem_delete.mpr ⟨hs, hnot⟩)

theorem find?_insert_of_ne {t : Table R} {r : R} {k : K} (h : key r ≠ k) :
    (t.insert r).find? k = t.find? k := by
  rw [find?_insert, if_neg h, Option.or_none]

theorem find?_modify (t : Table R) (k : K) (f : R → R) (hf : ∀ r, key (f r) = key r) (k' : K) :
    (t.modify k f hf).find? k' = if k' = k then (t.find? k').map f else t.find? k' := by
  have hkey : ∀ r, key (if key r = k then f r else r) = key r := by
    intro r
    by_cases h : key r = k <;> simp [h, hf]
  have hmap : (t.modify k f hf).find? k' =
      (t.find? k').map fun r => if key r = k then f r else r := by
    simp only [find?, modify, List.find?_map, Function.comp_def, hkey]
  rw [hmap]
  cases h : t.find? k' with
  | none => simp
  | some r =>
    obtain ⟨_, rfl⟩ := find?_some h
    by_cases hk : key r = k <;> simp [hk]

theorem find?_modify_of_ne {t : Table R} {k k' : K} {f : R → R} (hf : ∀ r, key (f r) = key r)
    (h : k' ≠ k) : (t.modify k f hf).find? k' = t.find? k' := by
  rw [find?_modify, if_neg h]

theorem mem_modify {t : Table R} {k : K} {f : R → R} (hf : ∀ r, key (f r) = key r) {s : R} :
    s ∈ t.modify k f hf ↔ ∃ r ∈ t, s = if key r = k then f r else r := by
  simp only [mem_rows, modify, List.mem_map, eq_comm]

/-- An UPDATE of another row than the one that is inserted. -/
theorem modify_insert_comm (t : Table R) {k : K} (r : R) (f : R → R)
    (hf : ∀ r, key (f r) = key r) (h : key r ≠ k) :
    (t.insert r).modify k f hf = (t.modify k f hf).insert r := by
  have hkeys : (t.modify k f hf).rows.map key = t.rows.map key := by
    simp only [modify, List.map_map]
    refine List.map_congr_left fun s _ => ?_
    by_cases hs : key s = k <;> simp [hs, hf]
  have hrows : ((t.insert r).modify k f hf).rows = ((t.modify k f hf).insert r).rows := by
    unfold insert
    by_cases hr : key r ∈ t.rows.map key
    · rw [dif_pos hr, dif_pos (hkeys ▸ hr)]
    · rw [dif_neg hr, dif_neg (hkeys ▸ hr)]
      simp [modify, h]
  cases h₁ : (t.insert r).modify k f hf
  cases h₂ : (t.modify k f hf).insert r
  rw [h₁, h₂] at hrows
  simpa using hrows

/-- `INSERT … ON CONFLICT (key) DO UPDATE`. -/
def upsert (t : Table R) (r : R) (f : R → R) (hf : ∀ r, key (f r) = key r) : Table R :=
  if (t.find? (key r)).isSome then t.modify (key r) f hf else t.insert r

theorem find?_upsert (t : Table R) (r : R) (f : R → R) (hf : ∀ r, key (f r) = key r) (k : K) :
    (t.upsert r f hf).find? k =
      if k = key r then some ((t.find? k).elim r f) else t.find? k := by
  unfold upsert
  by_cases hk : k = key r
  · subst hk
    cases h : t.find? (key r) with
    | none => simp [find?_insert, h]
    | some s => simp [find?_modify, h]
  · rw [if_neg hk]
    split
    · exact find?_modify_of_ne hf hk
    · exact find?_insert_of_ne (Ne.symm hk)

end Table
