/-
  Python `str` methods on Lean strings.

  A Python `str` is read as a Lean `String`: a sequence of Unicode scalar values.
  A lone surrogate is the only Python character this leaves out: the bounded texts of a
  request body and of the settings refuse one, and no PostgreSQL column holds one. What the
  provider answers and a credential of the settings may hold one: each is a `Str`. The
  peppers are taken to hold none: with one no credential is ever issued.
-/
import Mathlib.Data.List.DropRight

namespace Valor.Python

/-- `ValueError(message)`. -/
structure ValueError where
  message : String
  deriving DecidableEq, Repr

/-- `str.isspace` of one character. -/
def isSpace (c : Char) : Bool :=
  let n := c.toNat
  (9 ≤ n && n ≤ 13) || (28 ≤ n && n ≤ 32) || n == 0x85 || n == 0xA0 || n == 0x1680 ||
    (0x2000 ≤ n && n ≤ 0x200A) || n == 0x2028 || n == 0x2029 || n == 0x202F || n == 0x205F ||
    n == 0x3000

/-- Drop the characters that satisfy `p` at both ends. -/
def stripChars {α : Type} (p : α → Bool) (cs : List α) : List α :=
  ((cs.dropWhile p).reverse.dropWhile p).reverse

/-- `s.strip()`. -/
def strip (s : String) : String := String.ofList (stripChars isSpace s.toList)

/-- The Unicode property White_Space. -/
def isWhiteSpace (c : Char) : Bool := isSpace c && !(28 ≤ c.toNat && c.toNat ≤ 31)

/-- What `strip_whitespace` of a pydantic `StringConstraints` does. -/
def trim (s : String) : String := String.ofList (stripChars isWhiteSpace s.toList)

/-- `s.split()`: the maximal runs of characters that are not white space. -/
def splitWords (cs : List Char) : List (List Char) :=
  (cs.splitOnP isSpace).filter (· ≠ [])

/-- `" ".join(s.split())`. -/
def collapse (s : String) : String :=
  String.ofList ([' '].intercalate (splitWords s.toList))

/-- `len(s)`. -/
abbrev len (s : String) : Nat := s.toList.length

/-- The character U+0000, which no PostgreSQL text value can hold. -/
def hasNul (s : String) : Bool := s.toList.contains '\x00'

/-! ## Stripping -/

theorem stripChars_idem {α : Type} (p : α → Bool) (cs : List α) :
    stripChars p (stripChars p cs) = stripChars p cs := by
  set l := cs.dropWhile p with hl
  have hstrip : stripChars p cs = l.rdropWhile p := rfl
  have hhead : (l.rdropWhile p).dropWhile p = l.rdropWhile p := by
    rw [List.dropWhile_eq_self_iff]
    intro hpos
    have hprefix := List.rdropWhile_prefix p l
    have hne : l ≠ [] := by
      rintro h
      simp [h] at hpos
    have hget : (l.rdropWhile p)[0] = l.get ⟨0, List.length_pos_iff.mpr hne⟩ :=
      hprefix.getElem hpos
    rw [hget]
    simpa [hl] using List.dropWhile_get_zero_not p cs (by rwa [← hl, List.length_pos_iff])
  have houter : stripChars p (l.rdropWhile p) = ((l.rdropWhile p).dropWhile p).rdropWhile p := rfl
  rw [hstrip, houter, hhead, List.rdropWhile_idempotent]

@[simp] theorem strip_strip (s : String) : strip (strip s) = strip s := by
  simp [strip, stripChars_idem]

/-! ## Words -/

theorem splitWords_word {w : List Char} (hne : w ≠ []) (hw : ∀ c ∈ w, isSpace c = false) :
    splitWords w = [w] := by
  rw [splitWords, List.splitOnP_eq_singleton hw]
  simp [hne]

theorem splitWords_word_append {w : List Char} (hne : w ≠ []) (hw : ∀ c ∈ w, isSpace c = false)
    (rest : List Char) : splitWords (w ++ ' ' :: rest) = w :: splitWords rest := by
  rw [splitWords, List.splitOnP_append_cons_of_forall_mem hw ' ' (by decide)]
  simp [hne, splitWords]

/-- A word is not empty and holds no white space. -/
theorem mem_splitWords {cs w : List Char} (h : w ∈ splitWords cs) :
    w ≠ [] ∧ ∀ c ∈ w, isSpace c = false := by
  obtain ⟨hmem, hne⟩ := List.mem_filter.mp h
  refine ⟨by simpa using hne, ?_⟩
  clear h hne
  induction cs generalizing w with
  | nil =>
    obtain rfl : w = [] := by simpa using hmem
    simp
  | cons c cs ih =>
    rw [List.splitOnP_cons_eq_if_modifyHead] at hmem
    split at hmem
    · rcases List.mem_cons.mp hmem with rfl | hmem
      · simp
      · exact ih hmem
    · next hc =>
      cases hs : cs.splitOnP isSpace with
      | nil => exact absurd hs (List.splitOnP_ne_nil _ _)
      | cons v vs =>
        rw [hs] at hmem ih
        rcases List.mem_cons.mp hmem with rfl | hmem
        · intro d hd
          rcases List.mem_cons.mp hd with rfl | hd
          · simpa using hc
          · exact ih (List.mem_cons_self ..) d hd
        · exact ih (List.mem_cons_of_mem _ hmem)

theorem splitWords_intercalate (ws : List (List Char))
    (h : ∀ w ∈ ws, w ≠ [] ∧ ∀ c ∈ w, isSpace c = false) : splitWords ([' '].intercalate ws) = ws := by
  induction ws with
  | nil => rfl
  | cons w ws ih =>
    obtain ⟨hne, hw⟩ := h w (List.mem_cons_self ..)
    cases ws with
    | nil => simpa using splitWords_word hne hw
    | cons v vs =>
      have ih' := ih fun u hu => h u (List.mem_cons_of_mem _ hu)
      rw [List.intercalate_cons_cons, List.append_assoc, List.singleton_append,
        splitWords_word_append hne hw, ih']

/-- Collapsing white space twice is collapsing it once. -/
@[simp] theorem collapse_collapse (s : String) : collapse (collapse s) = collapse s := by
  unfold collapse
  rw [String.toList_ofList, splitWords_intercalate _ fun w => mem_splitWords]

/-- Stripping keeps every character that is not to be dropped. -/
theorem mem_stripChars {α : Type} {p : α → Bool} {c : α} (hc : p c = false) (cs : List α) :
    c ∈ stripChars p cs ↔ c ∈ cs := by
  have drop : ∀ l : List α, c ∈ l.dropWhile p ↔ c ∈ l := by
    intro l
    induction l with
    | nil => simp
    | cons d l ih =>
      by_cases hd : p d = true
      · have hne : c ≠ d := by
          rintro rfl
          exact absurd hd (by simp [hc])
        simp [hd, ih, hne]
      · simp [hd]
  simp only [stripChars, List.mem_reverse, drop]

theorem hasNul_strip (s : String) : hasNul (strip s) = hasNul s := by
  unfold hasNul strip
  rw [String.toList_ofList, Bool.eq_iff_iff, List.contains_iff_mem, List.contains_iff_mem]
  exact mem_stripChars (by decide) s.toList

/-! ## Lone surrogates -/

/-- A character of a `str`: a Unicode scalar value, or the surrogate U+D800 + `n`. -/
inductive CodePoint where
  | scalar (c : Char)
  | surrogate (n : Fin 0x800)
  deriving DecidableEq, Repr

/-- A `str` with any characters. -/
structure Str where
  points : List CodePoint
  deriving DecidableEq, Repr

/-- `str.isspace` of one character. -/
def CodePoint.isSpace : CodePoint → Bool
  | scalar c => Python.isSpace c
  | surrogate _ => false

def CodePoint.toChar? : CodePoint → Option Char
  | scalar c => some c
  | surrogate _ => none

namespace Str

def ofString (s : String) : Str := ⟨s.toList.map .scalar⟩

instance : Coe String Str := ⟨ofString⟩

/-- `s.strip()`. -/
def strip (s : Str) : Str := ⟨stripChars CodePoint.isSpace s.points⟩

/-- `len(s)`. -/
def len (s : Str) : Nat := s.points.length

def hasNul (s : Str) : Bool := s.points.contains (.scalar '\x00')

def hasSurrogate (s : Str) : Bool := s.points.any (·.toChar?.isNone)

/-- What is left without the surrogates. -/
def scalars (s : Str) : String := String.ofList (s.points.filterMap CodePoint.toChar?)

@[simp] theorem strip_strip (s : Str) : s.strip.strip = s.strip := by
  simp [strip, stripChars_idem]

theorem hasNul_strip (s : Str) : s.strip.hasNul = s.hasNul := by
  unfold hasNul strip
  rw [Bool.eq_iff_iff, List.contains_iff_mem, List.contains_iff_mem]
  exact mem_stripChars (by decide) s.points

theorem hasSurrogate_iff {s : Str} :
    s.hasSurrogate = true ↔ ∃ n, CodePoint.surrogate n ∈ s.points := by
  rw [hasSurrogate, List.any_eq_true]
  constructor
  · rintro ⟨_ | n, hmem, hnone⟩
    · cases hnone
    · exact ⟨n, hmem⟩
  · rintro ⟨n, hmem⟩
    exact ⟨_, hmem, rfl⟩

@[simp] theorem hasSurrogate_ofString (s : String) : (ofString s).hasSurrogate = false := by
  simp [hasSurrogate, ofString, CodePoint.toChar?]

theorem hasSurrogate_strip (s : Str) : s.strip.hasSurrogate = s.hasSurrogate := by
  rw [Bool.eq_iff_iff, hasSurrogate_iff, hasSurrogate_iff]
  exact exists_congr fun n => mem_stripChars rfl s.points

/-- Without surrogates the scalar values are all there is. -/
theorem map_toList_scalars {s : Str} (h : s.hasSurrogate = false) :
    s.scalars.toList.map CodePoint.scalar = s.points := by
  obtain ⟨points⟩ := s
  rw [scalars, String.toList_ofList]
  rw [hasSurrogate, List.any_eq_false] at h
  induction points with
  | nil => rfl
  | cons c points ih =>
    cases c with
    | scalar c =>
      have htail := ih fun d hd => h d (List.mem_cons_of_mem _ hd)
      simp only [List.filterMap_cons, CodePoint.toChar?, List.map_cons, htail]
    | surrogate n => exact absurd rfl (h _ (List.mem_cons_self ..))

theorem ofString_scalars {s : Str} (h : s.hasSurrogate = false) : ofString s.scalars = s := by
  rw [ofString, map_toList_scalars h]

theorem len_scalars {s : Str} (h : s.hasSurrogate = false) : Python.len s.scalars = s.len := by
  rw [Python.len, len, ← map_toList_scalars h, List.length_map]

theorem hasNul_scalars (s : Str) : Python.hasNul s.scalars = s.hasNul := by
  unfold Python.hasNul scalars hasNul
  rw [String.toList_ofList, Bool.eq_iff_iff, List.contains_iff_mem, List.contains_iff_mem,
    List.mem_filterMap]
  constructor
  · rintro ⟨_ | n, hmem, hsome⟩
    · cases hsome
      exact hmem
    · cases hsome
  · intro hmem
    exact ⟨_, hmem, rfl⟩

end Str

end Valor.Python
