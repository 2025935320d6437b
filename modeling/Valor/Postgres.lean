/-
  Values as PostgreSQL columns hold them.

  The driver refuses a value that its column cannot hold before the statement is sent, or
  the server refuses it: a text with U+0000 or with a lone surrogate, an integer of more than
  32 bits. Either way the statement raises and writes nothing. A time outside the range of
  `datetime` in UTC is refused here as well, see `timestamptz`.
-/
import Valor.Lib.Program
import Valor.Python.Datetime
import Valor.Python.Decimal
import Valor.Python.Text

namespace Valor.Postgres

open Python

/-- A value that its column cannot hold. -/
structure DataError where
  deriving DecidableEq, Repr

/-- A `TIMESTAMP WITH TIME ZONE`. The server also stores a time outside the years 1 to 9999 in
    UTC, and it is the driver that raises whenever the row is loaded; here such a row is never
    stored. -/
def timestamptz (a : Aware) : Except DataError Utc :=
  match a.astimezone with
  | .ok u => .ok u
  | .error _ => .error ⟨⟩

/-- The bytes of a text are UTF-8, which encodes no surrogate. -/
def utf8 (s : Str) : Except DataError String :=
  if s.hasSurrogate then .error ⟨⟩ else .ok s.scalars

/-- A text of any length; the length of a `VARCHAR(n)` is checked where it matters. -/
def text (s : String) : Except DataError String :=
  if hasNul s then .error ⟨⟩ else .ok s

/-- A signed number of 32 bits. -/
def FitsInteger (n : Int) : Prop := -2 ^ 31 ≤ n ∧ n < 2 ^ 31

instance (n : Int) : Decidable (FitsInteger n) := inferInstanceAs (Decidable (_ ∧ _))

/-- `INTEGER`. -/
def integer (n : Int) : Except DataError Int :=
  if -2 ^ 31 ≤ n ∧ n < 2 ^ 31 then .ok n else .error ⟨⟩

/-- `VARCHAR(n)`: what is too long must end in spaces, which are cut off. -/
def varchar (n : Nat) (s : String) : Except DataError String :=
  if hasNul s then .error ⟨⟩
  else if len s ≤ n then .ok s
  else if (s.toList.drop n).all (· = ' ') then .ok (String.ofList (s.toList.take n))
  else .error ⟨⟩

/-- `n / d` rounded to an integer, ties away from zero. -/
def divHalfAway (n : Int) (d : Nat) : Int :=
  let q := n.natAbs / d
  n.sign * if 2 * (n.natAbs % d) < d then q else q + 1

/-- `NUMERIC(precision, scale)`, in units of the last of its decimals. -/
def numeric (precision scale : Nat) (a : Decimal) : Except DataError Int :=
  let e : Int := -scale
  let units := if e ≤ a.exponent then a.scaled e
    else divHalfAway a.coefficient (10 ^ (e - a.exponent).toNat)
  if units.natAbs < 10 ^ precision then .ok units else .error ⟨⟩

/-- A `NUMERIC` of this scale as it is read back. -/
def numericValue (scale : Nat) (units : Int) : Decimal := ⟨units, -scale⟩

theorem timestamptz_instant {a : Aware} {u : Utc} (h : timestamptz a = .ok u) :
    u.instant = a.instant := by
  unfold timestamptz at h
  split at h
  · next hu =>
    cases h
    exact Aware.astimezone_instant hu
  · cases h

@[simp] theorem timestamptz_toAware (u : Utc) : timestamptz u.toAware = .ok u := by
  simp [timestamptz]

theorem utf8_ok {s : Str} {t : String} (h : utf8 s = .ok t) :
    s.hasSurrogate = false ∧ t = s.scalars := by
  unfold utf8 at h
  split at h
  · cases h
  · next hs =>
    cases h
    exact ⟨by simpa using hs, rfl⟩

theorem utf8_of {s : Str} (h : s.hasSurrogate = false) : utf8 s = .ok s.scalars := by
  simp [utf8, h]

theorem utf8_then_ok {α : Type} {f : String → Except DataError α} {s : Str} {a : α}
    (h : (utf8 >=> f) s = .ok a) : s.hasSurrogate = false ∧ f s.scalars = .ok a := by
  obtain ⟨t, ht, hf⟩ := Except.bind_ok_cases h
  obtain ⟨hs, rfl⟩ := utf8_ok ht
  exact ⟨hs, hf⟩

theorem utf8_then_of {α : Type} {f : String → Except DataError α} {s : Str} {a : α}
    (hs : s.hasSurrogate = false) (h : f s.scalars = .ok a) : (utf8 >=> f) s = .ok a :=
  Except.bind_eq_ok (utf8_of hs) h

theorem text_ok {s t : String} (h : text s = .ok t) : hasNul s = false ∧ t = s := by
  unfold text at h
  split at h
  · cases h
  · next hn =>
    cases h
    exact ⟨by simpa using hn, rfl⟩

theorem text_of {s : String} (h : hasNul s = false) : text s = .ok s := by
  simp [text, h]

theorem integer_ok {n m : Int} (h : integer n = .ok m) : (-2 ^ 31 ≤ n ∧ n < 2 ^ 31) ∧ m = n := by
  unfold integer at h
  split at h
  · next hn =>
    cases h
    exact ⟨hn, rfl⟩
  · cases h

/-! ## Statements that raise -/

section Raising

variable {Err α : Type} {e e' : Err}

/-- A conversion to a column; if it fails the statement raises `e`. -/
def column (e : Err) : Except DataError α → Except Err α
  | .ok a => .ok a
  | .error _ => .error e

/-- A constraint of the table; if it fails the statement raises `e`. -/
def constraint (e : Err) (c : Prop) [Decidable c] : Except Err Unit :=
  if c then .ok () else .error e

theorem column_ok {x : Except DataError α} {a : α} (h : column e x = .ok a) : x = .ok a := by
  cases x with
  | ok b => simpa [column] using h
  | error _ => cases h

theorem column_error {x : Except DataError α} (h : column e x = .error e') : e' = e := by
  cases x with
  | ok a => cases h
  | error _ =>
    cases h
    rfl

variable {c : Prop} [Decidable c]

theorem constraint_ok {u : Unit} (h : constraint e c = .ok u) : c := by
  unfold constraint at h
  split at h
  · assumption
  · cases h

theorem constraint_of (h : c) : constraint e c = .ok () := if_pos h

theorem constraint_error (h : constraint e c = .error e') : e' = e := by
  unfold constraint at h
  split at h
  · cases h
  · cases h
    rfl

theorem not_of_constraint (h : constraint e c = .error e') : ¬c := by
  intro hc
  rw [constraint_of hc] at h
  cases h

end Raising

end Valor.Postgres
