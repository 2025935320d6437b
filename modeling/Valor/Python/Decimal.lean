/-
  Python `decimal.Decimal`, for finite values.

  A value is a coefficient times a power of ten. Comparison is exact. Addition,
  multiplication and division compute the exact result and round it half-even to the
  precision of the context, which is 28 digits unless a `localcontext` says otherwise;
  `quantize` rounds to a fixed exponent and raises InvalidOperation where the result has
  more digits than the context. The bounds on exponents are far outside what the program
  computes and are left out, and so is the sign of zero.
-/
import Mathlib.Data.Nat.Digits.Lemmas
import Mathlib.Tactic.Ring

namespace Valor.Python

/-- `decimal.InvalidOperation`. -/
structure InvalidOperation where
  deriving DecidableEq, Repr

structure Decimal where
  coefficient : Int
  exponent : Int
  deriving DecidableEq, Repr

namespace Decimal

/-- The precision of the default context. -/
def defaultPrec : Nat := 28

/-- `Decimal(n)`. -/
def ofInt (n : Int) : Decimal := ⟨n, 0⟩

instance (n : Nat) : OfNat Decimal n := ⟨ofInt n⟩

/-- The coefficient at the exponent `e`, which is not above the own one. -/
def scaled (a : Decimal) (e : Int) : Int := a.coefficient * 10 ^ (a.exponent - e).toNat

instance : LE Decimal :=
  ⟨fun a b => a.scaled (min a.exponent b.exponent) ≤ b.scaled (min a.exponent b.exponent)⟩

instance : LT Decimal :=
  ⟨fun a b => a.scaled (min a.exponent b.exponent) < b.scaled (min a.exponent b.exponent)⟩

instance (a b : Decimal) : Decidable (a ≤ b) :=
  inferInstanceAs (Decidable (a.scaled (min a.exponent b.exponent) ≤ b.scaled _))

instance (a b : Decimal) : Decidable (a < b) :=
  inferInstanceAs (Decidable (a.scaled (min a.exponent b.exponent) < b.scaled _))

/-- `a == b`. -/
def eq (a b : Decimal) : Prop := a ≤ b ∧ b ≤ a

instance (a b : Decimal) : Decidable (a.eq b) := inferInstanceAs (Decidable (_ ∧ _))

/-- The number of decimal digits; that of zero is 1. -/
def digitCount (n : Nat) : Nat := max 1 (Nat.digits 10 n).length

/-- `n / d` rounded to an integer, ties to even. -/
def divHalfEven (n : Int) (d : Nat) : Int :=
  let q := n / d
  let r := n % d
  if 2 * r < d then q
  else if d < 2 * r then q + 1
  else if q % 2 = 0 then q
  else q + 1

/-- `_fix`: round to `prec` digits. -/
def fix (prec : Nat) (a : Decimal) : Decimal :=
  let excess := digitCount a.coefficient.natAbs - prec
  if excess = 0 then a
  else
    let c := divHalfEven a.coefficient (10 ^ excess)
    -- Rounding up can give one digit more, a power of ten.
    if digitCount c.natAbs > prec then ⟨c / 10, a.exponent + excess + 1⟩
    else ⟨c, a.exponent + excess⟩

def add (prec : Nat) (a b : Decimal) : Decimal :=
  let e := min a.exponent b.exponent
  fix prec ⟨a.scaled e + b.scaled e, e⟩

def mul (prec : Nat) (a b : Decimal) : Decimal :=
  fix prec ⟨a.coefficient * b.coefficient, a.exponent + b.exponent⟩

/-- Drop trailing zeros while the exponent is below `ideal`; `fuel` bounds their number. -/
def trim (ideal : Int) : Nat → Decimal → Decimal
  | 0, a => a
  | fuel + 1, a =>
      if a.exponent < ideal ∧ a.coefficient % 10 = 0 then
        trim ideal fuel ⟨a.coefficient / 10, a.exponent + 1⟩
      else a

/-- `__truediv__` of values that are not negative, by a positive one. The quotient has at
    least one digit more than the precision, and a remainder makes its last digit one that
    no tie has. -/
def div (prec : Nat) (a b : Decimal) : Decimal :=
  let n := a.coefficient.natAbs
  let d := b.coefficient.natAbs
  if n = 0 then ⟨0, a.exponent - b.exponent⟩
  else
    let shift : Int := digitCount d - digitCount n + prec + 1
    let e := a.exponent - b.exponent - shift
    let n' := n * 10 ^ shift.toNat
    let d' := d * 10 ^ (-shift).toNat
    let q := n' / d'
    if n' % d' = 0 then fix prec (trim (a.exponent - b.exponent) q ⟨q, e⟩)
    else fix prec ⟨if q % 5 = 0 then q + 1 else q, e⟩

/-- `quantize(Decimal((0, (1,), e)), rounding=ROUND_HALF_EVEN)`. -/
def quantize (prec : Nat) (e : Int) (a : Decimal) : Except InvalidOperation Decimal :=
  let c := if e ≤ a.exponent then a.scaled e
    else divHalfEven a.coefficient (10 ^ (e - a.exponent).toNat)
  if digitCount c.natAbs ≤ prec then .ok ⟨c, e⟩ else .error ⟨⟩

/-- The value in units of the last of so many decimals, if it has no more of them. -/
def atPlaces (places : Nat) (a : Decimal) : Option Int :=
  let e : Int := -places
  if e ≤ a.exponent then some (a.scaled e)
  else if a.coefficient % 10 ^ (e - a.exponent).toNat = 0 then
    some (a.coefficient / 10 ^ (e - a.exponent).toNat)
  else none

/-- At most `digits` digits, `places` of them decimals. Zeros that only lengthen the text of
    the value do not count. -/
def Fits (digits places : Nat) (a : Decimal) : Prop :=
  (a.atPlaces places).any (·.natAbs < 10 ^ digits)

instance (digits places : Nat) (a : Decimal) : Decidable (a.Fits digits places) :=
  inferInstanceAs (Decidable (_ = true))

/-! ## Exact results -/

theorem digitCount_le_iff {n k : Nat} (hk : 0 < k) : digitCount n ≤ k ↔ n < 10 ^ k := by
  have hlen := Nat.digits_length_le_iff (b := 10) (by decide) (k := k) n
  simp only [digitCount, max_le_iff, hlen]
  exact ⟨fun h => h.2, fun h => ⟨hk, h⟩⟩

theorem fix_of_lt {prec : Nat} {a : Decimal} (hp : 0 < prec) (h : a.coefficient.natAbs < 10 ^ prec) :
    fix prec a = a := by
  have hcount := (digitCount_le_iff hp).mpr h
  rw [fix, if_pos (by omega)]

/-- A sum that has room in the context is exact. -/
theorem add_of_lt {prec : Nat} {a b : Decimal} (hp : 0 < prec)
    (h : (a.scaled (min a.exponent b.exponent) + b.scaled (min a.exponent b.exponent)).natAbs <
      10 ^ prec) :
    add prec a b =
      ⟨a.scaled (min a.exponent b.exponent) + b.scaled (min a.exponent b.exponent),
        min a.exponent b.exponent⟩ :=
  fix_of_lt hp h

@[simp] theorem scaled_self (c e : Int) : (⟨c, e⟩ : Decimal).scaled e = c := by
  simp [scaled]

end Decimal

end Valor.Python
