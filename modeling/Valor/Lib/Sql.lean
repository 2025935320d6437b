/-
  The truth values of SQL.

  A comparison with NULL is unknown. A CHECK is satisfied unless it is false, and a row is
  in the answer of a query only if its condition is true. AND and OR are minimum and
  maximum, so both readings distribute over them.
-/

namespace Sql

inductive Truth where
  | false
  | unknown
  | true
  deriving DecidableEq, Repr

namespace Truth

def ofBool : Bool → Truth
  | .true => true
  | .false => false

protected def and : Truth → Truth → Truth
  | false, _ => false
  | _, false => false
  | unknown, _ => unknown
  | _, unknown => unknown
  | true, true => true

protected def or : Truth → Truth → Truth
  | true, _ => true
  | _, true => true
  | unknown, _ => unknown
  | _, unknown => unknown
  | false, false => false

protected def not : Truth → Truth
  | false => true
  | unknown => unknown
  | true => false

instance : AndOp Truth := ⟨Truth.and⟩

instance : OrOp Truth := ⟨Truth.or⟩

instance : Complement Truth := ⟨Truth.not⟩

/-- A CHECK of this value accepts the row. -/
def Satisfied (t : Truth) : Prop := t ≠ false

/-- A WHERE or FILTER of this value keeps the row. -/
def Holds (t : Truth) : Prop := t = true

instance (t : Truth) : Decidable t.Satisfied := inferInstanceAs (Decidable (_ ≠ _))

instance (t : Truth) : Decidable t.Holds := inferInstanceAs (Decidable (_ = _))

@[simp] theorem satisfied_and {s t : Truth} : (s &&& t).Satisfied ↔ s.Satisfied ∧ t.Satisfied := by
  cases s <;> cases t <;> decide

@[simp] theorem satisfied_or {s t : Truth} : (s ||| t).Satisfied ↔ s.Satisfied ∨ t.Satisfied := by
  cases s <;> cases t <;> decide

@[simp] theorem holds_and {s t : Truth} : (s &&& t).Holds ↔ s.Holds ∧ t.Holds := by
  cases s <;> cases t <;> decide

@[simp] theorem holds_or {s t : Truth} : (s ||| t).Holds ↔ s.Holds ∨ t.Holds := by
  cases s <;> cases t <;> decide

@[simp] theorem satisfied_ofBool {b : Bool} : (ofBool b).Satisfied ↔ b = .true := by
  cases b <;> decide

@[simp] theorem holds_ofBool {b : Bool} : (ofBool b).Holds ↔ b = .true := by
  cases b <;> decide

@[simp] theorem ofBool_and (a b : Bool) : ofBool a &&& ofBool b = ofBool (a && b) := by
  cases a <;> cases b <;> rfl

@[simp] theorem not_ofBool (b : Bool) : ~~~ofBool b = ofBool (!b) := by
  cases b <;> rfl

end Truth

variable {α β : Type}

/-- `x IS NULL`. -/
def isNull (x : Option α) : Truth := .ofBool x.isNone

/-- `x IS NOT NULL`. -/
def isNotNull (x : Option α) : Truth := .ofBool x.isSome

/-- A comparison of two values. -/
def compare (r : α → β → Bool) : Option α → Option β → Truth
  | some a, some b => .ofBool (r a b)
  | _, _ => .unknown

/-- A comparison with a constant. -/
def test (p : α → Bool) : Option α → Truth
  | some a => .ofBool (p a)
  | none => .unknown

/-- `x + y` and the like, in exact arithmetic. -/
def combine (f : α → α → α) : Option α → Option α → Option α
  | some a, some b => some (f a b)
  | _, _ => none

@[simp] theorem satisfied_isNull {x : Option α} : (isNull x).Satisfied ↔ x = none := by
  simp [isNull]

@[simp] theorem satisfied_isNotNull {x : Option α} : (isNotNull x).Satisfied ↔ x.isSome := by
  simp [isNotNull]

@[simp] theorem holds_isNull {x : Option α} : (isNull x).Holds ↔ x = none := by
  simp [isNull]

@[simp] theorem holds_isNotNull {x : Option α} : (isNotNull x).Holds ↔ x.isSome := by
  simp [isNotNull]

@[simp] theorem satisfied_unknown : Truth.unknown.Satisfied := by decide

@[simp] theorem not_holds_unknown : ¬Truth.unknown.Holds := by decide

@[simp] theorem satisfied_compare {r : α → β → Bool} {x : Option α} {y : Option β} :
    (compare r x y).Satisfied ↔ ∀ a ∈ x, ∀ b ∈ y, r a b := by
  cases x <;> cases y <;> simp [compare]

@[simp] theorem satisfied_test {p : α → Bool} {x : Option α} :
    (test p x).Satisfied ↔ ∀ a ∈ x, p a := by
  cases x <;> simp [test]

@[simp] theorem holds_test {p : α → Bool} {x : Option α} :
    (test p x).Holds ↔ ∃ a ∈ x, p a := by
  cases x <;> simp [test]

/-! ## Aggregates -/

/-- `coalesce(x, d)`. -/
def coalesce (x : Option α) (d : α) : α := x.getD d

/-- `CASE WHEN c THEN x ELSE y END`. -/
def caseWhen (c : Truth) (x y : Option α) : Option α := if c.Holds then x else y

/-- `count(x)`: the number of the values that are not NULL. -/
def count (xs : List (Option α)) : Nat := (xs.filterMap id).length

/-- `sum(x)` of the values that are not NULL, or NULL if there are none. -/
def sum [Add α] [Zero α] (xs : List (Option α)) : Option α :=
  match xs.filterMap id with
  | [] => none
  | values => some values.sum

/-- The value of a condition, where unknown is NULL. -/
def Truth.value : Truth → Option Bool
  | false => some .false
  | unknown => none
  | true => some .true

/-- `bool_or(c)` of the values that are not NULL, or NULL if there are none. -/
def boolOr (cs : List Truth) : Option Bool :=
  match cs.filterMap Truth.value with
  | [] => none
  | values => some (values.any id)

theorem count_map_caseWhen {c : α → Truth} (rows : List α) (x : β) :
    count (rows.map fun r => caseWhen (c r) (some x) none) = rows.countP fun r => (c r).Holds := by
  unfold count
  induction rows with
  | nil => rfl
  | cons r rows ih =>
    by_cases h : (c r).Holds <;> simp [caseWhen, h] at ih ⊢ <;> exact ih

theorem coalesce_sum [Add α] [Zero α] (xs : List (Option α)) :
    coalesce (sum xs) 0 = (xs.filterMap id).sum := by
  unfold sum
  split
  · next h => rw [h]; rfl
  · rfl

theorem coalesce_boolOr (cs : List Truth) :
    coalesce (boolOr cs) false = cs.any fun c => c.Holds := by
  have key : (cs.filterMap Truth.value).any id = cs.any fun c => c.Holds := by
    induction cs with
    | nil => rfl
    | cons c cs ih => cases c <;> simp [Truth.value, Truth.Holds] at ih ⊢ <;> exact ih
  unfold boolOr
  split
  · next h =>
    rw [← key, h]
    rfl
  · exact key

end Sql
