/-
  Programs that act on the world only through named operations.

  A `Prog Op Res Err α` either returns, raises, or calls one operation and goes
  on with the answer: a result of type `Res op`, or an exception. What an
  operation does is not part of the program. `runState` gives one answer: run
  the whole program against a function that executes each operation on a state,
  and record the calls. `Interleave` gives the other: many programs take turns.

  `Raises` bounds the exceptions a program can end with, given a bound on those of its
  operations.
-/

/-- A computation in `Except` that raises does so in its first part or after it. -/
theorem Except.bind_error_cases {ε α β : Type} {x : Except ε α} {f : α → Except ε β} {e : ε}
    (h : x >>= f = .error e) : x = .error e ∨ ∃ a, x = .ok a ∧ f a = .error e := by
  cases x with
  | error e' =>
    cases h
    exact .inl rfl
  | ok a => exact .inr ⟨a, rfl, h⟩

theorem Except.bind_eq_ok {ε α β : Type} {x : Except ε α} {f : α → Except ε β} {a : α} {b : β}
    (hx : x = .ok a) (hf : f a = .ok b) : x >>= f = .ok b := by
  rw [hx]
  exact hf

theorem Except.bind_ok_cases {ε α β : Type} {x : Except ε α} {f : α → Except ε β} {b : β}
    (h : x >>= f = .ok b) : ∃ a, x = .ok a ∧ f a = .ok b := by
  cases x with
  | error e => cases h
  | ok a => exact ⟨a, rfl, h⟩

theorem Except.mapError_eq_ok {ε ε' α : Type} {f : ε → ε'} {x : Except ε α} {a : α} :
    x.mapError f = .ok a ↔ x = .ok a := by
  cases x with
  | error e => exact ⟨nofun, nofun⟩
  | ok b =>
    constructor
    · intro h
      cases h
      rfl
    · intro h
      cases h
      rfl

/-- A conversion of an optional value keeps None. -/
theorem Except.isSome_mapM {ε α β : Type} {f : α → Except ε β} {x : Option α} {y : Option β}
    (h : x.mapM f = .ok y) : y.isSome = x.isSome := by
  cases x with
  | none =>
    cases h
    rfl
  | some a =>
    obtain ⟨b, _, hb⟩ := Except.bind_ok_cases (x := f a) (f := fun b => .ok (some b)) h
    cases hb
    rfl

/-- A program over the operations `Op`; `call op k` performs `op` and continues
    with `k` on what the operation answered. -/
inductive Prog (Op : Type) (Res : Op → Type) (Err : Type) (α : Type) : Type where
  | ret (a : α)
  | raise (e : Err)
  | call (op : Op) (k : Except Err (Res op) → Prog Op Res Err α)

namespace Prog

variable {Op : Type} {Res : Op → Type} {Err α β γ : Type}

def bind : Prog Op Res Err α → (α → Prog Op Res Err β) → Prog Op Res Err β
  | ret a, f => f a
  | raise e, _ => raise e
  | call op k, f => call op fun r => (k r).bind f

instance : Monad (Prog Op Res Err) where
  pure := ret
  bind := bind

/-- Perform one operation; an exception of the operation is raised. -/
def perform (op : Op) : Prog Op Res Err (Res op) :=
  call op fun
    | .ok a => ret a
    | .error e => raise e

/-- Perform one operation and hand its exception to the program. -/
def attempt (op : Op) : Prog Op Res Err (Except Err (Res op)) :=
  call op ret

/-- A pure computation that may raise, with what is raised for its exceptions. -/
def lift {ε : Type} (g : ε → Err) : Except ε α → Prog Op Res Err α
  | .ok a => ret a
  | .error e => raise (g e)

/-- `if c: raise e`. -/
def raiseWhen (c : Prop) [Decidable c] (e : Err) : Prog Op Res Err Unit :=
  if c then raise e else ret ()

/-- Run `p`, then `last` on every way out, as a context manager does. An exception
    of `last` replaces the outcome of `p`. -/
def andFinally (last : Op) : Prog Op Res Err α → Prog Op Res Err α
  | ret a => call last fun
      | .ok _ => ret a
      | .error e => raise e
  | raise e => call last fun
      | .ok _ => raise e
      | .error e' => raise e'
  | call op k => call op fun r => (k r).andFinally last

@[simp] theorem pure_eq (a : α) : (pure a : Prog Op Res Err α) = ret a := rfl

@[simp] theorem bind_eq (p : Prog Op Res Err α) (f : α → Prog Op Res Err β) :
    p >>= f = p.bind f := rfl

@[simp] theorem ret_bind (a : α) (f : α → Prog Op Res Err β) : (ret a).bind f = f a := rfl

@[simp] theorem raise_bind (e : Err) (f : α → Prog Op Res Err β) :
    (raise e).bind f = raise e := rfl

@[simp] theorem call_bind (op : Op) (k : Except Err (Res op) → Prog Op Res Err α)
    (f : α → Prog Op Res Err β) : (call op k).bind f = call op fun r => (k r).bind f := rfl

@[simp] theorem bind_ret (p : Prog Op Res Err α) : p.bind ret = p := by
  induction p with
  | ret a => rfl
  | raise e => rfl
  | call op k ih => exact congrArg (call op) (funext ih)

theorem bind_assoc (p : Prog Op Res Err α) (f : α → Prog Op Res Err β)
    (g : β → Prog Op Res Err γ) : (p.bind f).bind g = p.bind fun a => (f a).bind g := by
  induction p with
  | ret a => rfl
  | raise e => rfl
  | call op k ih => exact congrArg (call op) (funext ih)

/-! ## One program alone -/

/-- One operation and what it answered. -/
structure Event (Op : Type) (Res : Op → Type) (Err : Type) where
  op : Op
  answer : Except Err (Res op)

/-- What a program run alone leaves: its calls in order, its outcome and the state. -/
structure Outcome (Op : Type) (Res : Op → Type) (Err : Type) (α σ : Type) where
  trace : List (Event Op Res Err)
  result : Except Err α
  state : σ

variable {σ : Type} (exec : (op : Op) → σ → Except Err (Res op) × σ)

/-- Run `p` alone from the state `s`, each operation executed by `exec`. -/
def runState : Prog Op Res Err α → σ → Outcome Op Res Err α σ
  | ret a, s => ⟨[], .ok a, s⟩
  | raise e, s => ⟨[], .error e, s⟩
  | call op k, s =>
      let rest := (k (exec op s).1).runState (exec op s).2
      ⟨⟨op, (exec op s).1⟩ :: rest.trace, rest.result, rest.state⟩

@[simp] theorem runState_ret (a : α) (s : σ) :
    (ret a : Prog Op Res Err α).runState exec s = ⟨[], .ok a, s⟩ := rfl

@[simp] theorem runState_raise (e : Err) (s : σ) :
    (raise e : Prog Op Res Err α).runState exec s = ⟨[], .error e, s⟩ := rfl

theorem runState_call (op : Op) (k : Except Err (Res op) → Prog Op Res Err α) (s : σ) :
    (call op k).runState exec s =
      ⟨⟨op, (exec op s).1⟩ :: ((k (exec op s).1).runState exec (exec op s).2).trace,
        ((k (exec op s).1).runState exec (exec op s).2).result,
        ((k (exec op s).1).runState exec (exec op s).2).state⟩ := rfl

theorem runState_bind (p : Prog Op Res Err α) (f : α → Prog Op Res Err β) (s : σ) :
    (p.bind f).runState exec s =
      match (p.runState exec s).result with
      | .ok a =>
          let rest := (f a).runState exec (p.runState exec s).state
          ⟨(p.runState exec s).trace ++ rest.trace, rest.result, rest.state⟩
      | .error e => ⟨(p.runState exec s).trace, .error e, (p.runState exec s).state⟩ := by
  induction p generalizing s with
  | ret a => rfl
  | raise e => rfl
  | call op k ih =>
    rw [call_bind, runState_call, runState_call, ih]
    cases ((k (exec op s).1).runState exec (exec op s).2).result <;> rfl

/-- The result after an operation that succeeds. -/
theorem result_perform {exec : (op : Op) → σ → Except Err (Res op) × σ} {op : Op} {s s' : σ}
    {a : Res op} (h : exec op s = (.ok a, s')) (f : Res op → Prog Op Res Err α) :
    (((perform op).bind f).runState exec s).result = ((f a).runState exec s').result := by
  rw [perform, call_bind, runState_call, h]
  rfl

/-- A `last` that succeeds leaves the outcome of the body. -/
theorem runState_andFinally_result {last : Op} (hlast : ∀ s, ∃ a, (exec last s).1 = .ok a)
    (p : Prog Op Res Err α) (s : σ) :
    ((p.andFinally last).runState exec s).result = (p.runState exec s).result := by
  induction p generalizing s with
  | ret a =>
    obtain ⟨b, hb⟩ := hlast s
    simp [andFinally, runState_call, hb]
  | raise e =>
    obtain ⟨b, hb⟩ := hlast s
    simp [andFinally, runState_call, hb]
  | call op k ih => exact ih _ _

/-! ## Exceptions -/

/-- Every exception the program ends with satisfies `P`, if those of its operations do. -/
inductive Raises (P : Err → Prop) : Prog Op Res Err α → Prop
  | ret (a) : Raises P (ret a)
  | raise {e} (h : P e) : Raises P (raise e)
  | call {op k} (h : ∀ r, (∀ e, r = .error e → P e) → Raises P (k r)) : Raises P (call op k)

section Raises

variable {P : Err → Prop}

theorem Raises.bind {p : Prog Op Res Err α} {f : α → Prog Op Res Err β} (hp : p.Raises P)
    (hf : ∀ a, (f a).Raises P) : (p.bind f).Raises P := by
  induction hp with
  | ret a => exact hf a
  | raise h => exact .raise h
  | call _ ih => exact .call ih

theorem raises_perform (op : Op) : (perform op : Prog Op Res Err (Res op)).Raises P := by
  refine .call fun r hr => ?_
  cases r with
  | ok a => exact .ret a
  | error e => exact .raise (hr e rfl)

theorem raises_lift {ε : Type} {g : ε → Err} (hg : ∀ e, P (g e)) (x : Except ε α) :
    (lift g x : Prog Op Res Err α).Raises P := by
  cases x with
  | ok a => exact .ret a
  | error e => exact .raise (hg e)

variable {exec}

theorem Raises.result (hexec : ∀ op s e, (exec op s).1 = .error e → P e)
    {p : Prog Op Res Err α} (hp : p.Raises P) {s : σ} {e : Err}
    (h : (p.runState exec s).result = .error e) : P e := by
  induction hp generalizing s with
  | ret a => cases h
  | raise h' =>
    cases h
    exact h'
  | call _ ih => exact ih _ (hexec _ s) h

end Raises

end Prog
