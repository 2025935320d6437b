/-
  Programs that stand for operations of other programs.

  `interpret` replaces each operation of a program by a program over other operations: the
  operations are the ports of an application, and each is implemented. An exception of an
  implementation is the exception of the operation. `interpret` goes through sequencing, so
  an interpreted program is the same text with its operations replaced.

  `Stmt.embed` takes the statements of a database to a larger one that holds it as a part.
  `Similar` programs differ in nothing but the exceptions they end with.
-/
import Valor.Lib.Path

namespace Prog

variable {Op Op' : Type} {Res : Op → Type} {Res' : Op' → Type} {Err α β : Type}

/-- Go on with the outcome of `p`, a value or an exception. -/
def tryBind : Prog Op Res Err β → (Except Err β → Prog Op Res Err α) → Prog Op Res Err α
  | ret b, k => k (.ok b)
  | raise e, k => k (.error e)
  | call op k', k => call op fun r => (k' r).tryBind k

/-- `except … as error: raise f(error)`. -/
def mapError (f : Err → Err) (p : Prog Op Res Err α) : Prog Op Res Err α :=
  p.tryBind fun
    | .ok a => ret a
    | .error e => raise (f e)

/-- Each operation is performed by its implementation. -/
def interpret (impl : (op : Op') → Prog Op Res Err (Res' op)) :
    Prog Op' Res' Err α → Prog Op Res Err α
  | ret a => ret a
  | raise e => raise e
  | call op k => (impl op).tryBind fun r => (k r).interpret impl

variable {impl : (op : Op') → Prog Op Res Err (Res' op)}

/-- A continuation that only hands exceptions on. -/
theorem tryBind_eq_bind (p : Prog Op Res Err β) (f : β → Prog Op Res Err α) :
    (p.tryBind fun
      | .ok b => f b
      | .error e => raise e) = p.bind f := by
  induction p with
  | ret b => rfl
  | raise e => rfl
  | call op k ih => exact congrArg (call op) (funext ih)

@[simp] theorem interpret_ret (a : α) : (ret a : Prog Op' Res' Err α).interpret impl = ret a := rfl

@[simp] theorem interpret_raise (e : Err) :
    (raise e : Prog Op' Res' Err α).interpret impl = raise e := rfl

theorem tryBind_bind {γ : Type} (p : Prog Op Res Err γ) (k : Except Err γ → Prog Op Res Err β)
    (f : β → Prog Op Res Err α) : (p.tryBind k).bind f = p.tryBind fun r => (k r).bind f := by
  induction p with
  | ret b => rfl
  | raise e => rfl
  | call op k' ih => exact congrArg (call op) (funext ih)

@[simp] theorem interpret_bind (p : Prog Op' Res' Err β) (f : β → Prog Op' Res' Err α) :
    (p.bind f).interpret impl = (p.interpret impl).bind fun b => (f b).interpret impl := by
  induction p with
  | ret b => rfl
  | raise e => rfl
  | call op k ih =>
    rw [call_bind, interpret, interpret, tryBind_bind]
    exact congrArg _ (funext ih)

@[simp] theorem interpret_perform (op : Op') :
    (perform op : Prog Op' Res' Err (Res' op)).interpret impl = impl op := by
  have h := tryBind_eq_bind (impl op) (ret : Res' op → Prog Op Res Err (Res' op))
  rw [bind_ret] at h
  rw [perform, interpret]
  refine Eq.trans (congrArg _ (funext fun r => ?_)) h
  cases r <;> rfl

theorem tryBind_andFinally (p : Prog Op Res Err β) (k : Except Err β → Prog Op Res Err α) (last : Op) :
    (p.tryBind k).andFinally last = p.tryBind fun r => (k r).andFinally last := by
  induction p with
  | ret b => rfl
  | raise e => rfl
  | call op k' ih => exact congrArg (call op) (funext ih)

/-- A context manager whose way out is one operation. -/
theorem interpret_andFinally {last : Op'} {last' : Op} {f : Res last' → Res' last}
    (hlast : impl last = (perform last').bind fun a => .ret (f a)) (p : Prog Op' Res' Err α) :
    (p.andFinally last).interpret impl = (p.interpret impl).andFinally last' := by
  have hcall : ∀ k : Except Err (Res' last) → Prog Op Res Err α,
      (impl last).tryBind k = .call last' fun r => k (r.map f) := by
    intro k
    rw [hlast]
    refine congrArg (call last') (funext fun r => ?_)
    cases r <;> rfl
  induction p with
  | ret a =>
    refine (hcall _).trans (congrArg (call last') (funext fun r => ?_))
    cases r <;> rfl
  | raise e =>
    refine (hcall _).trans (congrArg (call last') (funext fun r => ?_))
    cases r <;> rfl
  | call op k ih =>
    rw [andFinally, interpret, interpret, tryBind_andFinally]
    exact congrArg _ (funext ih)

@[simp] theorem interpret_lift {ε : Type} (g : ε → Err) (x : Except ε α) :
    (lift g x : Prog Op' Res' Err α).interpret impl = lift g x := by
  cases x <;> rfl

@[simp] theorem interpret_raiseWhen (c : Prop) [Decidable c] (e : Err) :
    (raiseWhen c e : Prog Op' Res' Err Unit).interpret impl = raiseWhen c e := by
  unfold raiseWhen
  split <;> rfl

end Prog

namespace ReadCommitted

open Prog

variable {Q Q' : Type} {Res : Q → Type} {Res' : Q' → Type} {Db Db' Lock Lock' Err Err' α β : Type}

/-- How the part and its larger database are related. -/
structure Part (Db Db' Lock Lock' Err Err' : Type) where
  get : Db' → Db
  put : Db → Db' → Db'
  lock : Lock → Lock'
  err : Err → Err'

/-- The statement, on the part. -/
def Stmt.embed (P : Part Db Db' Lock Lock' Err Err') : Stmt Db Lock Err α → Stmt Db' Lock' Err' α
  | .query f => .query fun db => (f (P.get db)).mapError P.err
  | .change locks act =>
      .change (fun seen db => (locks (P.get seen) (P.get db)).map P.lock) fun seen db =>
        match act (P.get seen) (P.get db) with
        | .ok (a, f) => .ok (a, fun db => P.put (f (P.get db)) db)
        | .error e => .error (P.err e)

end ReadCommitted

/-! ## Programs that differ in their exceptions only -/

namespace Prog

variable {Op : Type} {Res : Op → Type} {Err α β : Type}

/-- The same operations and values; where one raises so does the other. -/
inductive Similar : Prog Op Res Err α → Prog Op Res Err α → Prop
  | ret (a) : Similar (ret a) (ret a)
  | raise (e e') : Similar (raise e) (raise e')
  | call {op k k'} (h : ∀ r, Similar (k r) (k' r)) : Similar (call op k) (call op k')

theorem Similar.refl (p : Prog Op Res Err α) : Similar p p := by
  induction p with
  | ret a => exact .ret a
  | raise e => exact .raise e e
  | call op k ih => exact .call ih

theorem Similar.bind {p p' : Prog Op Res Err β} {f f' : β → Prog Op Res Err α} (h : Similar p p')
    (hf : ∀ b, Similar (f b) (f' b)) : Similar (p.bind f) (p'.bind f') := by
  induction h with
  | ret b => exact hf b
  | raise e e' => exact .raise e e'
  | call _ ih => exact .call ih

theorem similar_mapError (f : Err → Err) (p : Prog Op Res Err α) : Similar p (p.mapError f) := by
  induction p with
  | ret a => exact .ret a
  | raise e => exact .raise e (f e)
  | call op k ih => exact .call ih

/-- What holds of a program whatever it raises holds of a similar one. -/
theorem Similar.safe {W Ch : Type} {exec : Interleave.Exec W Op Res Err Ch} {inv : W → Prop}
    {R : Interleave.Rely W} {G : Interleave.Guarantee W Op Res Err} {i : Interleave.Tid}
    {Q : Except Err α → W → Prop} {p p' : Prog Op Res Err α} {w : W} (h : Similar p p')
    (hQ : ∀ e e' w, Q (.error e) w → Q (.error e') w) (hp : Interleave.Safe exec inv R G i Q p w) :
    Interleave.Safe exec inv R G i Q p' w := by
  induction h generalizing w with
  | ret a => exact hp
  | raise e e' =>
    have hq := Interleave.safe_raise.mp hp
    exact Interleave.safe_raise.mpr (hQ e e' w hq)
  | call _ ih =>
    refine Interleave.safe_call.mpr fun w' hR hi ch r w'' hx => ?_
    obtain ⟨hG, hk⟩ := Interleave.safe_call.mp hp w' hR hi ch r w'' hx
    exact ⟨hG, ih r hk⟩

end Prog
