/-
  Programs that keep to an automaton.

  An automaton reads what a program does: `may` says which operations it allows in a state,
  `next` where an operation with its answer leads. `Accepts A Q s p` says that `p`, from the
  state `s`, performs nothing that is not allowed, whatever it is answered, and ends in a
  state and with an outcome that satisfy `Q`. The rules go through the program as it is
  written; `Accepts.interpret` replaces operations by programs where each of them simulates
  the operation that it stands for.

  A path of an accepted program is a path of the automaton (`Accepts.path`), and so are the
  own events of a thread in every interleaving (`run_accepts`).
-/
import Valor.Lib.Embedding

namespace Prog

variable {Op Op' : Type} {Res : Op → Type} {Res' : Op' → Type} {Err S S' α β : Type}

structure Automaton (Op : Type) (Res : Op → Type) (Err S : Type) where
  may : S → Op → Prop
  next : S → Event Op Res Err → S

/-- The state after the events. -/
def Automaton.run (A : Automaton Op Res Err S) (s : S) (evs : List (Event Op Res Err)) : S :=
  evs.foldl A.next s

inductive Accepts (A : Automaton Op Res Err S) (Q : S → Except Err α → Prop) :
    S → Prog Op Res Err α → Prop
  | ret {s a} (h : Q s (.ok a)) : Accepts A Q s (ret a)
  | raise {s e} (h : Q s (.error e)) : Accepts A Q s (raise e)
  | call {s op k} (h : A.may s op) (hk : ∀ r, Accepts A Q (A.next s ⟨op, r⟩) (k r)) :
      Accepts A Q s (call op k)

variable {A : Automaton Op Res Err S} {Q : S → Except Err α → Prop} {s : S}

theorem Accepts.mono {Q' : S → Except Err α → Prop} {p : Prog Op Res Err α} (h : Accepts A Q s p)
    (hQ : ∀ t x, Q t x → Q' t x) : Accepts A Q' s p := by
  induction h with
  | ret h => exact .ret (hQ _ _ h)
  | raise h => exact .raise (hQ _ _ h)
  | call h _ ih => exact .call h ih

theorem Accepts.tryBind {Q' : S → Except Err β → Prop} {p : Prog Op Res Err β}
    {k : Except Err β → Prog Op Res Err α} (hp : Accepts A Q' s p)
    (hk : ∀ t x, Q' t x → Accepts A Q t (k x)) : Accepts A Q s (p.tryBind k) := by
  induction hp with
  | ret h => exact hk _ _ h
  | raise h => exact hk _ _ h
  | call h _ ih => exact .call h ih

theorem Accepts.bind {Q' : S → Except Err β → Prop} {p : Prog Op Res Err β}
    {f : β → Prog Op Res Err α} (hp : Accepts A Q' s p)
    (hraise : ∀ t e, Q' t (.error e) → Q t (.error e))
    (hf : ∀ t b, Q' t (.ok b) → Accepts A Q t (f b)) : Accepts A Q s (p.bind f) := by
  rw [← tryBind_eq_bind]
  refine hp.tryBind fun t x hx => ?_
  cases x with
  | ok b => exact hf t b hx
  | error e => exact .raise (hraise t e hx)

theorem accepts_perform (op : Op) {Q : S → Except Err (Res op) → Prop} (h : A.may s op)
    (hQ : ∀ r, Q (A.next s ⟨op, r⟩) r) : Accepts A Q s (perform op) := by
  refine .call h fun r => ?_
  cases r with
  | ok a => exact .ret (hQ _)
  | error e => exact .raise (hQ _)

/-- An operation, and what follows its answer. -/
theorem accepts_perform_bind {op : Op} {f : Res op → Prog Op Res Err α} (h : A.may s op)
    (hraise : ∀ e, Q (A.next s ⟨op, .error e⟩) (.error e))
    (hf : ∀ a, Accepts A Q (A.next s ⟨op, .ok a⟩) (f a)) : Accepts A Q s ((perform op).bind f) := by
  refine .call h fun r => ?_
  cases r with
  | ok a => exact hf a
  | error e => exact .raise (hraise e)

theorem accepts_lift {ε : Type} {g : ε → Err} {x : Except ε β} {f : β → Prog Op Res Err α}
    (hraise : ∀ e, x = .error e → Q s (.error (g e)))
    (hf : ∀ b, x = .ok b → Accepts A Q s (f b)) : Accepts A Q s ((lift g x).bind f) := by
  cases x with
  | ok b => exact hf b rfl
  | error e => exact .raise (hraise e rfl)

theorem accepts_raiseWhen {c : Prop} [Decidable c] {e : Err} {f : Unit → Prog Op Res Err α}
    (hraise : c → Q s (.error e)) (hf : ¬c → Accepts A Q s (f ())) :
    Accepts A Q s ((raiseWhen c e).bind f) := by
  unfold raiseWhen
  split
  · next h => exact .raise (hraise h)
  · next h => exact hf h

/-- Whatever the way out, `last` comes at the end. -/
theorem Accepts.andFinally {last : Op} {p : Prog Op Res Err α} {P : S → Except Err α → Prop}
    (hp : Accepts A P s p) (hmay : ∀ t x, P t x → A.may t last)
    (hok : ∀ t x u, P t x → Q (A.next t ⟨last, .ok u⟩) x)
    (herror : ∀ t x e, P t x → Q (A.next t ⟨last, .error e⟩) (.error e)) :
    Accepts A Q s (p.andFinally last) := by
  induction hp with
  | ret h =>
    refine .call (hmay _ _ h) fun r => ?_
    cases r with
    | ok u => exact .ret (hok _ _ u h)
    | error e => exact .raise (herror _ _ e h)
  | raise h =>
    refine .call (hmay _ _ h) fun r => ?_
    cases r with
    | ok u => exact .raise (hok _ _ u h)
    | error e => exact .raise (herror _ _ e h)
  | call h _ ih => exact .call h ih

/-- Programs in the place of operations, each of which simulates its operation. -/
theorem Accepts.interpret {B : Automaton Op' Res' Err S'} {R : S' → S → Prop}
    {impl : (op : Op') → Prog Op Res Err (Res' op)} {P : S' → Except Err α → Prop}
    (himpl : ∀ s' s op, R s' s → B.may s' op →
      Accepts A (fun t r => R (B.next s' ⟨op, r⟩) t) s (impl op))
    (hQ : ∀ s' s x, R s' s → P s' x → Q s x) {t : S'} {p : Prog Op' Res' Err α}
    (h : Accepts B P t p) (hR : R t s) : Accepts A Q s (p.interpret impl) := by
  induction h generalizing s with
  | ret h => exact .ret (hQ _ _ _ hR h)
  | raise h => exact .raise (hQ _ _ _ hR h)
  | call h _ ih => exact (himpl _ _ _ hR h).tryBind fun t r ht => ih r ht

/-! ## Paths -/

theorem Accepts.path {p q : Prog Op Res Err α} {evs : List (Event Op Res Err)} (h : Accepts A Q s p)
    (hp : Path p evs q) : Accepts A Q (A.run s evs) q := by
  induction hp generalizing s with
  | nil => exact h
  | cons _ ih =>
    cases h with
    | call _ hk => exact ih (hk _)

theorem Accepts.may {op : Op} {k : Except Err (Res op) → Prog Op Res Err α}
    (h : Accepts A Q s (.call op k)) : A.may s op := by
  cases h with
  | call h _ => exact h

end Prog

namespace ReadCommitted

open Interleave Prog

variable {W Ch Q Err α S : Type} {Res : Q → Type} {exec : Exec W (Op Q) (Op.Res Res) Err Ch}
  {c c' : Config W (Op Q) (Op.Res Res) Err α} {tr : List (Label (Op Q) (Op.Res Res) Err)}
  {A : Automaton (Op Q) (Op.Res Res) Err S} {Post : S → Except Err α → Prop} {s : S}

/-- A thread whose program is accepted keeps to the automaton, whatever the others do. -/
theorem run_accepts (h : Run exec c tr c') {i : Tid} (hp : Accepts A Post s (c.prog i)) :
    Accepts A Post (A.run s (own i tr)) (c'.prog i) :=
  hp.path (run_path h i)

end ReadCommitted
