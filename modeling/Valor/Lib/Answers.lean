/-
  A program under fixed answers.

  Where a program performs no operation twice, what the world answers is a function of the
  operation: `calls` are the operations that the program performs then, and `outcome` is how
  it ends. One law for each construct says what they are, so that a program is taken apart by
  rewriting.

  `Alike` says that two worlds lead a program to the same end; it has a rule for each construct.

  `ascending rank` is the automaton of the programs that go through their operations in the
  order of a rank. A path of such a program that has come to its end is its run under the
  answers that it got (`Accepts.answered`).
-/
import Mathlib.Data.List.Nodup
import Valor.Lib.Automaton
import Valor.Lib.Embedding
import Valor.Lib.Waiting

namespace Prog

variable {Op : Type} {Res : Op → Type} {Err α β : Type}

/-- What each operation answers. -/
abbrev Answers (Op : Type) (Res : Op → Type) (Err : Type) := (op : Op) → Except Err (Res op)

def calls (answers : Answers Op Res Err) : Prog Op Res Err α → List Op
  | ret _ => []
  | raise _ => []
  | call op k => op :: (k (answers op)).calls answers

def outcome (answers : Answers Op Res Err) : Prog Op Res Err α → Except Err α
  | ret a => .ok a
  | raise e => .error e
  | call op k => (k (answers op)).outcome answers

section Laws

variable {answers : Answers Op Res Err} {op last : Op} {p : Prog Op Res Err α} {a : α} {b : β} {e : Err}
  {f : α → Prog Op Res Err β}

@[simp] theorem calls_ret : (ret a : Prog Op Res Err α).calls answers = [] := rfl

@[simp] theorem calls_raise : (raise e : Prog Op Res Err α).calls answers = [] := rfl

@[simp] theorem outcome_ret : (ret a : Prog Op Res Err α).outcome answers = .ok a := rfl

@[simp] theorem outcome_raise : (raise e : Prog Op Res Err α).outcome answers = .error e := rfl

@[simp] theorem calls_call {k : Except Err (Res op) → Prog Op Res Err α} :
    (call op k).calls answers = op :: (k (answers op)).calls answers := rfl

@[simp] theorem outcome_call {k : Except Err (Res op) → Prog Op Res Err α} :
    (call op k).outcome answers = (k (answers op)).outcome answers := rfl

@[simp] theorem calls_perform : (perform op : Prog Op Res Err (Res op)).calls answers = [op] := by
  unfold perform
  cases h : answers op <;> simp [h]

@[simp] theorem outcome_perform : (perform op : Prog Op Res Err (Res op)).outcome answers = answers op := by
  unfold perform
  cases h : answers op <;> simp [h]

@[simp] theorem calls_lift {ε : Type} {g : ε → Err} {x : Except ε α} :
    (lift g x : Prog Op Res Err α).calls answers = [] := by
  cases x <;> rfl

theorem outcome_lift_eq_ok {ε : Type} {g : ε → Err} {x : Except ε α} :
    (lift g x : Prog Op Res Err α).outcome answers = .ok a ↔ x = .ok a := by
  cases x with
  | ok b => simp [lift]
  | error e => simp [lift]

@[simp] theorem calls_raiseWhen {c : Prop} [Decidable c] :
    (raiseWhen c e : Prog Op Res Err Unit).calls answers = [] := by
  unfold raiseWhen
  split <;> rfl

theorem outcome_raiseWhen_eq_ok {c : Prop} [Decidable c] {u : Unit} :
    (raiseWhen c e : Prog Op Res Err Unit).outcome answers = .ok u ↔ ¬c := by
  unfold raiseWhen
  split
  · next h => simpa using h
  · next h => simpa using h

theorem mem_calls_bind :
    op ∈ (p.bind f).calls answers ↔
      op ∈ p.calls answers ∨ ∃ a, p.outcome answers = .ok a ∧ op ∈ (f a).calls answers := by
  induction p with
  | ret a => simp
  | raise e => simp
  | call o k ih => simp [ih, or_assoc]

theorem outcome_bind : (p.bind f).outcome answers = p.outcome answers >>= fun a => (f a).outcome answers := by
  induction p with
  | ret a => rfl
  | raise e => rfl
  | call o k ih => exact ih _

theorem outcome_bind_eq_ok :
    (p.bind f).outcome answers = .ok b ↔
      ∃ a, p.outcome answers = .ok a ∧ (f a).outcome answers = .ok b := by
  rw [outcome_bind]
  constructor
  · exact Except.bind_ok_cases
  · rintro ⟨a, ha, hb⟩
    exact Except.bind_eq_ok ha hb

/-- What follows a first part that has returned. -/
theorem outcome_bind_of_ok (h : p.outcome answers = .ok a) :
    (p.bind f).outcome answers = (f a).outcome answers := by
  rw [outcome_bind, h]
  rfl

@[simp] theorem calls_andFinally :
    (p.andFinally last).calls answers = p.calls answers ++ [last] := by
  induction p with
  | ret a => cases h : answers last <;> simp [andFinally, h]
  | raise e => cases h : answers last <;> simp [andFinally, h]
  | call o k ih => simp [andFinally, ih]

theorem outcome_andFinally_of_ok {u : Res last} (h : answers last = .ok u) :
    (p.andFinally last).outcome answers = p.outcome answers := by
  induction p with
  | ret a => simp [andFinally, h]
  | raise e => simp [andFinally, h]
  | call o k ih => simp [andFinally, ih]

end Laws

/-! ## Worlds that a program does not tell apart -/

section Alike

variable {answers answers' : Answers Op Res Err} {p : Prog Op Res Err α} {f : α → Prog Op Res Err β}

def Alike (answers answers' : Answers Op Res Err) (p : Prog Op Res Err α) : Prop :=
  p.outcome answers = p.outcome answers'

theorem outcome_mapError {g : Err → Err} :
    (p.mapError g).outcome answers = (p.outcome answers).mapError g := by
  unfold mapError
  induction p with
  | ret a => rfl
  | raise e => rfl
  | call o k ih => exact ih _

theorem alike_pure (a : α) : Alike answers answers' (ret a : Prog Op Res Err α) := rfl

theorem alike_lift {ε : Type} {g : ε → Err} {x : Except ε α} :
    Alike answers answers' (lift g x : Prog Op Res Err α) := by
  cases x <;> rfl

theorem alike_perform {op : Op} (h : answers op = answers' op) :
    Alike answers answers' (perform op : Prog Op Res Err (Res op)) := by
  unfold Alike
  rw [outcome_perform, outcome_perform, h]

theorem alike_bind (hp : Alike answers answers' p) (hf : ∀ a, Alike answers answers' (f a)) :
    Alike answers answers' (p.bind f) := by
  have hout : (fun a => (f a).outcome answers) = fun a => (f a).outcome answers' := funext hf
  unfold Alike at hp ⊢
  rw [outcome_bind, outcome_bind, hp, hout]

/-- Where the program goes on only if `c` does not hold. -/
theorem alike_raiseWhen {c : Prop} [Decidable c] {e : Err} {q : Unit → Prog Op Res Err β}
    (h : ¬c → Alike answers answers' (q ())) : Alike answers answers' ((raiseWhen c e).bind q) := by
  unfold raiseWhen
  split
  · rfl
  · next hc => exact h hc

theorem alike_mapError {g : Err → Err} (h : Alike answers answers' p) :
    Alike answers answers' (p.mapError g) := by
  unfold Alike at h ⊢
  rw [outcome_mapError, outcome_mapError, h]

end Alike

/-! ## In the order of a rank -/

section Ascending

variable {rank : Op → Nat} {Q : Nat → Except Err α → Prop} {n : Nat} {p q : Prog Op Res Err α}
  {evs : List (Event Op Res Err)}

/-- The state is the least rank that may follow. -/
def ascending (rank : Op → Nat) : Automaton Op Res Err Nat where
  may n op := n ≤ rank op
  next _ e := rank e.op + 1

theorem Accepts.ascends (h : Accepts (ascending rank) Q n p) (hp : Path p evs q) :
    (evs.map fun e => rank e.op).Pairwise (· < ·) ∧ ∀ e ∈ evs, n ≤ rank e.op := by
  induction hp generalizing n with
  | nil => simp
  | @cons op k r evs q _ ih =>
    cases h with
    | call hmay hk =>
      obtain ⟨hpairs, hleast⟩ := ih (hk r)
      refine ⟨?_, ?_⟩
      · rw [List.map_cons, List.pairwise_cons]
        refine ⟨?_, hpairs⟩
        intro m hm
        obtain ⟨e, he, rfl⟩ := List.mem_map.mp hm
        exact hleast e he
      · intro e he
        rcases List.mem_cons.mp he with rfl | he
        · exact hmay
        · have hnext : rank op + 1 ≤ rank e.op := hleast e he
          have hfirst : n ≤ rank op := hmay
          omega

/-- The run under fixed answers is a path. -/
theorem path_calls (answers : Answers Op Res Err) (p : Prog Op Res Err α) :
    ∃ q : Prog Op Res Err α, Path p ((p.calls answers).map fun op => ⟨op, answers op⟩) q ∧ q.Finished := by
  induction p with
  | ret a => exact ⟨.ret a, .nil _, finished_ret⟩
  | raise e => exact ⟨.raise e, .nil _, finished_raise⟩
  | call op k ih =>
    obtain ⟨q, hq, hfinished⟩ := ih (answers op)
    exact ⟨q, .cons hq, hfinished⟩

theorem Accepts.le_rank {answers : Answers Op Res Err} {op : Op} (h : Accepts (ascending rank) Q n p)
    (hop : op ∈ p.calls answers) : n ≤ rank op := by
  obtain ⟨q, hq, _⟩ := path_calls answers p
  exact (h.ascends hq).2 ⟨op, answers op⟩ (List.mem_map.mpr ⟨op, hop, rfl⟩)

/-- What a program was answered leads it the same way again. -/
theorem Path.calls_eq {answers : Answers Op Res Err} (hp : Path p evs q) (hq : q.Finished)
    (h : ∀ e ∈ evs, answers e.op = e.answer) :
    p.calls answers = evs.map (·.op) ∧ p.outcome answers = q.outcome answers := by
  induction hp with
  | nil =>
    obtain ⟨a, rfl⟩ | ⟨e, rfl⟩ := hq <;> exact ⟨rfl, rfl⟩
  | @cons op k r evs q _ ih =>
    have hr : answers op = r := h ⟨op, r⟩ (List.mem_cons_self ..)
    obtain ⟨hcalls, houtcome⟩ := ih hq fun e he => h e (List.mem_cons_of_mem _ he)
    rw [calls_call, outcome_call, hr, hcalls, houtcome]
    exact ⟨rfl, rfl⟩

/-- Operations that are all different are answered by a function. -/
theorem exists_answers [Nonempty Err] (h : (evs.map (·.op)).Nodup) :
    ∃ answers : Answers Op Res Err, ∀ e ∈ evs, answers e.op = e.answer := by
  classical
  obtain ⟨e₀⟩ := ‹Nonempty Err›
  refine ⟨fun op => if h : ∃ r, ⟨op, r⟩ ∈ evs then h.choose else .error e₀, fun e he => ?_⟩
  have hex : ∃ r, ⟨e.op, r⟩ ∈ evs := ⟨e.answer, he⟩
  have hsame : (⟨e.op, hex.choose⟩ : Event Op Res Err) = e :=
    List.inj_on_of_nodup_map h hex.choose_spec he rfl
  calc (if h : ∃ r, ⟨e.op, r⟩ ∈ evs then h.choose else .error e₀) = hex.choose := dif_pos hex
    _ = e.answer := by
      obtain ⟨op, r⟩ := e
      simpa using hsame

/-- A path that has come to its end is the run under the answers it got. -/
theorem Accepts.answered [Nonempty Err] (h : Accepts (ascending rank) Q n p) (hp : Path p evs q)
    (hq : q.Finished) : ∃ answers : Answers Op Res Err, (∀ e ∈ evs, answers e.op = e.answer) ∧
      p.calls answers = evs.map (·.op) ∧ p.outcome answers = q.outcome answers := by
  have hranks : ((evs.map (·.op)).map rank).Nodup := by
    rw [List.map_map]
    exact (h.ascends hp).1.imp fun hlt => Nat.ne_of_lt hlt
  obtain ⟨answers, hanswers⟩ := exists_answers (List.Nodup.of_map rank hranks)
  exact ⟨answers, hanswers, hp.calls_eq hq hanswers⟩

end Ascending

end Prog
