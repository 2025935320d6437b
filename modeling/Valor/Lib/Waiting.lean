/-
  Waiting for locks.

  A statement waits while another thread has a lock that it needs. If threads ask only for
  locks of a higher rank than those they have, and threads that are done have none, then
  every thread waits, in the end, for one that can take a step (`progress_of_ranked`).

  A thread runs to its end if no other thread has a lock (`finish_alone`).
-/
import Mathlib.Logic.Relation
import Valor.Lib.Path

namespace Prog

variable {Op : Type} {Res : Op → Type} {Err α β : Type}

/-- The program has returned or raised. -/
def Finished (p : Prog Op Res Err α) : Prop := (∃ a, p = .ret a) ∨ ∃ e, p = .raise e

@[simp] theorem finished_ret {a : α} : (Prog.ret a : Prog Op Res Err α).Finished := .inl ⟨a, rfl⟩

@[simp] theorem finished_raise {e : Err} : (Prog.raise e : Prog Op Res Err α).Finished :=
  .inr ⟨e, rfl⟩

@[simp] theorem not_finished_call {op : Op} {k : Except Err (Res op) → Prog Op Res Err α} :
    ¬(Prog.call op k).Finished := by
  rintro (⟨_, h⟩ | ⟨_, h⟩) <;> cases h

variable {p q : Prog Op Res Err α} {last : Op} {evs : List (Event Op Res Err)}

/-- A context manager that has been left. -/
theorem Path.andFinally_last (h : Path (p.andFinally last) evs q) (hq : q.Finished) :
    ∃ evs' r, evs = evs' ++ [⟨last, r⟩] := by
  induction p generalizing evs with
  | ret a =>
    obtain ⟨_, rfl⟩ | ⟨r, evs', rfl, hk⟩ := path_call h
    · exact absurd hq not_finished_call
    · refine ⟨[], r, ?_⟩
      cases r with
      | ok u => rw [(path_ret hk).1, List.nil_append]
      | error e => rw [(path_raise hk).1, List.nil_append]
  | raise e =>
    obtain ⟨_, rfl⟩ | ⟨r, evs', rfl, hk⟩ := path_call h
    · exact absurd hq not_finished_call
    · refine ⟨[], r, ?_⟩
      cases r with
      | ok u => rw [(path_raise hk).1, List.nil_append]
      | error e => rw [(path_raise hk).1, List.nil_append]
  | call op k ih =>
    obtain ⟨_, rfl⟩ | ⟨r, evs', rfl, hk⟩ := path_call h
    · exact absurd hq not_finished_call
    · obtain ⟨evs', r', rfl⟩ := ih r hk
      exact ⟨⟨op, r⟩ :: evs', r', rfl⟩

/-- The same where its value is only wrapped. -/
theorem Path.wrapped_last {f : α → β} {q : Prog Op Res Err β}
    (h : Path ((p.andFinally last).bind fun a => .ret (f a)) evs q) (hq : q.Finished) :
    ∃ evs' r, evs = evs' ++ [⟨last, r⟩] := by
  obtain ⟨p', hp', rfl⟩ | ⟨evs₁, evs₂, a, rfl, hp', hf⟩ := h.bind_cases
  · refine hp'.andFinally_last ?_
    cases p' with
    | ret a => exact finished_ret
    | raise e => exact finished_raise
    | call op k => exact absurd hq not_finished_call
  · obtain ⟨rfl, _⟩ := path_ret hf
    rw [List.append_nil]
    exact hp'.andFinally_last finished_ret

end Prog

namespace ReadCommitted

open Interleave Prog

variable {Db Lock Err α Q Ch W : Type} {Res : Q → Type} [DecidableEq Lock]
  {D : Database Db Lock Q Res Err Ch}

/-! ## Who waits for whom -/

/-- The locks that an operation of thread `i` needs. -/
def Database.needs (D : Database Db Lock Q Res Err Ch) (ch : Ch) (i : Tid) (op : Op Q)
    (w : World Db Lock) : List Lock :=
  match op with
  | .sql q =>
      match D.stmt ch i q with
      | .query _ => []
      | .change locks _ => locks (w.seen i) (w.view i)
  | _ => []

/-- Thread `i` is at an operation that needs a lock of thread `j`. -/
def Waits (D : Database Db Lock Q Res Err Ch)
    (c : Config (World Db Lock) (Op Q) (Op.Res Res) Err α) (i j : Tid) : Prop :=
  j ≠ i ∧ ∃ op k ch, c.prog i = .call op k ∧ ∃ l ∈ D.needs ch i op c.world, c.world.owner l = some j

/-- Thread `i` can take a step. -/
def Enabled (D : Database Db Lock Q Res Err Ch)
    (c : Config (World Db Lock) (Op Q) (Op.Res Res) Err α) (i : Tid) : Prop :=
  ∃ l c', l.tid = i ∧ Step D.exec c l c'

/-- Threads ask for locks of a higher rank than those they have, and those that are done
    have none. -/
structure Ranked (D : Database Db Lock Q Res Err Ch) (rank : Lock → Nat)
    (c : Config (World Db Lock) (Op Q) (Op.Res Res) Err α) : Prop where
  climbs : ∀ i op k ch l l', c.prog i = .call op k → l ∈ D.needs ch i op c.world →
    c.world.owner l ≠ some i → c.world.owner l' = some i → rank l' < rank l
  unlocked : ∀ i, (c.prog i).Finished → ∀ l, c.world.owner l ≠ some i

section Waiting

variable {c : Config (World Db Lock) (Op Q) (Op.Res Res) Err α} {ch : Ch} {i : Tid} {op : Op Q}
  {w : World Db Lock}

omit [DecidableEq Lock] in
theorem needs_query {q : Q} {f : Db → Except Err (Res q)} (h : D.stmt ch i q = .query f) :
    D.needs ch i (.sql q) w = [] := by
  simp only [Database.needs, h]

omit [DecidableEq Lock] in
theorem needs_change {q : Q} {locks : Db → Db → List Lock}
    {act : Db → Db → Except Err (Res q × (Db → Db))} (h : D.stmt ch i q = .change locks act) :
    D.needs ch i (.sql q) w = locks (w.seen i) (w.view i) := by
  simp only [Database.needs, h]

theorem exec_none (h : D.exec ch i op w = none) :
    ∃ l ∈ D.needs ch i op w, ∃ j, j ≠ i ∧ w.owner l = some j := by
  cases op with
  | sql q =>
    simp only [Database.exec] at h
    split at h
    · cases h
    · cases hst : D.stmt ch i q with
      | query f =>
        rw [hst] at h
        cases h
      | change locks act =>
        rw [hst] at h
        simp only [World.perform, World.statement] at h
        by_contra hnone
        have hfree : ∀ l ∈ locks (w.seen i) (w.view i), w.owner l = none ∨ w.owner l = some i := by
          intro l hl
          by_contra hl'
          obtain ⟨hne, hother⟩ := not_or.mp hl'
          obtain ⟨j, hj⟩ := Option.ne_none_iff_exists'.mp hne
          refine hnone ⟨l, ?_, j, fun hji => hother (by rw [hj, hji]), hj⟩
          rwa [needs_change hst]
        rw [World.acquire, if_pos hfree] at h
        dsimp only at h
        split at h <;> cases h
  | begin =>
    simp only [Database.exec] at h
    split at h <;> cases h
  | commit =>
    simp only [Database.exec] at h
    split at h <;> cases h
  | rollback => cases h

theorem enabled_or_waits (ch : Ch) {k : Except Err (op.Res Res) → Transaction Q Res Err α}
    (hprog : c.prog i = .call op k) :
    Enabled D c i ∨ ∃ l ∈ D.needs ch i op c.world, ∃ j, j ≠ i ∧ c.world.owner l = some j := by
  cases hexec : D.exec ch i op c.world with
  | none => exact .inr (exec_none hexec)
  | some x => exact .inl ⟨_, _, rfl, .mk hprog hexec⟩

theorem progress_of_owner {rank : Lock → Nat} {top : Nat} (hr : Ranked D rank c)
    (htop : ∀ l, rank l ≤ top) (ch : Ch) (n : Nat) {l : Lock} (hl : c.world.owner l = some i)
    (hn : top < rank l + n) : ∃ j, Relation.ReflTransGen (Waits D c) i j ∧ Enabled D c j := by
  induction n generalizing i l with
  | zero =>
    have hle := htop l
    omega
  | succ n ih =>
    cases hprog : c.prog i with
    | ret a => exact absurd hl (hr.unlocked i (hprog ▸ finished_ret) l)
    | raise e => exact absurd hl (hr.unlocked i (hprog ▸ finished_raise) l)
    | call op k =>
      obtain henabled | ⟨l', hl', j, hji, hj⟩ := enabled_or_waits ch hprog
      · exact ⟨i, .refl, henabled⟩
      · have hne : c.world.owner l' ≠ some i := by
          rw [hj]
          simpa using hji
        have hclimbs := hr.climbs i op k ch l' l hprog hl' hne hl
        obtain ⟨m, hm, henabled⟩ := ih hj (by omega)
        exact ⟨m, .head ⟨hji, op, k, ch, hprog, l', hl', hj⟩ hm, henabled⟩

/-- No deadlock: a thread that is not done can take a step, or waits for one that can. -/
theorem progress_of_ranked {rank : Lock → Nat} {top : Nat} (hr : Ranked D rank c)
    (htop : ∀ l, rank l ≤ top) (ch : Ch) (hi : ¬(c.prog i).Finished) :
    ∃ j, Relation.ReflTransGen (Waits D c) i j ∧ Enabled D c j := by
  cases hprog : c.prog i with
  | ret a => exact absurd (hprog ▸ finished_ret) hi
  | raise e => exact absurd (hprog ▸ finished_raise) hi
  | call op k =>
    obtain henabled | ⟨l, hl, j, hji, hj⟩ := enabled_or_waits ch hprog
    · exact ⟨i, .refl, henabled⟩
    · obtain ⟨m, hm, henabled⟩ := progress_of_owner hr htop ch (top + 1) hj (by omega)
      exact ⟨m, .head ⟨hji, op, k, ch, hprog, l, hl, hj⟩ hm, henabled⟩

end Waiting

/-! ## Threads without locks -/

section Unlocked

variable {db : Db} {p : Tid → Transaction Q Res Err α} {tr : List (Label (Op Q) (Op.Res Res) Err)}
  {c : Config (World Db Lock) (Op Q) (Op.Res Res) Err α} {i : Tid}

/-- A thread that has done nothing, or has rolled back last, has no lock. -/
theorem unlocked_of_last (h : Run D.exec ⟨World.ofDb db, p⟩ tr c)
    (hlast : ∀ e ∈ (own i tr).getLast?, e.op = .rollback) (l : Lock) : c.world.owner l ≠ some i := by
  induction h with
  | nil => simp [World.ofDb]
  | @snoc c' c'' tr l' _ hs ih =>
    cases hs with
    | @mk j op k ch r w' hprog hexec =>
      by_cases hj : i = j
      · subst hj
        rw [own_snoc_self, List.getLast?_append] at hlast
        obtain rfl : op = .rollback := hlast ⟨op, r⟩ (by simp)
        rw [(exec_rollback hexec).2, World.rollback]
        dsimp only
        split
        · simp
        · assumption
      · rw [own_snoc_of_ne hj] at hlast
        exact fun hl => ih hlast (((exec_apart hj hexec).owner l).mp hl)

/-- A thread finishes if no other has a lock. -/
theorem finish_alone (D : Database Db Lock Q Res Err Ch) (ch : Ch)
    (c : Config (World Db Lock) (Op Q) (Op.Res Res) Err α) (i : Tid)
    (halone : ∀ l j, c.world.owner l = some j → j = i) : ∃ tr c', Run D.exec c tr c' ∧
      (∀ l ∈ tr, l.tid = i) ∧ (∀ j ≠ i, c'.prog j = c.prog j) ∧ (c'.prog i).Finished ∧
      ∀ l j, c'.world.owner l = some j → j = i := by
  generalize hp : c.prog i = q
  induction q generalizing c with
  | ret a => exact ⟨[], c, .nil c, by simp, fun _ _ => rfl, hp ▸ finished_ret, halone⟩
  | raise e => exact ⟨[], c, .nil c, by simp, fun _ _ => rfl, hp ▸ finished_raise, halone⟩
  | call op k ih =>
    cases hexec : D.exec ch i op c.world with
    | none =>
      obtain ⟨l, _, j, hji, hj⟩ := exec_none hexec
      exact absurd (halone l j hj) hji
    | some x =>
      obtain ⟨r, w⟩ := x
      have hs : Step D.exec c ⟨i, ⟨op, r⟩⟩ ⟨w, Function.update c.prog i (k r)⟩ := .mk hp hexec
      obtain ⟨tr, c', hrun, htids, hothers, hfinished, halone'⟩ :=
        ih r ⟨w, Function.update c.prog i (k r)⟩
          (fun l j hj => by
            by_contra hji
            exact hji (halone l j (((exec_apart hji hexec).owner l).mp hj)))
          (Function.update_self ..)
      refine ⟨_ :: tr, c', .cons hs hrun, ?_, fun j hj => ?_, hfinished, halone'⟩
      · intro l hl
        rcases List.mem_cons.mp hl with rfl | hl
        · rfl
        · exact htids l hl
      · rw [hothers j hj]
        exact Function.update_of_ne hj ..

end Unlocked

end ReadCommitted
