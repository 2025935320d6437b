/-
  Programs that raise nothing while their operations answer as expected.

  `Quiet P A Q evs p` is about the paths of `p` on which every operation answers with a value
  that satisfies `A`: `p` raises nothing there, `P` holds before each of its operations, and `Q`
  of what it returns; both may look at all events so far. In a run whose operations do answer
  so, every thread stays quiet (`RunWhere.quiet`).

  What a statement has seen under its locks stays so until its transaction ends (`kept_locked`).
-/
import Valor.Lib.Path

namespace Prog

variable {Op : Type} {Res : Op → Type} {Err α β : Type}

inductive Quiet (P : Op → List (Event Op Res Err) → Prop) (A : (op : Op) → Res op → Prop)
    (Q : α → List (Event Op Res Err) → Prop) : List (Event Op Res Err) → Prog Op Res Err α → Prop
  | ret {evs a} (h : Q a evs) : Quiet P A Q evs (ret a)
  | call {evs op k} (h : P op evs)
      (hk : ∀ a, A op a → Quiet P A Q (evs ++ [⟨op, .ok a⟩]) (k (.ok a))) : Quiet P A Q evs (call op k)

section Quiet

variable {P : Op → List (Event Op Res Err) → Prop} {A : (op : Op) → Res op → Prop}
  {Q : β → List (Event Op Res Err) → Prop} {evs : List (Event Op Res Err)}

theorem Quiet.bind {p : Prog Op Res Err α} {f : α → Prog Op Res Err β}
    {R : α → List (Event Op Res Err) → Prop} (hp : Quiet P A R evs p)
    (hf : ∀ a evs, R a evs → Quiet P A Q evs (f a)) : Quiet P A Q evs (p.bind f) := by
  induction hp with
  | ret h => exact hf _ _ h
  | call h _ ih => exact .call h ih

/-- One operation, and what comes after it. -/
theorem quiet_perform {op : Op} {f : Res op → Prog Op Res Err β} (h : P op evs)
    (hf : ∀ a, A op a → Quiet P A Q (evs ++ [⟨op, .ok a⟩]) (f a)) :
    Quiet P A Q evs ((perform op).bind f) :=
  .call h hf

theorem quiet_lift {ε : Type} {g : ε → Err} {x : Except ε α} {a : α} {f : α → Prog Op Res Err β}
    (hx : x = .ok a) (hf : Quiet P A Q evs (f a)) : Quiet P A Q evs ((lift g x).bind f) := by
  rw [hx]
  exact hf

theorem quiet_raiseWhen {c : Prop} [Decidable c] {e : Err} {f : Unit → Prog Op Res Err β} (hc : ¬c)
    (hf : Quiet P A Q evs (f ())) : Quiet P A Q evs ((raiseWhen c e).bind f) := by
  rw [raiseWhen, if_neg hc]
  exact hf

theorem Quiet.andFinally {last : Op} {p : Prog Op Res Err β}
    (hp : Quiet P A (fun b evs => P last evs ∧ ∀ u, A last u → Q b (evs ++ [⟨last, .ok u⟩])) evs p) :
    Quiet P A Q evs (p.andFinally last) := by
  induction hp with
  | ret h => exact .call h.1 fun u hu => .ret (h.2 u hu)
  | call h _ ih => exact .call h ih

end Quiet

end Prog

namespace ReadCommitted

open Interleave Prog

variable {Db Lock Err α Q Ch W : Type} {Res : Q → Type}

section Runs

variable {exec : Exec W (Op Q) (Op.Res Res) Err Ch} {c₀ c c' : Config W (Op Q) (Op.Res Res) Err α}
  {tr : List (Label (Op Q) (Op.Res Res) Err)} {l : Label (Op Q) (Op.Res Res) Err}
  {ok : List (Label (Op Q) (Op.Res Res) Err) → Config W (Op Q) (Op.Res Res) Err α →
    Label (Op Q) (Op.Res Res) Err → Config W (Op Q) (Op.Res Res) Err α → Prop}
  {P : Tid → Op Q → List (Event (Op Q) (Op.Res Res) Err) → Prop}
  {A : Tid → (op : Op Q) → op.Res Res → Prop}
  {R : Tid → α → List (Event (Op Q) (Op.Res Res) Err) → Prop}

/-- What holds before an operation of a quiet thread. -/
theorem Quiet.step (h : ∀ i, Quiet (P i) (A i) (R i) (own i tr) (c.prog i)) (hs : Step exec c l c') :
    P l.tid l.event.op (own l.tid tr) := by
  cases hs with
  | @mk i op k ch r w' hprog hexec =>
    have hi := h i
    rw [hprog] at hi
    cases hi with
    | call hP _ => exact hP

/-- Threads stay quiet while every operation answers as it is expected to. -/
theorem RunWhere.quiet (hinit : ∀ i, Quiet (P i) (A i) (R i) [] (c₀.prog i))
    (hans : ∀ tr c l c', RunWhere exec ok [] c₀ tr c → Step exec c l c' → ok tr c l c' →
      P l.tid l.event.op (own l.tid tr) → ∃ a, l.event.answer = .ok a ∧ A l.tid l.event.op a)
    (h : RunWhere exec ok [] c₀ tr c) (i : Tid) : Quiet (P i) (A i) (R i) (own i tr) (c.prog i) := by
  induction h generalizing i with
  | nil => exact hinit i
  | @snoc tr c l c' hinit hs hok ih =>
    cases hs with
    | @mk j op k ch r w' hprog hexec =>
      obtain ⟨a, ha, hA⟩ : ∃ a, r = .ok a ∧ A j op a :=
        hans tr c _ _ hinit (.mk hprog hexec) hok (Quiet.step ih (.mk hprog hexec))
      subst ha
      show Quiet (P i) (A i) (R i) _ (Function.update c.prog j (k (.ok a)) i)
      by_cases hj : i = j
      · subst hj
        have hi := ih i
        rw [hprog] at hi
        rw [own_snoc_self, Function.update_self]
        cases hi with
        | call _ hk => exact hk a hA
      · rw [own_snoc_of_ne hj, Function.update_of_ne hj]
        exact ih i

end Runs

/-! ## Under locks -/

section Locked

variable [DecidableEq Lock] {D : Database Db Lock Q Res Err Ch} {same : Lock → Db → Db → Prop}
  {c c' : Config (World Db Lock) (Op Q) (Op.Res Res) Err α} {i : Tid} {l : Lock}
  {tr : List (Label (Op Q) (Op.Res Res) Err)}

/-- Only the end of its transaction takes locks from a thread. -/
theorem exec_keeps {w w' : World Db Lock} {ch : Ch} {op : Op Q} {r : Except Err (op.Res Res)}
    (h : D.exec ch i op w = some (r, w')) (hcommit : op ≠ .commit) (hrollback : op ≠ .rollback) :
    w'.db = w.db ∧ ∀ l, w.owner l = some i → w'.owner l = some i := by
  cases op with
  | sql q =>
    obtain ⟨_, rfl⟩ | h := exec_sql h
    · exact ⟨rfl, fun _ => id⟩
    · cases hst : D.stmt ch i q with
      | query f =>
        rw [hst] at h
        cases h
        exact ⟨rfl, fun _ => id⟩
      | change locks act =>
        rw [hst] at h
        obtain ⟨u, hu, hw⟩ := statement_cases h
        have howner : ∀ l, w.owner l = some i → u.owner l = some i := by
          obtain ⟨_, rfl⟩ := acquire_cases hu
          intro l hl
          dsimp only
          split <;> first | rfl | exact hl
        obtain ⟨_, _, _, _, rfl⟩ | ⟨_, _, _, rfl⟩ := hw
        · exact ⟨(acquire_db hu).1, howner⟩
        · exact ⟨(acquire_db hu).1, howner⟩
  | begin =>
    obtain ⟨_, rfl⟩ | ⟨_, rfl⟩ := exec_begin h
    · exact ⟨rfl, fun _ => id⟩
    · exact ⟨rfl, fun _ => id⟩
  | commit => exact absurd rfl hcommit
  | rollback => exact absurd rfl hrollback

/-- A thread that neither commits nor rolls back keeps its locks, and what they protect. -/
theorem kept_locked (hrefl : ∀ l d, same l d d)
    (htrans : ∀ l a b c, same l a b → same l b c → same l a c)
    (hstmt : ∀ ch i q, (D.stmt ch i q).Within same) (hprotected : Protected same c.world)
    (h : Run D.exec c tr c') (hown : ∀ e ∈ own i tr, e.op ≠ .commit ∧ e.op ≠ .rollback)
    (hl : c.world.owner l = some i) :
    c'.world.owner l = some i ∧ same l c.world.db c'.world.db ∧ Protected same c'.world := by
  induction h with
  | nil => exact ⟨hl, hrefl _ _, hprotected⟩
  | @snoc d c' tr lab _ hs ih =>
    obtain ⟨howner, hsame, hprot⟩ := ih fun e he => hown e (by
      rw [own_append]
      exact List.mem_append_left _ he)
    cases hs with
    | @mk j op k ch r w' hprog hexec =>
      have hprot' := protected_exec hstmt hprot hexec
      by_cases hj : i = j
      · subst hj
        obtain ⟨hcommit, hrollback⟩ := hown ⟨op, r⟩ (by
          rw [own_snoc_self]
          simp)
        obtain ⟨hdb, hkeeps⟩ := exec_keeps hexec hcommit hrollback
        exact ⟨hkeeps l howner, by rwa [hdb], hprot'⟩
      · have hR := exec_undisturbed hrefl htrans hprot hj hexec
        exact ⟨(hR.apart.owner l).mpr howner, htrans _ _ _ _ hsame (hR.same l howner), hprot'⟩

/-- Uncommitted changes are protected throughout a run. -/
theorem run_protected {db : Db} {p : Tid → Transaction Q Res Err α}
    (hstmt : ∀ ch i q, (D.stmt ch i q).Within same) (h : Run D.exec ⟨World.ofDb db, p⟩ tr c) :
    Protected same c.world := by
  induction h with
  | nil => exact protected_ofDb db
  | snoc _ hs ih =>
    cases hs with
    | mk _ hexec => exact protected_exec hstmt ih hexec

/-- What a statement that has succeeded has seen, and the locks it has now. -/
theorem change_step {q : Q} {a : Res q} {locks : Db → Db → List Lock}
    {act : Db → Db → Except Err (Res q × (Db → Db))} (hq : ∀ ch, D.stmt ch i q = .change locks act)
    (h : Step D.exec c ⟨i, ⟨.sql q, .ok a⟩⟩ c') :
    (∃ f, act (c.world.seen i) (c.world.view i) = .ok (a, f)) ∧ c'.world.db = c.world.db ∧
      ∀ l ∈ locks (c.world.seen i) (c.world.view i), c'.world.owner l = some i := by
  cases h with
  | @mk _ _ _ ch _ _ _ hexec =>
    obtain ⟨he, _⟩ | hperform := exec_sql hexec
    · cases he
    · rw [hq] at hperform
      obtain ⟨u, hu, ⟨a', f, hact, ha, rfl⟩ | ⟨e, _, he, _⟩⟩ := statement_cases hperform
      · cases ha
        exact ⟨⟨f, hact⟩, (acquire_db hu).1, fun l hl => acquire_owner hu hl⟩
      · cases he

end Locked

end ReadCommitted
