/-
  Where a program is, told from what it has done.

  A program is deterministic in the answers it gets: `Path p evs q` says that after the
  events `evs` the program `p` has become `q`. In a run every thread is on the path of its
  own events (`Run.path`), so what a thread has done says what it can still do.

  A thread that has written nothing reads the committed database (`answered_query`).
-/
import Valor.Lib.Transaction

namespace Prog

variable {Op : Type} {Res : Op → Type} {Err α β : Type}

inductive Path : Prog Op Res Err α → List (Event Op Res Err) → Prog Op Res Err α → Prop
  | nil (p) : Path p [] p
  | cons {op k r evs q} (h : Path (k r) evs q) : Path (.call op k) (⟨op, r⟩ :: evs) q

variable {p q : Prog Op Res Err α} {op : Op} {k : Except Err (Res op) → Prog Op Res Err α}
  {evs : List (Event Op Res Err)}

theorem path_ret {a : α} (h : Path (.ret a) evs q) : evs = [] ∧ q = .ret a := by
  cases h
  exact ⟨rfl, rfl⟩

theorem path_raise {e : Err} (h : Path (.raise e) evs q) : evs = [] ∧ q = .raise e := by
  cases h
  exact ⟨rfl, rfl⟩

theorem path_call (h : Path (.call op k) evs q) :
    (evs = [] ∧ q = .call op k) ∨ ∃ r evs', evs = ⟨op, r⟩ :: evs' ∧ Path (k r) evs' q := by
  cases h with
  | nil => exact .inl ⟨rfl, rfl⟩
  | @cons _ _ r evs _ h => exact .inr ⟨r, evs, rfl, h⟩

theorem Path.snoc {r : Except Err (Res op)} (h : Path p evs (.call op k)) :
    Path p (evs ++ [⟨op, r⟩]) (k r) := by
  generalize hq : Prog.call op k = q at h
  induction h with
  | nil p =>
    subst hq
    exact .cons (.nil _)
  | cons _ ih => exact .cons (ih hq)

/-- On the way of a sequence: in its first part, or after it. -/
theorem Path.bind_cases {p : Prog Op Res Err α} {f : α → Prog Op Res Err β}
    {q : Prog Op Res Err β} (h : Path (p.bind f) evs q) :
    (∃ p', Path p evs p' ∧ q = p'.bind f) ∨
      ∃ evs₁ evs₂ a, evs = evs₁ ++ evs₂ ∧ Path p evs₁ (.ret a) ∧ Path (f a) evs₂ q := by
  induction p generalizing evs with
  | ret a => exact .inr ⟨[], evs, a, rfl, .nil _, h⟩
  | raise e =>
    obtain ⟨rfl, rfl⟩ := path_raise h
    exact .inl ⟨.raise e, .nil _, rfl⟩
  | call op k ih =>
    obtain ⟨rfl, rfl⟩ | ⟨r, evs, rfl, hk⟩ := path_call h
    · exact .inl ⟨.call op k, .nil _, rfl⟩
    · obtain ⟨p', hp', rfl⟩ | ⟨evs₁, evs₂, a, rfl, hp', hf⟩ := ih r hk
      · exact .inl ⟨p', .cons hp', rfl⟩
      · exact .inr ⟨⟨op, r⟩ :: evs₁, evs₂, a, rfl, .cons hp', hf⟩

/-- A sequence that has returned. -/
theorem Path.bind_ret {p : Prog Op Res Err α} {f : α → Prog Op Res Err β} {b : β}
    (h : Path (p.bind f) evs (.ret b)) :
    ∃ evs₁ evs₂ a, evs = evs₁ ++ evs₂ ∧ Path p evs₁ (.ret a) ∧ Path (f a) evs₂ (.ret b) := by
  obtain ⟨p', hp', hb⟩ | h := h.bind_cases
  · cases p' with
    | ret a => exact ⟨evs, [], a, (List.append_nil _).symm, hp', hb ▸ .nil _⟩
    | raise e => cases hb
    | call op k => cases hb
  · exact h

/-- A first operation, and what it answered. -/
theorem Path.perform_ret {k : Res op → Prog Op Res Err β} {b : β}
    (h : Path ((perform op).bind k) evs (.ret b)) :
    ∃ a evs', evs = ⟨op, .ok a⟩ :: evs' ∧ Path (k a) evs' (.ret b) := by
  obtain ⟨_, hb⟩ | ⟨r, evs', rfl, hk⟩ := path_call h
  · cases hb
  · cases r with
    | ok a => exact ⟨a, evs', rfl, hk⟩
    | error e => cases (path_raise hk).2

/-- A context manager that has returned: its body has. -/
theorem Path.andFinally_ret {last : Op} {a : α} (h : Path (p.andFinally last) evs (.ret a)) :
    ∃ evs' u, evs = evs' ++ [⟨last, .ok u⟩] ∧ Path p evs' (.ret a) := by
  induction p generalizing evs with
  | ret b =>
    obtain ⟨_, hb⟩ | ⟨r, evs', rfl, hk⟩ := path_call h
    · cases hb
    · cases r with
      | ok u =>
        obtain ⟨rfl, hb⟩ := path_ret hk
        cases hb
        exact ⟨[], u, rfl, .nil _⟩
      | error e => cases (path_raise hk).2
  | raise e =>
    obtain ⟨_, hb⟩ | ⟨r, evs', rfl, hk⟩ := path_call h
    · cases hb
    · cases r <;> cases (path_raise hk).2
  | call op k ih =>
    obtain ⟨_, hb⟩ | ⟨r, evs', rfl, hk⟩ := path_call h
    · cases hb
    · obtain ⟨evs, u, rfl, hbody⟩ := ih r hk
      exact ⟨⟨op, r⟩ :: evs, u, rfl, .cons hbody⟩

/-- Every operation the program can perform satisfies `P`. -/
inductive Only (P : Op → Prop) : Prog Op Res Err α → Prop
  | ret (a) : Only P (ret a)
  | raise (e) : Only P (raise e)
  | call {o : Op} {f : Except Err (Res o) → Prog Op Res Err α} (h : P o) (hk : ∀ r, Only P (f r)) :
      Only P (call o f)

section Only

variable {P : Op → Prop}

theorem Only.bind {p : Prog Op Res Err α} {f : α → Prog Op Res Err β} (hp : p.Only P)
    (hf : ∀ a, (f a).Only P) : (p.bind f).Only P := by
  induction hp with
  | ret a => exact hf a
  | raise e => exact .raise e
  | call h _ ih => exact .call h ih

theorem only_perform (h : P op) : (perform op : Prog Op Res Err (Res op)).Only P := by
  refine .call h fun r => ?_
  cases r with
  | ok a => exact .ret a
  | error e => exact .raise e

theorem only_lift {ε : Type} {g : ε → Err} (x : Except ε α) :
    (lift g x : Prog Op Res Err α).Only P := by
  cases x with
  | ok a => exact .ret a
  | error e => exact .raise _

theorem only_raiseWhen {c : Prop} [Decidable c] {e : Err} :
    (raiseWhen c e : Prog Op Res Err Unit).Only P := by
  unfold raiseWhen
  split
  · exact .raise e
  · exact .ret ()

theorem Only.andFinally {last : Op} (hlast : P last) (hp : p.Only P) : (p.andFinally last).Only P := by
  induction hp with
  | ret a =>
    refine .call hlast fun r => ?_
    cases r with
    | ok _ => exact .ret a
    | error e => exact .raise e
  | raise e =>
    refine .call hlast fun r => ?_
    cases r with
    | ok _ => exact .raise e
    | error e => exact .raise e
  | call h _ ih => exact .call h ih

theorem Only.path (hp : p.Only P) (h : Path p evs q) : ∀ e ∈ evs, P e.op := by
  induction h with
  | nil => simp
  | cons _ ih =>
    cases hp with
    | call hop hk =>
      intro e he
      rcases List.mem_cons.mp he with rfl | he
      · exact hop
      · exact ih (hk _) e he

end Only

end Prog

namespace Interleave

open Prog

variable {Op : Type} {Res : Op → Type} {Err α W Ch : Type} {exec : Exec W Op Res Err Ch}

/-- A run goes through every point of its trace. -/
theorem Run.split {c c' : Config W Op Res Err α} {tr₁ tr₂ : List (Label Op Res Err)}
    (h : Run exec c (tr₁ ++ tr₂) c') : ∃ d, Run exec c tr₁ d ∧ Run exec d tr₂ c' := by
  generalize htr : tr₁ ++ tr₂ = tr at h
  induction h generalizing tr₂ with
  | nil =>
    obtain ⟨rfl, rfl⟩ := List.append_eq_nil_iff.mp htr
    exact ⟨_, .nil _, .nil _⟩
  | @snoc d c' tr l init hs ih =>
    rcases List.eq_nil_or_concat tr₂ with rfl | ⟨tr₂, l', rfl⟩
    · rw [List.append_nil] at htr
      subst htr
      exact ⟨c', init.snoc hs, .nil _⟩
    · rw [List.concat_eq_append, ← List.append_assoc] at htr
      obtain ⟨htr, hl⟩ := List.append_inj' htr rfl
      obtain ⟨d', hd', hd⟩ := ih htr
      rw [List.concat_eq_append, List.singleton_inj.mp hl]
      exact ⟨d', hd', hd.snoc hs⟩

theorem run_nil {c c' : Config W Op Res Err α} (h : Run exec c [] c') : c' = c := by
  generalize htr : ([] : List (Label Op Res Err)) = tr at h
  cases h with
  | nil => rfl
  | snoc => simp at htr

theorem Run.uncons {c c' : Config W Op Res Err α} {l : Label Op Res Err} {tr}
    (h : Run exec c (l :: tr) c') : ∃ d, Step exec c l d ∧ Run exec d tr c' := by
  have happ : Run exec c ([l] ++ tr) c' := h
  obtain ⟨d, hd, hrest⟩ := happ.split
  generalize hl : [l] = tr₁ at hd
  cases hd with
  | nil => cases hl
  | snoc init hs =>
    obtain ⟨rfl, hlast⟩ := List.append_eq_singleton_iff.mp hl.symm |>.resolve_right (by simp)
    obtain rfl := run_nil init
    rw [← List.singleton_inj.mp hlast]
    exact ⟨d, hs, hrest⟩

end Interleave

namespace ReadCommitted

open Interleave Prog

variable {Db Lock Err α Q Ch W : Type} {Res : Q → Type}

/-- In a run every thread is on the path of its own events. -/
theorem run_path {exec : Exec W (Op Q) (Op.Res Res) Err Ch}
    {c c' : Config W (Op Q) (Op.Res Res) Err α} {tr : List (Label (Op Q) (Op.Res Res) Err)}
    (h : Run exec c tr c') (i : Tid) : Path (c.prog i) (own i tr) (c'.prog i) := by
  induction h with
  | nil => exact .nil _
  | @snoc c' _ _ _ _ hs ih =>
    cases hs with
    | @mk j op k ch r w' hprog hexec =>
      by_cases hj : i = j
      · subst hj
        have hnext : Function.update c'.prog i (k r) i = k r := Function.update_self ..
        show Path _ _ (Function.update c'.prog i (k r) i)
        rw [own_snoc_self, hnext]
        exact (hprog ▸ ih).snoc
      · have hsame : Function.update c'.prog j (k r) i = c'.prog i := Function.update_of_ne hj ..
        show Path _ _ (Function.update c'.prog j (k r) i)
        rw [own_snoc_of_ne hj, hsame]
        exact ih

theorem own_split {i : Tid} {tr : List (Label (Op Q) (Op.Res Res) Err)}
    {evs₁ evs₂ : List (Event (Op Q) (Op.Res Res) Err)} {e : Event (Op Q) (Op.Res Res) Err}
    (h : own i tr = evs₁ ++ e :: evs₂) :
    ∃ tr₁ tr₂, tr = tr₁ ++ ⟨i, e⟩ :: tr₂ ∧ own i tr₁ = evs₁ := by
  obtain ⟨tr₁, rest, rfl, hown, hrest⟩ := List.filterMap_eq_append_iff.mp h
  obtain ⟨others, l, tr₂, rfl, hothers, hl, _⟩ := List.filterMap_eq_cons_iff.mp hrest
  obtain ⟨hi, he⟩ : l.tid = i ∧ l.event = e := by simpa using hl
  refine ⟨tr₁ ++ others, tr₂, ?_, ?_⟩
  · rw [List.append_assoc, ← hi, ← he]
  · have hnone : own i others = [] := List.filterMap_eq_nil_iff.mpr hothers
    rw [own_append, hnone, List.append_nil]
    exact hown

variable [DecidableEq Lock] {D : Database Db Lock Q Res Err Ch} {db : Db} {i : Tid}
  {p : Tid → Transaction Q Res Err α} {c : Config (World Db Lock) (Op Q) (Op.Res Res) Err α}
  {tr : List (Label (Op Q) (Op.Res Res) Err)}

/-- A rollback does not fail. -/
theorem rollback_answer {r : Except Err Unit}
    {c₀ : Config (World Db Lock) (Op Q) (Op.Res Res) Err α} (h : Run D.exec c₀ tr c)
    (hmem : ⟨.rollback, r⟩ ∈ own i tr) : r = .ok () := by
  induction h with
  | nil => cases hmem
  | @snoc c' c'' tr l _ hs ih =>
    rw [own_append, List.mem_append] at hmem
    rcases hmem with hmem | hmem
    · exact ih hmem
    · have hl : (⟨i, ⟨.rollback, r⟩⟩ : Label (Op Q) (Op.Res Res) Err) = l := by
        simpa using mem_own.mp hmem
      subst hl
      cases hs with
      | mk _ hexec => exact (exec_rollback hexec).1

theorem foldl_of_id {ws : List (Db → Db)} (h : ∀ f ∈ ws, f = id) (db : Db) :
    ws.foldl (fun d f => f d) db = db := by
  induction ws with
  | nil => rfl
  | cons f ws ih =>
    rw [List.foldl_cons, h f (List.mem_cons_self ..)]
    exact ih fun g hg => h g (List.mem_cons_of_mem _ hg)

/-- The operation leaves the database as its thread sees it. -/
def Database.Neutral (D : Database Db Lock Q Res Err Ch) (i : Tid) (op : Op Q) : Prop :=
  ∀ ch w r w', D.exec ch i op w = some (r, w') →
    (∀ f ∈ (w.txn i).writes, f = id) → ∀ f ∈ (w'.txn i).writes, f = id

theorem neutral_query {q : Q} {f : Ch → Db → Except Err (Res q)}
    (hf : ∀ ch, D.stmt ch i q = .query (f ch)) : D.Neutral i (.sql q) := by
  intro ch w r w' h hids
  obtain ⟨_, rfl⟩ | h := exec_sql h
  · exact hids
  · rw [hf] at h
    obtain rfl := congrArg Prod.snd (Option.some.inj h)
    exact hids

theorem neutral_change {q : Q} {locks : Db → Db → List Lock}
    {act : Db → Db → Except Err (Res q × (Db → Db))} (hq : ∀ ch, D.stmt ch i q = .change locks act)
    (hid : ∀ seen db a f, act seen db = .ok (a, f) → f = id) : D.Neutral i (.sql q) := by
  intro ch w r w' h hids
  obtain ⟨_, rfl⟩ | h := exec_sql h
  · exact hids
  · rw [hq] at h
    obtain ⟨_, hacquire, h⟩ := statement_cases h
    have htxn := (acquire_db hacquire).2
    rcases h with ⟨a, f, hact, _, rfl⟩ | ⟨_, _, _, rfl⟩
    · intro g hg
      rw [writes_write, htxn, List.mem_append, List.mem_singleton] at hg
      rcases hg with hg | rfl
      · exact hids g hg
      · exact hid _ _ _ _ hact
    · rwa [htxn]

/-- A thread that has only made neutral operations sees the committed database. -/
theorem view_of_neutral (h : Run D.exec ⟨World.ofDb db, p⟩ tr c)
    (hn : ∀ e ∈ own i tr, D.Neutral i e.op) : c.world.view i = c.world.db := by
  have hids : ∀ f ∈ (c.world.txn i).writes, f = id := by
    induction h with
    | nil => exact fun f hf => nomatch hf
    | @snoc c' c'' tr l _ hs ih =>
      have hold := ih fun e he => hn e (by rw [own_append]; exact List.mem_append_left _ he)
      cases hs with
      | @mk j op k ch r w' hprog hexec =>
        by_cases hj : i = j
        · subst hj
          have hlast : D.Neutral i op := hn ⟨op, r⟩ (by rw [own_snoc_self]; simp)
          exact hlast _ _ _ _ hexec hold
        · rw [(exec_apart hj hexec).txn]
          exact hold
  rw [view_eq rfl, foldl_of_id hids]

/-- So does a thread that has just rolled back. -/
theorem view_of_rolledBack {r : Except Err Unit} (h : Run D.exec ⟨World.ofDb db, p⟩ tr c)
    (hlast : (own i tr).getLast? = some ⟨.rollback, r⟩) : c.world.view i = c.world.db := by
  have hidle : (c.world.txn i).writes = [] := by
    induction h with
    | nil => cases hlast
    | @snoc c' c'' tr l _ hs ih =>
      cases hs with
      | @mk j op k ch r' w' hprog hexec =>
        by_cases hj : i = j
        · subst hj
          rw [own_snoc_self, List.getLast?_append, List.getLast?_singleton, Option.some_or,
            Option.some.injEq] at hlast
          cases hlast
          obtain ⟨_, rfl⟩ := exec_rollback hexec
          simp [World.rollback, Txn.idle]
        · rw [(exec_apart hj hexec).txn]
          rw [own_snoc_of_ne hj] at hlast
          exact ih hlast
  rw [view_eq rfl, hidle]
  rfl

/-- A query of a thread that has only made neutral operations so far: its answer is that
    of the database that was committed then. -/
theorem answered_query {q : Q} {f : Ch → Db → Except Err (Res q)} {a : Res q}
    {x y : List (Event (Op Q) (Op.Res Res) Err)} (hf : ∀ ch, D.stmt ch i q = .query (f ch))
    (h : Run D.exec ⟨World.ofDb db, p⟩ tr c) (hown : own i tr = x ++ ⟨.sql q, .ok a⟩ :: y)
    (hn : ∀ e ∈ x, D.Neutral i e.op) : ∃ tr₁ tr₂ c₁ ch, tr = tr₁ ++ ⟨i, ⟨.sql q, .ok a⟩⟩ :: tr₂ ∧
      Run D.exec ⟨World.ofDb db, p⟩ tr₁ c₁ ∧ Run D.exec c₁ (⟨i, ⟨.sql q, .ok a⟩⟩ :: tr₂) c ∧
      f ch c₁.world.db = .ok a := by
  obtain ⟨tr₁, tr₂, rfl, hown₁⟩ := own_split hown
  obtain ⟨c₁, hrun, hrest⟩ := h.split
  have hview := view_of_neutral hrun (i := i) (by rwa [hown₁])
  obtain ⟨_, hs, _⟩ := hrest.uncons
  cases hs with
  | @mk _ _ _ ch _ _ _ hexec =>
    rcases exec_sql hexec with ⟨h, _⟩ | h
    · cases h
    · rw [hf, World.perform, hview] at h
      exact ⟨tr₁, tr₂, c₁, ch, rfl, hrun, hrest, congrArg Prod.fst (Option.some.inj h)⟩

end ReadCommitted
