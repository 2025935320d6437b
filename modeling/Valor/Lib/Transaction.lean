/-
  What a transaction knows while others commit.

  A `Discipline` says what commits do: `grows` holds of every commit, `same l` of a commit
  whose statements have not locked `l`, and `still l` of a commit whose transaction does not
  own `l`. The second is a property of the statements, the third one of the transactions.

  `Knows i evs ws ls F v` is the state of thread `i` between two operations: what it has done
  so far (`evs`), what it has written (`ws`), what it has locked (`ls`), and a fact `F` about
  the committed database. The others leave the first three alone. They may change the
  database, but only as `grows` allows and not where the locks of `i` protect it, so a fact
  that survives such changes (`Lasting`) stays known.

  The rules run a program: a query answers from the committed database with the own
  writes on top, a change adds a write and its locks, a commit is described by `C`.
  `B` is what the program promises before each of its operations.
  `compatible` puts the threads together: if every commit is within the discipline, each
  thread is one of the others for all the rest.
-/
import Valor.Lib.ReadCommitted

namespace ReadCommitted

open Interleave Prog

variable {Db Lock Err Q Ch : Type} {Res : Q → Type}

/-! ## Own events -/

section Own

/-- What thread `i` did in a trace. -/
def own (i : Tid) (tr : List (Label (Op Q) (Op.Res Res) Err)) :
    List (Event (Op Q) (Op.Res Res) Err) :=
  tr.filterMap fun l => if l.tid = i then some l.event else none

variable {i j : Tid} {tr tr' : List (Label (Op Q) (Op.Res Res) Err)}
  {e : Event (Op Q) (Op.Res Res) Err}

@[simp] theorem own_nil : own i ([] : List (Label (Op Q) (Op.Res Res) Err)) = [] := rfl

theorem own_append : own i (tr ++ tr') = own i tr ++ own i tr' := by
  simp [own]

@[simp] theorem own_snoc_self : own i (tr ++ [⟨i, e⟩]) = own i tr ++ [e] := by
  simp [own]

@[simp] theorem own_cons_self : own i (⟨i, e⟩ :: tr) = e :: own i tr := by simp [own]

theorem own_snoc_of_ne (h : i ≠ j) : own i (tr ++ [⟨j, e⟩]) = own i tr := by
  simp [own, h.symm]

theorem mem_own : e ∈ own i tr ↔ ⟨i, e⟩ ∈ tr := by
  simp only [own, List.mem_filterMap, Option.ite_none_right_eq_some, Option.some.injEq]
  constructor
  · rintro ⟨⟨j, e⟩, hl, rfl, rfl⟩
    exact hl
  · intro h
    exact ⟨_, h, rfl, rfl⟩

end Own

/-! ## The others -/

structure Discipline (Db Lock : Type) where
  same : Lock → Db → Db → Prop
  still : Lock → Db → Db → Prop
  grows : Db → Db → Prop

section Others

variable (K : Discipline Db Lock)

structure Lawful : Prop where
  same_refl : ∀ l d, K.same l d d
  same_trans : ∀ l a b c, K.same l a b → K.same l b c → K.same l a c
  still_refl : ∀ l d, K.still l d d
  still_trans : ∀ l a b c, K.still l a b → K.still l b c → K.still l a c
  grows_refl : ∀ d, K.grows d d
  grows_trans : ∀ a b c, K.grows a b → K.grows b c → K.grows a c

/-- What the other threads do between two operations of thread `i`. -/
structure Others (i : Tid) (v v' : Traced Db Lock Q Res Err) : Prop where
  undisturbed : Undisturbed K.same i v.1 v'.1
  still : ∀ l, v.1.owner l = some i → K.still l v.1.db v'.1.db
  grows : K.grows v.1.db v'.1.db
  own : own i v'.2 = own i v.2

/-- The invariant of the world: uncommitted changes are protected, and the database has
    grown from the one at the start. -/
structure Grown (db₀ : Db) (v : Traced Db Lock Q Res Err) : Prop where
  protected' : Protected K.same v.1
  grows : K.grows db₀ v.1.db

/-- A fact about the database that growth keeps, except where the locks `ls` protect it. -/
def Lasting (ls : List Lock) (F : Db → Prop) : Prop :=
  ∀ d d', F d → K.grows d d' → (∀ l ∈ ls, K.same l d d') → (∀ l ∈ ls, K.still l d d') → F d'

structure Knows (i : Tid) (evs : List (Event (Op Q) (Op.Res Res) Err)) (ws : List (Db → Db))
    (ls : List Lock) (F : Db → Prop) (v : Traced Db Lock Q Res Err) : Prop where
  own : own i v.2 = evs
  writes : (v.1.txn i).writes = ws
  owned : ∀ l, v.1.owner l = some i ↔ l ∈ ls
  fact : F v.1.db

variable {K} {i : Tid} {v v' v'' : Traced Db Lock Q Res Err}
  {evs : List (Event (Op Q) (Op.Res Res) Err)} {ws : List (Db → Db)} {ls : List Lock}
  {F G : Db → Prop}

theorem Others.refl (lawful : Lawful K) (i : Tid) (v : Traced Db Lock Q Res Err) :
    Others K i v v :=
  ⟨.refl lawful.same_refl i v.1, fun _ _ => lawful.still_refl _ _, lawful.grows_refl _, rfl⟩

theorem Others.trans (lawful : Lawful K) (h : Others K i v v') (h' : Others K i v' v'') :
    Others K i v v'' := by
  refine ⟨h.undisturbed.trans lawful.same_trans h'.undisturbed, fun l hl => ?_,
    lawful.grows_trans _ _ _ h.grows h'.grows, h'.own.trans h.own⟩
  have hl' : v'.1.owner l = some i := (h.undisturbed.apart.owner l).mpr hl
  exact lawful.still_trans _ _ _ _ (h.still l hl) (h'.still l hl')

theorem Lasting.and (hF : Lasting K ls F) (hG : Lasting K ls G) : Lasting K ls fun d => F d ∧ G d :=
  fun d d' h hg hs ht => ⟨hF d d' h.1 hg hs ht, hG d d' h.2 hg hs ht⟩

/-- A fact about what one of the locks protects from statements. -/
theorem lasting_of_mem {l : Lock} (hl : l ∈ ls) (hF : ∀ d d', F d → K.same l d d' → F d') :
    Lasting K ls F :=
  fun d d' h _ hs _ => hF d d' h (hs l hl)

/-- A fact about what the owner of one of the locks is safe from. -/
theorem lasting_of_still {l : Lock} (hl : l ∈ ls)
    (hF : ∀ d d', F d → K.grows d d' → K.still l d d' → F d') : Lasting K ls F :=
  fun d d' h hg _ ht => hF d d' h hg (ht l hl)

theorem lasting_of_grows (hF : ∀ d d', F d → K.grows d d' → F d') : Lasting K ls F :=
  fun d d' h hg _ _ => hF d d' h hg

theorem lasting_true : Lasting K ls fun _ => True := fun _ _ _ _ _ _ => trivial

/-- That the database has grown from an earlier one. -/
theorem lasting_grows (lawful : Lawful K) (d₀ : Db) : Lasting K ls fun d => K.grows d₀ d :=
  fun _ _ h hg _ _ => lawful.grows_trans _ _ _ h hg

theorem Knows.mono (h : Knows i evs ws ls F v) (hFG : F v.1.db → G v.1.db) :
    Knows i evs ws ls G v :=
  ⟨h.own, h.writes, h.owned, hFG h.fact⟩

theorem Knows.view (h : Knows i evs ws ls F v) :
    v.1.view i = ws.foldl (fun d f => f d) v.1.db :=
  view_eq h.writes

theorem Knows.stable (hF : Lasting K ls F) (h : Knows i evs ws ls F v) (hR : Others K i v v') :
    Knows i evs ws ls F v' := by
  refine ⟨hR.own.trans h.own, ?_, fun l => (hR.undisturbed.apart.owner l).trans (h.owned l), ?_⟩
  · rw [hR.undisturbed.apart.txn, h.writes]
  · exact hF _ _ h.fact hR.grows (fun l hl => hR.undisturbed.same l ((h.owned l).mpr hl))
      fun l hl => hR.still l ((h.owned l).mpr hl)

/-- An event that leaves the world. -/
theorem Knows.snoc (h : Knows i evs ws ls F v) (e : Event (Op Q) (Op.Res Res) Err) :
    Knows i (evs ++ [e]) ws ls F (v.1, v.2 ++ [⟨i, e⟩]) :=
  ⟨by rw [own_snoc_self, h.own], h.writes, h.owned, h.fact⟩

theorem knows_start (db : Db) : Knows i [] [] [] (fun _ => True)
    ((World.ofDb db, []) : Traced Db Lock Q Res Err) :=
  ⟨rfl, rfl, fun _ => by simp [World.ofDb], trivial⟩

end Others

/-! ## Rules -/

section Rules

variable [DecidableEq Lock] {D : Database Db Lock Q Res Err Ch} {K : Discipline Db Lock} {db₀ : Db}
  {C : Traced Db Lock Q Res Err → Prop} {B : Op Q → Traced Db Lock Q Res Err → Prop} {i : Tid} {β γ : Type}
  {P : Except Err β → List (Event (Op Q) (Op.Res Res) Err) → Db → Prop}
  {v : Traced Db Lock Q Res Err} {evs : List (Event (Op Q) (Op.Res Res) Err)}
  {ws : List (Db → Db)} {ls : List Lock} {F : Db → Prop}

/-- Thread `i` among the others: its commits are of worlds with the property `C`, `B` holds
    before each of its operations, and its outcome, its own events and the database are
    related by `P`. -/
abbrev Follows (D : Database Db Lock Q Res Err Ch) (K : Discipline Db Lock) (db₀ : Db)
    (C : Traced Db Lock Q Res Err → Prop) (B : Op Q → Traced Db Lock Q Res Err → Prop) (i : Tid)
    (P : Except Err β → List (Event (Op Q) (Op.Res Res) Err) → Db → Prop)
    (p : Transaction Q Res Err β) (v : Traced Db Lock Q Res Err) : Prop :=
  Safe (traced D.exec) (Grown K db₀) (Others K i)
    (fun op r v v' => TracedCommitsOnly C i op r v v' ∧ B op v) i
    (fun r v => P r (own i v.2) v.1.db) p v

/-- The same without a promise, and with an outcome that is only about the own events. -/
abbrev Among (D : Database Db Lock Q Res Err Ch) (K : Discipline Db Lock) (db₀ : Db)
    (C : Traced Db Lock Q Res Err → Prop) (i : Tid)
    (P : Except Err β → List (Event (Op Q) (Op.Res Res) Err) → Prop)
    (p : Transaction Q Res Err β) (v : Traced Db Lock Q Res Err) : Prop :=
  Follows D K db₀ C (fun _ _ => True) i (fun r evs _ => P r evs) p v

/-- A query whose exception the program handles itself. -/
theorem follows_attempt {q : Q} {f : Ch → Db → Except Err (Res q)}
    {k : Except Err (Res q) → Transaction Q Res Err β} (hq : ∀ ch, D.stmt ch i q = .query (f ch))
    (hF : Lasting K ls F) (h : Knows i evs ws ls F v)
    (hB : ∀ v, Knows i evs ws ls F v → B (.sql q) v)
    (hk : ∀ v r ch, Knows i (evs ++ [⟨.sql q, r⟩]) ws ls F v → K.grows db₀ v.1.db →
      (D.MayFail ∧ r = .error D.failure) ∨ f ch (ws.foldl (fun d f => f d) v.1.db) = r →
        Follows D K db₀ C B i P (k r) v) :
    Follows D K db₀ C B i P (.call (Op.sql q) k) v := by
  refine safe_call.mpr fun v' hR hi ch r v'' hx => ?_
  obtain ⟨hx, htr⟩ := traced_eq_some.mp hx
  have h' := h.stable hF hR
  have hnext : ∀ r', v''.1 = v'.1 → r = r' →
      (D.MayFail ∧ r' = .error D.failure) ∨ f ch (ws.foldl (fun d f => f d) v'.1.db) = r' →
      Safe (traced D.exec) (Grown K db₀) (Others K i)
        (fun op r v v' => TracedCommitsOnly C i op r v v' ∧ B op v) i
        (fun r v => P r (own i v.2) v.1.db) (k r) v'' := by
    rintro r' hw rfl hr
    have hafter := hk _ r ch (h'.snoc ⟨.sql q, r⟩) hi.grows hr
    rw [← hw, ← htr] at hafter
    exact hafter
  obtain ⟨hfails, rfl, hw⟩ | hx := exec_sql_cases hx
  · exact ⟨⟨congrArg World.db hw, hB v' h'⟩, hnext _ hw rfl (.inl ⟨hfails, rfl⟩)⟩
  · rw [hq] at hx
    obtain ⟨hr, hw⟩ : f ch (v'.1.view i) = r ∧ v'.1 = v''.1 := by simpa [World.perform] using hx
    rw [h'.view] at hr
    exact ⟨⟨congrArg World.db hw.symm, hB v' h'⟩, hnext r hw.symm rfl (.inr hr)⟩

theorem follows_query {q : Q} {f : Ch → Db → Except Err (Res q)}
    {k : Res q → Transaction Q Res Err β} (hq : ∀ ch, D.stmt ch i q = .query (f ch))
    (hF : Lasting K ls F) (h : Knows i evs ws ls F v)
    (hB : ∀ v, Knows i evs ws ls F v → B (.sql q) v)
    (herr : ∀ v e ch, Knows i (evs ++ [⟨.sql q, .error e⟩]) ws ls F v →
      D.MayFail ∧ e = D.failure ∨ f ch (ws.foldl (fun d f => f d) v.1.db) = .error e →
        P (.error e) (evs ++ [⟨.sql q, .error e⟩]) v.1.db)
    (hk : ∀ v a ch, Knows i (evs ++ [⟨.sql q, .ok a⟩]) ws ls F v → K.grows db₀ v.1.db →
      f ch (ws.foldl (fun d f => f d) v.1.db) = .ok a → Follows D K db₀ C B i P (k a) v) :
    Follows D K db₀ C B i P ((sql q).bind k) v := by
  rw [sql, Prog.perform, call_bind]
  refine follows_attempt hq hF h hB fun v r ch h hgrown hr => ?_
  cases r with
  | ok a =>
    refine hk v a ch h hgrown (hr.resolve_left ?_)
    rintro ⟨_, he⟩
    cases he
  | error e =>
    have hp := herr v e ch h (hr.imp_left fun he => ⟨he.1, Except.error.inj he.2⟩)
    refine safe_raise.mpr ?_
    rw [h.own]
    exact hp

theorem follows_change {q : Q} {locks : Db → Db → List Lock}
    {act : Db → Db → Except Err (Res q × (Db → Db))} {k : Res q → Transaction Q Res Err β}
    (hq : ∀ ch, D.stmt ch i q = .change locks act) (hF : Lasting K ls F) (h : Knows i evs ws ls F v)
    (hB : ∀ v, Knows i evs ws ls F v → B (.sql q) v)
    (herr : ∀ d e seen, F d → K.grows db₀ d →
      D.MayFail ∧ e = D.failure ∨ act seen (ws.foldl (fun d f => f d) d) = .error e →
      P (.error e) (evs ++ [⟨.sql q, .error e⟩]) d)
    (hk : ∀ v a g seen, Knows i (evs ++ [⟨.sql q, .ok a⟩]) (ws ++ [g])
        (locks seen (ws.foldl (fun d f => f d) v.1.db) ++ ls) F v → K.grows db₀ v.1.db →
      act seen (ws.foldl (fun d f => f d) v.1.db) = .ok (a, g) →
        Follows D K db₀ C B i P (k a) v) :
    Follows D K db₀ C B i P ((sql q).bind k) v := by
  rw [sql, Prog.perform, call_bind]
  refine safe_call.mpr fun v' hR hi ch r v'' hx => ?_
  obtain ⟨hx, htr⟩ := traced_eq_some.mp hx
  have h' := h.stable hF hR
  have hraise : ∀ e seen, v''.1.db = v'.1.db → r = .error e →
      D.MayFail ∧ e = D.failure ∨ act seen (ws.foldl (fun d f => f d) v'.1.db) = .error e →
      Safe (traced D.exec) (Grown K db₀) (Others K i)
        (fun op r v v' => TracedCommitsOnly C i op r v v' ∧ B op v) i
        (fun r v => P r (own i v.2) v.1.db) (Prog.raise e : Transaction Q Res Err β) v'' := by
    rintro e seen hw rfl he
    have hp := herr _ e seen h'.fact hi.grows he
    refine safe_raise.mpr ?_
    rw [htr, own_snoc_self, h'.own, hw]
    exact hp
  obtain ⟨hfails, rfl, hw⟩ | hx := exec_sql_cases hx
  · exact ⟨⟨congrArg World.db hw, hB v' h'⟩,
      hraise _ v'.1.db (congrArg World.db hw) rfl (.inl ⟨hfails, rfl⟩)⟩
  · rw [hq] at hx
    have hdb := db_statement hx
    refine ⟨⟨hdb, hB v' h'⟩, ?_⟩
    obtain ⟨u, hu, ⟨a, g, ha, rfl, hw⟩ | ⟨e, he, rfl, hw⟩⟩ := statement_cases hx
    · obtain ⟨hudb, htxn⟩ := acquire_db hu
      rw [h'.view] at ha hu
      have hnext := hk v'' a g (v'.1.seen i) ⟨?_, ?_, fun l => ?_, ?_⟩ ?_ ?_
      · exact hnext
      · rw [htr, own_snoc_self, h'.own]
      · rw [hw, writes_write, htxn, h'.writes]
      · obtain ⟨_, howner⟩ := acquire_cases hu
        rw [hdb, List.mem_append, hw, owner_write, howner, ← h'.owned l]
        show (if l ∈ locks (v'.1.seen i) _ then some i else v'.1.owner l) = some i ↔ _
        split
        · next hl => exact iff_of_true rfl (.inl hl)
        · next hl => exact ⟨.inr, fun hor => hor.resolve_left hl⟩
      · rw [hdb]
        exact h'.fact
      · rw [hdb]
        exact hi.grows
      · rw [hdb]
        exact ha
    · rw [h'.view] at he
      exact hraise e (v'.1.seen i) hdb rfl (.inr he)

theorem follows_begin {k : Unit → Transaction Q Res Err β} (hF : Lasting K ls F)
    (h : Knows i evs ws ls F v) (hB : ∀ v, Knows i evs ws ls F v → B .begin v)
    (herr : ∀ d, F d → D.MayFail → P (.error D.failure) (evs ++ [⟨.begin, .error D.failure⟩]) d)
    (hk : ∀ v, Knows i (evs ++ [⟨.begin, .ok ()⟩]) ws ls F v → K.grows db₀ v.1.db →
      Follows D K db₀ C B i P (k ()) v) : Follows D K db₀ C B i P (begin.bind k) v := by
  rw [begin, Prog.perform, call_bind]
  refine safe_call.mpr fun v' hR hi ch r v'' hx => ?_
  obtain ⟨hx, htr⟩ := traced_eq_some.mp hx
  have h' := h.stable hF hR
  obtain ⟨hfails, rfl, hw⟩ | ⟨rfl, hw⟩ := exec_begin_cases hx
  · refine ⟨⟨congrArg World.db hw, hB v' h'⟩, safe_raise.mpr ?_⟩
    rw [htr, own_snoc_self, h'.own, hw]
    exact herr _ h'.fact hfails
  · have hdb : v''.1.db = v'.1.db := by rw [hw, db_begin]
    refine ⟨⟨hdb, hB v' h'⟩, hk v'' ⟨?_, ?_, fun l => ?_, ?_⟩ ?_⟩
    · rw [htr, own_snoc_self, h'.own]
    · rw [hw, writes_begin, h'.writes]
    · rw [hw, owner_begin]
      exact h'.owned l
    · rw [hdb]
      exact h'.fact
    · rw [hdb]
      exact hi.grows

/-- A commit, and what the program returns after it. -/
theorem follows_commit {b : β} (hF : Lasting K ls F) (h : Knows i evs ws ls F v)
    (hB : ∀ v, Knows i evs ws ls F v → B .commit v)
    (herr : ∀ d, F d → D.MayFail → P (.error D.failure) (evs ++ [⟨.commit, .error D.failure⟩]) d)
    (hC : ∀ v, Knows i evs ws ls F v → K.grows db₀ v.1.db → C v)
    (hP : ∀ d, F d → P (.ok b) (evs ++ [⟨.commit, .ok ()⟩]) (ws.foldl (fun d f => f d) d)) :
    Follows D K db₀ C B i P (commit.bind fun _ => .ret b) v := by
  rw [commit, Prog.perform, call_bind]
  refine safe_call.mpr fun v' hR hi ch r v'' hx => ?_
  obtain ⟨hx, htr⟩ := traced_eq_some.mp hx
  have h' := h.stable hF hR
  obtain ⟨hfails, rfl, hw⟩ | ⟨rfl, hw⟩ := exec_commit_cases hx
  · refine ⟨⟨congrArg World.db hw, hB v' h'⟩, safe_raise.mpr ?_⟩
    rw [htr, own_snoc_self, h'.own, hw]
    exact herr _ h'.fact hfails
  · refine ⟨⟨⟨hC v' h' hi.grows, hw⟩, hB v' h'⟩, safe_ret.mpr ?_⟩
    rw [htr, own_snoc_self, h'.own, hw, db_commit, h'.view]
    exact hP _ h'.fact

/-- A transaction, and what the program does with its value after it: nothing is written or
    locked any more. -/
theorem follows_transaction {W : Except Err γ → List (Event (Op Q) (Op.Res Res) Err) → Db → Prop}
    {body : Transaction Q Res Err γ} {k : γ → Transaction Q Res Err β}
    (hB : ∀ r v, W r (own i v.2) v.1.db → B .rollback v)
    (hgrows : ∀ r evs d d', W r evs d → K.grows d d' → W r evs d')
    (herr : ∀ e evs d, W (.error e) evs d → P (.error e) (evs ++ [⟨.rollback, .ok ()⟩]) d)
    (hk : ∀ b evs v, Knows i (evs ++ [⟨.rollback, .ok ()⟩]) [] [] (W (.ok b) evs) v →
      K.grows db₀ v.1.db → Follows D K db₀ C B i P (k b) v)
    (h : Follows D K db₀ C B i W body v) :
    Follows D K db₀ C B i P ((unitOfWork body).bind k) v := by
  refine Safe.bind (Safe.andFinally (h.mono fun r v hr v' hR hi ch s v'' hx => ?_))
  obtain ⟨hx, htr⟩ := traced_eq_some.mp hx
  obtain ⟨rfl, hw⟩ := exec_rollback hx
  have hdb : v''.1.db = v'.1.db := by rw [hw, db_rollback]
  have hown : own i v''.2 = own i v.2 ++ [⟨.rollback, .ok ()⟩] := by
    rw [htr, own_snoc_self, hR.own]
  have hP : W r (own i v.2) v'.1.db := hgrows r _ _ _ hr hR.grows
  refine ⟨⟨hdb, hB r v' (by rwa [hR.own])⟩, ?_⟩
  cases r with
  | error e =>
    rw [hown, hdb]
    exact herr e _ _ hP
  | ok b =>
    refine hk b (own i v.2) v'' ⟨hown, ?_, fun l => ?_, hdb ▸ hP⟩ (hdb ▸ hi.grows)
    · rw [hw, txn_rollback]
      rfl
    · rw [hw, World.rollback]
      by_cases hl : v'.1.owner l = some i <;> simp [hl]

theorem follows_unitOfWork {body : Transaction Q Res Err β}
    (hB : ∀ r v, P r (own i v.2) v.1.db → B .rollback v)
    (hP : ∀ r evs d, P r evs d → P r (evs ++ [⟨.rollback, .ok ()⟩]) d)
    (hgrows : ∀ r evs d d', P r evs d → K.grows d d' → P r evs d')
    (h : Follows D K db₀ C B i P body v) : Follows D K db₀ C B i P (unitOfWork body) v := by
  rw [← bind_ret (unitOfWork body)]
  refine follows_transaction hB hgrows (fun e => hP (.error e)) (fun b evs v hv _ => safe_ret.mpr ?_) h
  rw [hv.own]
  exact hP (.ok b) evs _ hv.fact

theorem follows_mono {C' : Traced Db Lock Q Res Err → Prop}
    {P' : Except Err β → List (Event (Op Q) (Op.Res Res) Err) → Db → Prop}
    {p : Transaction Q Res Err β} (hC : ∀ v, C v → C' v) (hP : ∀ r evs d, P r evs d → P' r evs d)
    (h : Follows D K db₀ C B i P p v) : Follows D K db₀ C' B i P' p v :=
  (h.mono fun r _ => hP r _ _).weaken fun _ _ v _ hG => ⟨hG.1.mono (hC (_, v.2)), hG.2⟩

/-- What a program commits, and what its outcome says. -/
theorem follows_and {B' : Op Q → Traced Db Lock Q Res Err → Prop}
    {P' : Except Err β → List (Event (Op Q) (Op.Res Res) Err) → Db → Prop} {p : Transaction Q Res Err β}
    (h : Follows D K db₀ C B i P p v) (h' : Follows D K db₀ (fun _ => True) B' i P' p v) :
    Follows D K db₀ C B i (fun r evs d => P r evs d ∧ P' r evs d) p v :=
  (h.and h').weaken fun _ _ _ _ hG => hG.1

/-- A program whose value is only wrapped. -/
theorem follows_map {P' : Except Err γ → List (Event (Op Q) (Op.Res Res) Err) → Db → Prop} {f : β → γ}
    {p : Transaction Q Res Err β} (hP : ∀ b evs d, P (.ok b) evs d → P' (.ok (f b)) evs d)
    (herr : ∀ e evs d, P (.error e) evs d → P' (.error e) evs d)
    (h : Follows D K db₀ C B i P p v) :
    Follows D K db₀ C B i P' (p.bind fun b => .ret (f b)) v := by
  refine Safe.bind (h.mono fun r v hr => ?_)
  cases r with
  | ok b => exact safe_ret.mpr (hP b _ _ hr)
  | error e => exact herr e _ _ hr

end Rules

/-! ### Where exceptions may end anywhere -/

section Among

variable [DecidableEq Lock] {D : Database Db Lock Q Res Err Ch} {K : Discipline Db Lock} {db₀ : Db}
  {C : Traced Db Lock Q Res Err → Prop} {i : Tid} {β γ : Type}
  {P : Except Err β → List (Event (Op Q) (Op.Res Res) Err) → Prop}
  {v : Traced Db Lock Q Res Err} {evs : List (Event (Op Q) (Op.Res Res) Err)}
  {ws : List (Db → Db)} {ls : List Lock} {F : Db → Prop}

/-- Nothing is said of what the program commits. -/
theorem among_any (p : Transaction Q Res Err β) :
    Among D K db₀ (fun _ => True) i (fun _ _ => True) p v := by
  induction p generalizing v with
  | ret b => exact safe_ret.mpr trivial
  | raise e => exact safe_raise.mpr trivial
  | call op k ih =>
    refine safe_call.mpr fun v' _ _ ch r v'' hx => ⟨⟨?_, trivial⟩, ih r⟩
    exact exec_db (traced_eq_some.mp hx).1

theorem knows_query {q : Q} {f : Ch → Db → Except Err (Res q)}
    {k : Res q → Transaction Q Res Err β} (herr : ∀ e evs, P (.error e) evs)
    (hq : ∀ ch, D.stmt ch i q = .query (f ch)) (hF : Lasting K ls F) (h : Knows i evs ws ls F v)
    (hk : ∀ v a ch, Knows i (evs ++ [⟨.sql q, .ok a⟩]) ws ls F v → K.grows db₀ v.1.db →
      f ch (ws.foldl (fun d f => f d) v.1.db) = .ok a → Among D K db₀ C i P (k a) v) :
    Among D K db₀ C i P ((sql q).bind k) v :=
  follows_query hq hF h (fun _ _ => trivial) (fun _ e _ _ _ => herr e _) hk

theorem knows_change {q : Q} {locks : Db → Db → List Lock}
    {act : Db → Db → Except Err (Res q × (Db → Db))} {k : Res q → Transaction Q Res Err β}
    (herr : ∀ e evs, P (.error e) evs) (hq : ∀ ch, D.stmt ch i q = .change locks act)
    (hF : Lasting K ls F) (h : Knows i evs ws ls F v)
    (hk : ∀ v a g seen, Knows i (evs ++ [⟨.sql q, .ok a⟩]) (ws ++ [g])
        (locks seen (ws.foldl (fun d f => f d) v.1.db) ++ ls) F v → K.grows db₀ v.1.db →
      act seen (ws.foldl (fun d f => f d) v.1.db) = .ok (a, g) → Among D K db₀ C i P (k a) v) :
    Among D K db₀ C i P ((sql q).bind k) v :=
  follows_change hq hF h (fun _ _ => trivial) (fun _ e _ _ _ _ => herr e _) hk

theorem knows_commit {b : β} (herr : ∀ e evs, P (.error e) evs) (hF : Lasting K ls F)
    (h : Knows i evs ws ls F v)
    (hC : ∀ v, Knows i evs ws ls F v → K.grows db₀ v.1.db → C v)
    (hP : P (.ok b) (evs ++ [⟨.commit, .ok ()⟩])) :
    Among D K db₀ C i P (commit.bind fun _ => .ret b) v :=
  follows_commit hF h (fun _ _ => trivial) (fun _ _ _ => herr _ _) hC fun _ _ => hP

theorem knows_unitOfWork {body : Transaction Q Res Err β}
    (hP : ∀ r evs, P r evs → P r (evs ++ [⟨.rollback, .ok ()⟩])) (h : Among D K db₀ C i P body v) :
    Among D K db₀ C i P (unitOfWork body) v :=
  follows_unitOfWork (fun _ _ _ => trivial) (fun r evs _ => hP r evs) (fun _ _ _ _ h _ => h) h

theorem among_map {P' : Except Err γ → List (Event (Op Q) (Op.Res Res) Err) → Prop} {f : β → γ}
    {p : Transaction Q Res Err β} (hP : ∀ b evs, P (.ok b) evs → P' (.ok (f b)) evs)
    (herr : ∀ e evs, P' (.error e) evs) (h : Among D K db₀ C i P p v) :
    Among D K db₀ C i P' (p.bind fun b => .ret (f b)) v :=
  follows_map (fun b evs _ => hP b evs) (fun e evs _ _ => herr e evs) h

end Among

/-! ## All threads -/

section Threads

variable [DecidableEq Lock] {D : Database Db Lock Q Res Err Ch} {K : Discipline Db Lock} {db₀ : Db}
  {C : Tid → Traced Db Lock Q Res Err → Prop} {B : Tid → Op Q → Traced Db Lock Q Res Err → Prop} {α : Type}
  {P : Tid → Except Err α → List (Event (Op Q) (Op.Res Res) Err) → Db → Prop}

/-- A commit is within the discipline. -/
structure Disciplined (K : Discipline Db Lock) (i : Tid) (w : World Db Lock) : Prop where
  grows : K.grows w.db (w.view i)
  still : ∀ l, w.owner l ≠ some i → K.still l w.db (w.view i)

/-- If statements change only what they lock and commits are within the discipline, then no
    thread disturbs another. -/
theorem compatible (lawful : Lawful K) (hstmt : ∀ ch i q, (D.stmt ch i q).Within K.same)
    (hC : ∀ i v, C i v → Disciplined K i v.1)
    (hP : ∀ i r evs d d', P i r evs d → K.grows d d' → P i r evs d') :
    Compatible (traced D.exec) (Grown K db₀) (Others K)
      (fun i op r v v' => TracedCommitsOnly (C i) i op r v v' ∧ B i op v)
      (fun i r v => P i r (own i v.2) v.1.db) := by
  have hgrows : ∀ {i : Tid} {op : Op Q} {r : Except Err (op.Res Res)}
      {v v' : Traced Db Lock Q Res Err}, TracedCommitsOnly (C i) i op r v v' →
      K.grows v.1.db v'.1.db :=
    fun {i _ _ v _} hG => CommitsOnly.rel lawful.grows_refl hG fun hmet => (hC i (v.1, v.2) hmet).grows
  refine ⟨fun i v => .refl lawful i v, fun i a b c => .trans lawful, ?_, ?_, ?_⟩
  · intro i r a b h hR
    rw [hR.own]
    exact hP i r _ _ _ h hR.grows
  · intro i ch op r a b hinv hx ⟨hG, _⟩
    exact ⟨protected_exec hstmt hinv.protected' (traced_eq_some.mp hx).1,
      lawful.grows_trans _ _ _ hinv.grows (hgrows hG)⟩
  · intro i j ch op r a b hij hinv hx ⟨hG, _⟩
    obtain ⟨hx, htr⟩ := traced_eq_some.mp hx
    refine ⟨exec_undisturbed lawful.same_refl lawful.same_trans hinv.protected' hij hx,
      fun l hl => ?_, hgrows hG, ?_⟩
    · have hne : a.1.owner l ≠ some j := by
        rw [hl]
        simpa using hij
      exact CommitsOnly.rel (lawful.still_refl l) hG fun hmet => (hC j (a.1, a.2) hmet).still l hne
    · rw [htr, own_snoc_of_ne hij]

/-- Every configuration of a run is safe, together with its trace. -/
theorem run_follows (lawful : Lawful K) (hstmt : ∀ ch i q, (D.stmt ch i q).Within K.same)
    (hC : ∀ i v, C i v → Disciplined K i v.1)
    (hP : ∀ i r evs d d', P i r evs d → K.grows d d' → P i r evs d')
    {p : Tid → Transaction Q Res Err α} {c : Config (World Db Lock) (Op Q) (Op.Res Res) Err α}
    {tr : List (Label (Op Q) (Op.Res Res) Err)}
    (hp : ∀ i, Follows D K db₀ (C i) (B i) i (P i) (p i) (World.ofDb db₀, []))
    (h : Run D.exec ⟨World.ofDb db₀, p⟩ tr c) :
    AllSafe (traced D.exec) (Grown K db₀) (Others K)
      (fun i op r v v' => TracedCommitsOnly (C i) i op r v v' ∧ B i op v)
      (fun i r v => P i r (own i v.2) v.1.db) (c.traced tr) :=
  Run.allSafe (compatible lawful hstmt hC hP)
    ⟨⟨protected_ofDb _, lawful.grows_refl _⟩, hp⟩ h.traced

/-- What the steps of a run do. -/
theorem run_step (lawful : Lawful K) (hstmt : ∀ ch i q, (D.stmt ch i q).Within K.same)
    (hC : ∀ i v, C i v → Disciplined K i v.1)
    (hP : ∀ i r evs d d', P i r evs d → K.grows d d' → P i r evs d')
    {p : Tid → Transaction Q Res Err α} {c c' : Config (World Db Lock) (Op Q) (Op.Res Res) Err α}
    {tr : List (Label (Op Q) (Op.Res Res) Err)} {l : Label (Op Q) (Op.Res Res) Err}
    (hp : ∀ i, Follows D K db₀ (C i) (B i) i (P i) (p i) (World.ofDb db₀, []))
    (h : Run D.exec ⟨World.ofDb db₀, p⟩ tr c) (hs : Step D.exec c l c') :
    CommitsOnly (fun w => C l.tid (w, tr)) l.tid l.event.op l.event.answer c.world c'.world :=
  ((run_follows lawful hstmt hC hP hp h).step (compatible lawful hstmt hC hP) (hs.traced tr)).1.1

/-- What the steps of a run have been promised. -/
theorem run_before (lawful : Lawful K) (hstmt : ∀ ch i q, (D.stmt ch i q).Within K.same)
    (hC : ∀ i v, C i v → Disciplined K i v.1)
    (hP : ∀ i r evs d d', P i r evs d → K.grows d d' → P i r evs d')
    {p : Tid → Transaction Q Res Err α} {c c' : Config (World Db Lock) (Op Q) (Op.Res Res) Err α}
    {tr : List (Label (Op Q) (Op.Res Res) Err)} {l : Label (Op Q) (Op.Res Res) Err}
    (hp : ∀ i, Follows D K db₀ (C i) (B i) i (P i) (p i) (World.ofDb db₀, []))
    (h : Run D.exec ⟨World.ofDb db₀, p⟩ tr c) (hs : Step D.exec c l c') :
    B l.tid l.event.op (c.world, tr) :=
  ((run_follows lawful hstmt hC hP hp h).step (compatible lawful hstmt hC hP) (hs.traced tr)).1.2

/-- What the outcome of a thread says in the end. -/
theorem run_returned (lawful : Lawful K) (hstmt : ∀ ch i q, (D.stmt ch i q).Within K.same)
    (hC : ∀ i v, C i v → Disciplined K i v.1)
    (hP : ∀ i r evs d d', P i r evs d → K.grows d d' → P i r evs d')
    {p : Tid → Transaction Q Res Err α} {c : Config (World Db Lock) (Op Q) (Op.Res Res) Err α}
    {tr : List (Label (Op Q) (Op.Res Res) Err)} {i : Tid}
    (hp : ∀ i, Follows D K db₀ (C i) (B i) i (P i) (p i) (World.ofDb db₀, []))
    (h : Run D.exec ⟨World.ofDb db₀, p⟩ tr c) :
    (∀ a, c.prog i = .ret a → P i (.ok a) (own i tr) c.world.db) ∧
      ∀ e, c.prog i = .raise e → P i (.error e) (own i tr) c.world.db := by
  have hsafe := (run_follows lawful hstmt hC hP hp h).safe i
  constructor
  · intro a ha
    rw [show (c.traced tr).prog i = .ret a from ha] at hsafe
    exact safe_ret.mp hsafe
  · intro e he
    rw [show (c.traced tr).prog i = .raise e from he] at hsafe
    exact safe_raise.mp hsafe

end Threads

end ReadCommitted
