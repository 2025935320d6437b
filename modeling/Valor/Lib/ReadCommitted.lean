/-
  Transactions at READ COMMITTED over an arbitrary database.

  The committed database is shared. What a transaction has written and not
  committed is its own list of changes, and no other transaction sees it: a
  statement reads `view`, the committed database as it is now with the changes of
  its own transaction on top. A change is a function, applied once more to the
  committed database at commit.

  A lock (a row, a key of a unique index, an advisory lock) has at most one owner
  and stays with it until the transaction ends. A statement that needs a lock
  another transaction owns has to wait: it has no step. It sees the database as it
  is when it gets the lock, which is the re-evaluation of READ COMMITTED. A
  statement that must remember what it saw when it began (`begin`) keeps a snapshot
  of it until it is performed.

  `Database` describes the statements of an application: a query reads, a change takes
  locks and writes. `exec` performs them for programs over `Op`, which adds the beginning
  of a statement, commit and rollback. Any of these but a rollback can fail.

  `Apart j w w'`: the step from `w` to `w'` left the transaction of `j` and its locks
  alone. Every step of another thread does (`exec_apart`), and no step but a commit
  touches the committed database (`exec_db`). `CommitsOnly` is that as a guarantee, and
  the rules `safe_query`, `safe_change` and `safe_commit` run a program under it.
-/
import Mathlib.Logic.Function.Basic
import Valor.Lib.Interleave

namespace ReadCommitted

open Interleave Prog

variable {Db Lock Err α : Type}

/-- The private state of a transaction: the snapshot of a statement that has begun,
    and the uncommitted changes, oldest first. -/
structure Txn (Db : Type) where
  snapshot : Option Db
  writes : List (Db → Db)

def Txn.idle : Txn Db := ⟨none, []⟩

structure World (Db Lock : Type) where
  db : Db
  txn : Tid → Txn Db
  owner : Lock → Option Tid

namespace World

/-- A database with no transaction open. -/
def ofDb (db : Db) : World Db Lock := ⟨db, fun _ => .idle, fun _ => none⟩

/-- What a statement of thread `i` reads. -/
def view (w : World Db Lock) (i : Tid) : Db := (w.txn i).writes.foldl (fun d f => f d) w.db

/-- What the statement that thread `i` has begun saw when it began. -/
def seen (w : World Db Lock) (i : Tid) : Db := (w.txn i).snapshot.getD (w.view i)

/-- Thread `i` begins a statement and takes its snapshot. -/
def begin (w : World Db Lock) (i : Tid) : World Db Lock :=
  { w with txn := Function.update w.txn i { w.txn i with snapshot := some (w.view i) } }

def write (w : World Db Lock) (i : Tid) (f : Db → Db) : World Db Lock :=
  { w with txn := Function.update w.txn i { w.txn i with writes := (w.txn i).writes ++ [f] } }

def commit (w : World Db Lock) (i : Tid) : World Db Lock where
  db := w.view i
  txn := Function.update w.txn i .idle
  owner l := if w.owner l = some i then none else w.owner l

def rollback (w : World Db Lock) (i : Tid) : World Db Lock where
  db := w.db
  txn := Function.update w.txn i .idle
  owner l := if w.owner l = some i then none else w.owner l

variable [DecidableEq Lock]

/-- Take the locks `ls`, or wait. -/
def acquire (w : World Db Lock) (i : Tid) (ls : List Lock) : Option (World Db Lock) :=
  if ∀ l ∈ ls, w.owner l = none ∨ w.owner l = some i then
    some { w with owner := fun l => if l ∈ ls then some i else w.owner l }
  else none

/-- A statement: the locks it needs and what it does are functions of what it saw
    when it began and of what it sees now. An exception leaves no change. -/
def statement (w : World Db Lock) (i : Tid) (locks : Db → Db → List Lock)
    (act : Db → Db → Except Err (α × (Db → Db))) : Option (Except Err α × World Db Lock) :=
  match w.acquire i (locks (w.seen i) (w.view i)) with
  | none => none
  | some w' =>
      match act (w.seen i) (w.view i) with
      | .ok (a, f) => some (.ok a, w'.write i f)
      | .error e => some (.error e, w')

end World

/-- What an application asks of the database: to read, or to lock and write. -/
inductive Stmt (Db Lock Err α : Type) where
  | query (f : Db → Except Err α)
  | change (locks : Db → Db → List Lock) (act : Db → Db → Except Err (α × (Db → Db)))

/-- The operations of a transaction. `begin` is the snapshot of the statement after it,
    for a statement that is performed later than it begins. -/
inductive Op (Q : Type) where
  | sql (q : Q)
  | begin
  | commit
  | rollback

abbrev Op.Res {Q : Type} (Res : Q → Type) : Op Q → Type
  | .sql q => Res q
  | _ => Unit

section Programs

variable {Q : Type} {Res : Q → Type}

abbrev Transaction (Q : Type) (Res : Q → Type) (Err α : Type) := Prog (Op Q) (Op.Res Res) Err α

def sql (q : Q) : Transaction Q Res Err (Res q) := Prog.perform (Op.sql q)

def begin : Transaction Q Res Err Unit := Prog.perform Op.begin

def commit : Transaction Q Res Err Unit := Prog.perform Op.commit

/-- `async with unit_of_work: body`: roll back on every way out. -/
def unitOfWork (body : Transaction Q Res Err α) : Transaction Q Res Err α :=
  body.andFinally .rollback

end Programs

/-- An application's statements. The choice is what the database decides by itself;
    it may decide that a statement fails. -/
structure Database (Db Lock Q : Type) (Res : Q → Type) (Err Ch : Type) where
  stmt : Ch → Tid → (q : Q) → Stmt Db Lock Err (Res q)
  fails : Ch → Bool
  failure : Err

def World.perform [DecidableEq Lock] (w : World Db Lock) (i : Tid) :
    Stmt Db Lock Err α → Option (Except Err α × World Db Lock)
  | .query f => some (f (w.view i), w)
  | .change locks act => w.statement i locks act

/-- One operation of thread `i`. -/
def Database.exec [DecidableEq Lock] {Q : Type} {Res : Q → Type} {Ch : Type}
    (D : Database Db Lock Q Res Err Ch) : Exec (World Db Lock) (Op Q) (Op.Res Res) Err Ch :=
  fun ch i op w =>
    match op with
    | .sql q => if D.fails ch then some (.error D.failure, w) else w.perform i (D.stmt ch i q)
    | .begin => if D.fails ch then some (.error D.failure, w) else some (.ok (), w.begin i)
    | .commit => if D.fails ch then some (.error D.failure, w) else some (.ok (), w.commit i)
    | .rollback => some (.ok (), w.rollback i)

open World

variable {w w' w'' : World Db Lock} {i j : Tid} {ws : List (Db → Db)}

/-! ## What a transaction sees -/

theorem view_of_writes_nil (h : (w.txn i).writes = []) : w.view i = w.db := by
  simp [view, h]

theorem view_eq (h : (w.txn i).writes = ws) : w.view i = ws.foldl (fun d f => f d) w.db := by
  rw [view, h]

/-- If every uncommitted change relates a database to its result, so does the commit. -/
theorem rel_view {r : Db → Db → Prop} (refl : ∀ d, r d d) (trans : ∀ a b c, r a b → r b c → r a c)
    (h : ∀ f ∈ (w.txn i).writes, ∀ d, r d (f d)) : r w.db (w.view i) := by
  have key : ∀ (fs : List (Db → Db)) (d : Db), (∀ f ∈ fs, ∀ d, r d (f d)) →
      r d (fs.foldl (fun d f => f d) d) := by
    intro fs
    induction fs with
    | nil => exact fun d _ => refl d
    | cons f fs ih =>
      intro d hf
      exact trans _ _ _ (hf f (List.mem_cons_self ..) d)
        (ih (f d) fun g hg => hf g (List.mem_cons_of_mem _ hg))
  exact key _ _ h

@[simp] theorem db_write (f : Db → Db) : (w.write i f).db = w.db := rfl

@[simp] theorem owner_write (f : Db → Db) : (w.write i f).owner = w.owner := rfl

@[simp] theorem writes_write (f : Db → Db) :
    ((w.write i f).txn i).writes = (w.txn i).writes ++ [f] := by
  simp [World.write]

@[simp] theorem db_begin : (w.begin i).db = w.db := rfl

@[simp] theorem owner_begin : (w.begin i).owner = w.owner := rfl

@[simp] theorem writes_begin : ((w.begin i).txn i).writes = (w.txn i).writes := by
  simp [World.begin]

@[simp] theorem db_commit : (w.commit i).db = w.view i := rfl

@[simp] theorem db_rollback : (w.rollback i).db = w.db := rfl

@[simp] theorem txn_commit : (w.commit i).txn i = .idle := by simp [World.commit]

@[simp] theorem txn_rollback : (w.rollback i).txn i = .idle := by simp [World.rollback]

/-! ## Steps of another thread -/

/-- The transaction of `j` and its locks are the same in both worlds. -/
structure Apart (j : Tid) (w w' : World Db Lock) : Prop where
  txn : w'.txn j = w.txn j
  owner : ∀ l, w'.owner l = some j ↔ w.owner l = some j

theorem Apart.refl (j : Tid) (w : World Db Lock) : Apart j w w := ⟨rfl, fun _ => Iff.rfl⟩

theorem Apart.trans (h : Apart j w w') (h' : Apart j w' w'') : Apart j w w'' :=
  ⟨h'.txn.trans h.txn, fun l => (h'.owner l).trans (h.owner l)⟩

theorem apart_begin (h : j ≠ i) : Apart j w (w.begin i) :=
  ⟨by simp [World.begin, h], fun _ => Iff.rfl⟩

theorem apart_write (h : j ≠ i) (f : Db → Db) : Apart j w (w.write i f) :=
  ⟨by simp [World.write, h], fun _ => Iff.rfl⟩

theorem owner_release (h : j ≠ i) (o : Option Tid) :
    (if o = some i then none else o) = some j ↔ o = some j := by
  split
  · next he =>
    subst he
    simp [h.symm]
  · exact Iff.rfl

theorem apart_commit (h : j ≠ i) : Apart j w (w.commit i) :=
  ⟨by simp [World.commit, h], fun l => owner_release h (w.owner l)⟩

theorem apart_rollback (h : j ≠ i) : Apart j w (w.rollback i) :=
  ⟨by simp [World.rollback, h], fun l => owner_release h (w.owner l)⟩

/-! ## Locks and statements -/

section Statements

variable [DecidableEq Lock] {ls : List Lock} {locks : Db → Db → List Lock}
  {act : Db → Db → Except Err (α × (Db → Db))} {r : Except Err α}

/-- Locks are acquired only from nobody or from oneself; they are then one's own. -/
theorem acquire_cases (h : w.acquire i ls = some w') :
    (∀ l ∈ ls, w.owner l = none ∨ w.owner l = some i) ∧
      w' = { w with owner := fun l => if l ∈ ls then some i else w.owner l } := by
  unfold acquire at h
  split at h
  · next hfree => exact ⟨hfree, by simpa using h.symm⟩
  · cases h

theorem acquire_owner (h : w.acquire i ls = some w') {l : Lock} (hl : l ∈ ls) :
    w'.owner l = some i := by
  obtain ⟨_, rfl⟩ := acquire_cases h
  simp [hl]

theorem acquire_keeps (h : w.acquire i ls = some w') {l : Lock} (hl : w.owner l = some i) :
    w'.owner l = some i := by
  obtain ⟨_, rfl⟩ := acquire_cases h
  by_cases hm : l ∈ ls <;> simp [hm, hl]

theorem apart_acquire (hij : j ≠ i) (h : w.acquire i ls = some w') : Apart j w w' := by
  obtain ⟨hfree, rfl⟩ := acquire_cases h
  refine ⟨rfl, fun l => ?_⟩
  by_cases hm : l ∈ ls
  · have hne : w.owner l ≠ some j := by
      rcases hfree l hm with h0 | h0 <;> simp [h0, hij.symm]
    simp [hm, hne, hij.symm]
  · simp [hm]

/-- A performed statement took its locks and did what `act` says of the view. -/
theorem statement_cases (h : w.statement i locks act = some (r, w')) :
    ∃ v, w.acquire i (locks (w.seen i) (w.view i)) = some v ∧
      ((∃ a f, act (w.seen i) (w.view i) = .ok (a, f) ∧ r = .ok a ∧ w' = v.write i f) ∨
        ∃ e, act (w.seen i) (w.view i) = .error e ∧ r = .error e ∧ w' = v) := by
  unfold statement at h
  split at h
  · cases h
  · next v hv =>
    refine ⟨v, hv, ?_⟩
    split at h
    · next a f ha =>
      obtain ⟨rfl, rfl⟩ : .ok a = r ∧ v.write i f = w' := by simpa using h
      exact .inl ⟨a, f, ha, rfl, rfl⟩
    · next e ha =>
      obtain ⟨rfl, rfl⟩ : .error e = r ∧ v = w' := by simpa using h
      exact .inr ⟨e, ha, rfl, rfl⟩

theorem acquire_db (h : w.acquire i ls = some w') : w'.db = w.db ∧ w'.txn = w.txn := by
  obtain ⟨_, rfl⟩ := acquire_cases h
  exact ⟨rfl, rfl⟩

theorem acquire_nil (h : w.acquire i [] = some w') : w' = w := by
  simpa using (acquire_cases h).2

theorem db_statement (h : w.statement i locks act = some (r, w')) : w'.db = w.db := by
  obtain ⟨v, hv, ⟨a, f, _, _, rfl⟩ | ⟨e, _, _, rfl⟩⟩ := statement_cases h
  · exact (acquire_db hv).1
  · exact (acquire_db hv).1

theorem apart_statement (hij : j ≠ i) (h : w.statement i locks act = some (r, w')) :
    Apart j w w' := by
  obtain ⟨v, hv, ⟨a, f, _, _, rfl⟩ | ⟨e, _, _, rfl⟩⟩ := statement_cases h
  · exact (apart_acquire hij hv).trans (apart_write hij f)
  · exact apart_acquire hij hv

/-- A statement never gives up a lock its transaction owns. -/
theorem owner_statement (h : w.statement i locks act = some (r, w')) {l : Lock}
    (hl : w.owner l = some i) : w'.owner l = some i := by
  obtain ⟨v, hv, ⟨a, f, _, _, rfl⟩ | ⟨e, _, _, rfl⟩⟩ := statement_cases h
  · exact acquire_keeps hv hl
  · exact acquire_keeps hv hl

end Statements

/-! ## Operations -/

section Operations

variable [DecidableEq Lock] {Q : Type} {Res : Q → Type} {Ch : Type}
  {D : Database Db Lock Q Res Err Ch} {ch : Ch} {op : Op Q} {r : Except Err (op.Res Res)}

/-- The database may decide that a statement fails. -/
def Database.MayFail (D : Database Db Lock Q Res Err Ch) : Prop := ∃ ch, D.fails ch = true

/-- An operation fails and changes nothing, or is performed. -/
theorem exec_sql_cases {q : Q} {r : Except Err (Res q)} (h : D.exec ch i (.sql q) w = some (r, w')) :
    (D.MayFail ∧ r = .error D.failure ∧ w' = w) ∨ w.perform i (D.stmt ch i q) = some (r, w') := by
  simp only [Database.exec] at h
  split at h
  · next hfails =>
    cases h
    exact .inl ⟨⟨ch, hfails⟩, rfl, rfl⟩
  · exact .inr h

theorem exec_begin_cases {r : Except Err Unit} (h : D.exec ch i .begin w = some (r, w')) :
    (D.MayFail ∧ r = .error D.failure ∧ w' = w) ∨ (r = .ok () ∧ w' = w.begin i) := by
  simp only [Database.exec] at h
  split at h
  · next hfails =>
    cases h
    exact .inl ⟨⟨ch, hfails⟩, rfl, rfl⟩
  · cases h
    exact .inr ⟨rfl, rfl⟩

theorem exec_commit_cases {r : Except Err Unit} (h : D.exec ch i .commit w = some (r, w')) :
    (D.MayFail ∧ r = .error D.failure ∧ w' = w) ∨ (r = .ok () ∧ w' = w.commit i) := by
  simp only [Database.exec] at h
  split at h
  · next hfails =>
    cases h
    exact .inl ⟨⟨ch, hfails⟩, rfl, rfl⟩
  · cases h
    exact .inr ⟨rfl, rfl⟩

theorem exec_sql {q : Q} {r : Except Err (Res q)} (h : D.exec ch i (.sql q) w = some (r, w')) :
    (r = .error D.failure ∧ w' = w) ∨ w.perform i (D.stmt ch i q) = some (r, w') :=
  (exec_sql_cases h).imp_left And.right

theorem exec_begin {r : Except Err Unit} (h : D.exec ch i .begin w = some (r, w')) :
    (r = .error D.failure ∧ w' = w) ∨ (r = .ok () ∧ w' = w.begin i) :=
  (exec_begin_cases h).imp_left And.right

theorem exec_commit {r : Except Err Unit} (h : D.exec ch i .commit w = some (r, w')) :
    (r = .error D.failure ∧ w' = w) ∨ (r = .ok () ∧ w' = w.commit i) :=
  (exec_commit_cases h).imp_left And.right

theorem exec_rollback {r : Except Err Unit} (h : D.exec ch i .rollback w = some (r, w')) :
    r = .ok () ∧ w' = w.rollback i := by
  cases h
  exact ⟨rfl, rfl⟩

theorem apart_perform (hij : j ≠ i) {st : Stmt Db Lock Err α} {r : Except Err α}
    (h : w.perform i st = some (r, w')) : Apart j w w' := by
  cases st with
  | query f =>
    cases h
    exact .refl _ _
  | change locks act => exact apart_statement hij h

theorem db_perform {st : Stmt Db Lock Err α} {r : Except Err α}
    (h : w.perform i st = some (r, w')) : w'.db = w.db := by
  cases st with
  | query f =>
    cases h
    rfl
  | change locks act => exact db_statement h

/-- A step of thread `i` is none of thread `j`'s business. -/
theorem exec_apart (hij : j ≠ i) (h : D.exec ch i op w = some (r, w')) : Apart j w w' := by
  cases op with
  | sql q =>
    obtain ⟨_, rfl⟩ | h := exec_sql h
    · exact .refl _ _
    · exact apart_perform hij h
  | begin =>
    obtain ⟨_, rfl⟩ | ⟨_, rfl⟩ := exec_begin h
    · exact .refl _ _
    · exact apart_begin hij
  | commit =>
    obtain ⟨_, rfl⟩ | ⟨_, rfl⟩ := exec_commit h
    · exact .refl _ _
    · exact apart_commit hij
  | rollback =>
    obtain ⟨_, rfl⟩ := exec_rollback h
    exact apart_rollback hij

/-- The step is no successful commit, and leaves the committed database as it is; or it
    is one, of a world with the property `C`. -/
def CommitsOnly (C : World Db Lock → Prop) (i : Tid) :
    Guarantee (World Db Lock) (Op Q) (Op.Res Res) Err
  | .commit, .ok _, w, w' => C w ∧ w' = w.commit i
  | _, _, w, w' => w'.db = w.db

/-- Whatever a program does, only its commits touch the committed database. -/
theorem exec_db (h : D.exec ch i op w = some (r, w')) : CommitsOnly (fun _ => True) i op r w w' := by
  cases op with
  | sql q =>
    obtain ⟨_, rfl⟩ | h := exec_sql h
    · rfl
    · exact db_perform h
  | begin => obtain ⟨_, rfl⟩ | ⟨_, rfl⟩ := exec_begin h <;> rfl
  | commit =>
    obtain ⟨rfl, rfl⟩ | ⟨rfl, rfl⟩ := exec_commit h
    · rfl
    · exact ⟨trivial, rfl⟩
  | rollback =>
    obtain ⟨_, rfl⟩ := exec_rollback h
    rfl

end Operations

/-! ## Commits in a run -/

section Commits

variable {Q : Type} {Res : Q → Type}

/-- The step in which thread `i` commits. -/
def committed (i : Tid) : Label (Op Q) (Op.Res Res) Err := ⟨i, ⟨.commit, .ok ()⟩⟩

theorem committed_inj {i j : Tid} :
    (committed i : Label (Op Q) (Op.Res Res) Err) = committed j ↔ i = j := by
  simp [committed]

theorem CommitsOnly.mono {C C' : World Db Lock → Prop} {op : Op Q} {r : Except Err (op.Res Res)}
    (hC : C w → C' w) (h : CommitsOnly C i op r w w') : CommitsOnly C' i op r w w' := by
  cases op with
  | commit =>
    cases r with
    | ok u => exact ⟨hC h.1, h.2⟩
    | error e => exact h
  | sql q => exact h
  | begin => exact h
  | rollback => exact h

/-- A relation between databases that every commit respects holds of every step. -/
theorem CommitsOnly.rel {C : World Db Lock → Prop} {op : Op Q} {r : Except Err (op.Res Res)}
    {R : Db → Db → Prop} (refl : ∀ d, R d d) (h : CommitsOnly C i op r w w')
    (hC : C w → R w.db (w.view i)) : R w.db w'.db := by
  have unchanged : w'.db = w.db → R w.db w'.db := fun he => he ▸ refl _
  cases op with
  | commit =>
    cases r with
    | ok u =>
      obtain ⟨hmet, rfl⟩ := h
      exact hC hmet
    | error e => exact unchanged h
  | sql q => exact unchanged h
  | begin => exact unchanged h
  | rollback => exact unchanged h

/-- A step that is not a commit leaves the committed database as it is. -/
theorem CommitsOnly.label_cases {C : World Db Lock → Prop} {l : Label (Op Q) (Op.Res Res) Err}
    (h : CommitsOnly C l.tid l.event.op l.event.answer w w') :
    (l = committed l.tid ∧ C w ∧ w' = w.commit l.tid) ∨
      ((∀ i, l ≠ committed i) ∧ w'.db = w.db) := by
  obtain ⟨j, op, r⟩ := l
  cases op with
  | commit =>
    cases r with
    | ok u => exact .inl ⟨rfl, h⟩
    | error e => exact .inr ⟨by simp [committed], h⟩
  | sql q => exact .inr ⟨by simp [committed], h⟩
  | begin => exact .inr ⟨by simp [committed], h⟩
  | rollback => exact .inr ⟨by simp [committed], h⟩

def isCommit (i : Tid) (l : Label (Op Q) (Op.Res Res) Err) : Bool :=
  match l with
  | ⟨j, ⟨.commit, .ok _⟩⟩ => i == j
  | _ => false

theorem eq_committed {l : Label (Op Q) (Op.Res Res) Err} (h : isCommit i l = true) :
    l = committed i := by
  unfold isCommit at h
  split at h
  · obtain rfl := eq_of_beq h
    rfl
  · cases h

/-- The next operation of the thread is its commit. -/
def atCommit (i : Tid) (c : Config (World Db Lock) (Op Q) (Op.Res Res) Err α) : Bool :=
  match c.prog i with
  | .call .commit _ => true
  | _ => false

theorem commit_step [DecidableEq Lock] {Ch : Type} (D : Database Db Lock Q Res Err Ch) (ch : Ch)
    {c : Config (World Db Lock) (Op Q) (Op.Res Res) Err α} (hch : D.fails ch = false)
    (h : atCommit i c = true) :
    ∃ prog, Step D.exec c (committed i) ⟨c.world.commit i, prog⟩ := by
  unfold atCommit at h
  split at h
  · next k hprog => exact ⟨_, .mk hprog (by simp [Database.exec, hch] : D.exec ch i .commit c.world = _)⟩
  · cases h

end Commits

/-! ## What locks protect

  `same l d d'` says that the part of the database that the lock `l` is about did not
  change from `d` to `d'`. If each statement changes only such parts as it locks, then
  nobody else changes what a transaction has locked. -/

section Protection

variable (same : Lock → Db → Db → Prop)

/-- The statement changes only what it locks. -/
def Stmt.Within : Stmt Db Lock Err α → Prop
  | .query _ => True
  | .change locks act => ∀ seen db a f, act seen db = .ok (a, f) →
      ∀ l, l ∉ locks seen db → ∀ d, same l d (f d)

/-- Every uncommitted change is one of something its transaction has locked. -/
def Protected (w : World Db Lock) : Prop :=
  ∀ j, ∀ f ∈ (w.txn j).writes, ∀ l, w.owner l ≠ some j → ∀ d, same l d (f d)

/-- Steps of others: the transaction of `i`, its locks and what they protect remain. -/
structure Undisturbed (i : Tid) (w w' : World Db Lock) : Prop where
  apart : Apart i w w'
  same : ∀ l, w.owner l = some i → same l w.db w'.db

variable {same}

theorem Undisturbed.refl (hrefl : ∀ l d, same l d d) (i : Tid) (w : World Db Lock) :
    Undisturbed same i w w :=
  ⟨.refl i w, fun _ _ => hrefl _ _⟩

theorem Undisturbed.trans (htrans : ∀ l a b c, same l a b → same l b c → same l a c)
    (h : Undisturbed same i w w') (h' : Undisturbed same i w' w'') : Undisturbed same i w w'' :=
  ⟨h.apart.trans h'.apart, fun l hl =>
    htrans _ _ _ _ (h.same l hl) (h'.same l ((h.apart.owner l).mpr hl))⟩

theorem protected_ofDb (db : Db) : Protected same (ofDb db : World Db Lock) := by
  intro j f hf
  simp [ofDb, Txn.idle] at hf

/-- A transaction that ends has no change left. -/
theorem protected_end {w' : World Db Lock} (h : Protected same w) (hapart : ∀ j ≠ i, Apart j w w')
    (hidle : (w'.txn i).writes = []) : Protected same w' := by
  intro j f hf l hl d
  by_cases hj : j = i
  · subst hj
    simp [hidle] at hf
  · rw [(hapart j hj).txn] at hf
    exact h j f hf l (fun ho => hl (((hapart j hj).owner l).mpr ho)) d

variable [DecidableEq Lock] {Q : Type} {Res : Q → Type} {Ch : Type}
  {D : Database Db Lock Q Res Err Ch} {ch : Ch} {op : Op Q} {r : Except Err (op.Res Res)}

theorem protected_statement {locks : Db → Db → List Lock}
    {act : Db → Db → Except Err (α × (Db → Db))} {r : Except Err α}
    (hact : (Stmt.change locks act).Within same) (h : Protected same w)
    (hx : w.statement i locks act = some (r, w')) : Protected same w' := by
  intro j f hf l hl d
  by_cases hj : j = i
  · subst hj
    have hown : w.owner l ≠ some j := fun ho => hl (owner_statement hx ho)
    obtain ⟨v, hv, ⟨a, g, ha, rfl, rfl⟩ | ⟨e, _, rfl, rfl⟩⟩ := statement_cases hx
    · have hnot : l ∉ locks (w.seen j) (w.view j) := fun hm => hl (acquire_owner hv hm)
      rw [writes_write, (acquire_db hv).2] at hf
      rcases List.mem_append.mp hf with hf | hf
      · exact h j f hf l hown d
      · rw [List.mem_singleton.mp hf]
        exact hact _ _ _ _ ha l hnot d
    · rw [(acquire_db hv).2] at hf
      exact h j f hf l hown d
  · have hap := apart_statement hj hx
    rw [hap.txn] at hf
    exact h j f hf l (fun ho => hl ((hap.owner l).mpr ho)) d

theorem protected_exec (hstmt : ∀ ch i q, (D.stmt ch i q).Within same) (h : Protected same w)
    (hx : D.exec ch i op w = some (r, w')) : Protected same w' := by
  cases op with
  | sql q =>
    obtain ⟨_, rfl⟩ | hx := exec_sql hx
    · exact h
    · have hst := hstmt ch i q
      cases hs : D.stmt ch i q with
      | query f =>
        rw [hs] at hx
        cases hx
        exact h
      | change locks act =>
        rw [hs] at hx hst
        exact protected_statement hst h hx
  | begin =>
    obtain ⟨_, rfl⟩ | ⟨_, rfl⟩ := exec_begin hx
    · exact h
    · intro j f hf l hl d
      by_cases hj : j = i
      · subst hj
        rw [writes_begin] at hf
        exact h j f hf l hl d
      · rw [(apart_begin hj).txn] at hf
        exact h j f hf l hl d
  | commit =>
    obtain ⟨_, rfl⟩ | ⟨_, rfl⟩ := exec_commit hx
    · exact h
    · exact protected_end h (fun j hj => apart_commit hj) (by simp [Txn.idle])
  | rollback =>
    obtain ⟨_, rfl⟩ := exec_rollback hx
    exact protected_end h (fun j hj => apart_rollback hj) (by simp [Txn.idle])

/-- What thread `j` has locked survives every step of another thread. -/
theorem exec_undisturbed (hrefl : ∀ l d, same l d d)
    (htrans : ∀ l a b c, same l a b → same l b c → same l a c) (h : Protected same w)
    (hij : j ≠ i) (hx : D.exec ch i op w = some (r, w')) : Undisturbed same j w w' := by
  refine ⟨exec_apart hij hx, fun l hl => ?_⟩
  have hne : w.owner l ≠ some i := by
    rw [hl]
    simpa using hij
  have hdb := exec_db hx
  cases op with
  | commit =>
    obtain ⟨rfl, rfl⟩ | ⟨rfl, rfl⟩ := exec_commit hx
    · exact hrefl _ _
    · exact rel_view (hrefl l) (htrans l) fun f hf => h i f hf l hne
  | sql q =>
    rw [show w'.db = w.db from hdb]
    exact hrefl _ _
  | begin =>
    rw [show w'.db = w.db from hdb]
    exact hrefl _ _
  | rollback =>
    rw [show w'.db = w.db from hdb]
    exact hrefl _ _

end Protection

/-! ## Exceptions -/

/-- The exceptions a statement can raise by itself. -/
def Stmt.Errors (P : Err → Prop) : Stmt Db Lock Err α → Prop
  | .query f => ∀ db e, f db = .error e → P e
  | .change _ act => ∀ seen db e, act seen db = .error e → P e

theorem exec_error [DecidableEq Lock] {Q : Type} {Res : Q → Type} {Ch : Type}
    {D : Database Db Lock Q Res Err Ch} {P : Err → Prop} (hfailure : P D.failure)
    (hstmt : ∀ ch i q, (D.stmt ch i q).Errors P) {ch : Ch} {op : Op Q} {e : Err}
    (h : D.exec ch i op w = some (.error e, w')) : P e := by
  cases op with
  | sql q =>
    have hst := hstmt ch i q
    obtain ⟨he, _⟩ | h := exec_sql h
    · cases he
      exact hfailure
    · cases hs : D.stmt ch i q with
      | query f =>
        rw [hs] at h hst
        obtain ⟨he, _⟩ : f (w.view i) = .error e ∧ w = w' := by simpa [World.perform] using h
        exact hst _ _ he
      | change locks act =>
        rw [hs] at h hst
        obtain ⟨v, _, ⟨a, f, _, he, _⟩ | ⟨e', ha, he, _⟩⟩ := statement_cases h
        · cases he
        · cases he
          exact hst _ _ _ ha
  | begin =>
    obtain ⟨he, _⟩ | ⟨he, _⟩ := exec_begin h <;> cases he
    exact hfailure
  | commit =>
    obtain ⟨he, _⟩ | ⟨he, _⟩ := exec_commit h <;> cases he
    exact hfailure
  | rollback => exact absurd (exec_rollback h).1 (by simp)

/-! ## Rules

  The exceptions of a transaction may end in any world: the outcome of a program is of
  interest when it returns. Each rule is proved with the trace so far in the world, and
  once more for worlds without it. -/

section TracedRules

variable [DecidableEq Lock] {Q : Type} {Res : Q → Type} {Ch β : Type}

/-- A world and the trace that led to it. -/
abbrev Traced (Db Lock Q : Type) (Res : Q → Type) (Err : Type) : Type :=
  World Db Lock × List (Label (Op Q) (Op.Res Res) Err)

/-- `CommitsOnly` where the property of the world may mention the trace. -/
abbrev TracedCommitsOnly (C : Traced Db Lock Q Res Err → Prop) (i : Tid) :
    Guarantee (Traced Db Lock Q Res Err) (Op Q) (Op.Res Res) Err :=
  fun op r v v' => CommitsOnly (fun w => C (w, v.2)) i op r v.1 v'.1

variable {D : Database Db Lock Q Res Err Ch} {inv : Traced Db Lock Q Res Err → Prop}
  {R : Rely (Traced Db Lock Q Res Err)} {C : Traced Db Lock Q Res Err → Prop}
  {Post : Except Err β → Traced Db Lock Q Res Err → Prop} {v : Traced Db Lock Q Res Err}

theorem traced_sql {q : Q} {k : Res q → Transaction Q Res Err β} (hpost : ∀ e v, Post (.error e) v)
    (hk : ∀ v', R v v' → inv v' → ∀ ch a w, v'.1.perform i (D.stmt ch i q) = some (.ok a, w) →
      Safe (traced D.exec) inv R (TracedCommitsOnly C i) i Post (k a)
        (w, v'.2 ++ [⟨i, ⟨.sql q, .ok a⟩⟩])) :
    Safe (traced D.exec) inv R (TracedCommitsOnly C i) i Post ((sql q).bind k) v := by
  rw [sql, Prog.perform, call_bind]
  refine safe_call.mpr fun v' hR hi ch r v'' hx => ?_
  obtain ⟨hx, htr⟩ := traced_eq_some.mp hx
  obtain ⟨rfl, hw⟩ | hx := exec_sql hx
  · exact ⟨congrArg World.db hw, safe_raise.mpr (hpost _ _)⟩
  · refine ⟨db_perform hx, ?_⟩
    cases r with
    | ok a =>
      have hnext := hk v' hR hi ch a v''.1 hx
      rw [← htr] at hnext
      exact hnext
    | error e => exact safe_raise.mpr (hpost _ _)

theorem traced_query {q : Q} {f : Ch → Db → Except Err (Res q)}
    {k : Res q → Transaction Q Res Err β} (hpost : ∀ e v, Post (.error e) v)
    (hq : ∀ ch, D.stmt ch i q = .query (f ch))
    (hk : ∀ v', R v v' → inv v' → ∀ ch a, f ch (v'.1.view i) = .ok a →
      Safe (traced D.exec) inv R (TracedCommitsOnly C i) i Post (k a)
        (v'.1, v'.2 ++ [⟨i, ⟨.sql q, .ok a⟩⟩])) :
    Safe (traced D.exec) inv R (TracedCommitsOnly C i) i Post ((sql q).bind k) v := by
  refine traced_sql hpost fun v' hR hi ch a w hx => ?_
  rw [hq] at hx
  obtain ⟨ha, rfl⟩ : f ch (v'.1.view i) = .ok a ∧ v'.1 = w := by simpa [World.perform] using hx
  exact hk v' hR hi ch a ha

theorem traced_change {q : Q} {locks : Db → Db → List Lock}
    {act : Db → Db → Except Err (Res q × (Db → Db))}
    {k : Res q → Transaction Q Res Err β} (hpost : ∀ e v, Post (.error e) v)
    (hq : ∀ ch, D.stmt ch i q = .change locks act)
    (hk : ∀ v', R v v' → inv v' → ∀ u a f,
      v'.1.acquire i (locks (v'.1.seen i) (v'.1.view i)) = some u →
      act (v'.1.seen i) (v'.1.view i) = .ok (a, f) →
        Safe (traced D.exec) inv R (TracedCommitsOnly C i) i Post (k a)
          (u.write i f, v'.2 ++ [⟨i, ⟨.sql q, .ok a⟩⟩])) :
    Safe (traced D.exec) inv R (TracedCommitsOnly C i) i Post ((sql q).bind k) v := by
  refine traced_sql hpost fun v' hR hi ch a w hx => ?_
  rw [hq] at hx
  obtain ⟨u, hu, ⟨b, f, hb, he, rfl⟩ | ⟨e, _, he, _⟩⟩ := statement_cases hx
  · cases he
    exact hk v' hR hi u a f hu hb
  · cases he

theorem traced_begin {k : Unit → Transaction Q Res Err β} (hpost : ∀ e v, Post (.error e) v)
    (hk : ∀ v', R v v' → inv v' → Safe (traced D.exec) inv R (TracedCommitsOnly C i) i Post (k ())
      (v'.1.begin i, v'.2 ++ [⟨i, ⟨.begin, .ok ()⟩⟩])) :
    Safe (traced D.exec) inv R (TracedCommitsOnly C i) i Post (begin.bind k) v := by
  rw [begin, Prog.perform, call_bind]
  refine safe_call.mpr fun v' hR hi ch r v'' hx => ?_
  obtain ⟨hx, htr⟩ := traced_eq_some.mp hx
  obtain ⟨rfl, hw⟩ | ⟨rfl, hw⟩ := exec_begin hx
  · exact ⟨congrArg World.db hw, safe_raise.mpr (hpost _ _)⟩
  · have hnext := hk v' hR hi
    have hdb : v''.1.db = v'.1.db := by rw [hw, db_begin]
    rw [← hw, ← htr] at hnext
    exact ⟨hdb, hnext⟩

theorem traced_commit {k : Unit → Transaction Q Res Err β} (hpost : ∀ e v, Post (.error e) v)
    (hk : ∀ v', R v v' → inv v' → C v' ∧ Safe (traced D.exec) inv R (TracedCommitsOnly C i) i Post
      (k ()) (v'.1.commit i, v'.2 ++ [committed i])) :
    Safe (traced D.exec) inv R (TracedCommitsOnly C i) i Post (commit.bind k) v := by
  rw [commit, Prog.perform, call_bind]
  refine safe_call.mpr fun v' hR hi ch r v'' hx => ?_
  obtain ⟨hx, htr⟩ := traced_eq_some.mp hx
  obtain ⟨rfl, hw⟩ | ⟨rfl, hw⟩ := exec_commit hx
  · exact ⟨congrArg World.db hw, safe_raise.mpr (hpost _ _)⟩
  · obtain ⟨hC, hnext⟩ := hk v' hR hi
    rw [committed, ← hw, ← htr] at hnext
    exact ⟨⟨hC, hw⟩, hnext⟩

/-- A unit of work whose body is safe with any outcome. -/
theorem traced_unitOfWork {body : Transaction Q Res Err β}
    (h : Safe (traced D.exec) inv R (TracedCommitsOnly C i) i (fun _ _ => True) body v) :
    Safe (traced D.exec) inv R (TracedCommitsOnly C i) i (fun _ _ => True) (unitOfWork body) v := by
  refine Safe.andFinally (h.mono fun r v _ v' _ _ ch s v'' hx => ?_)
  obtain ⟨rfl, hw⟩ := exec_rollback (traced_eq_some.mp hx).1
  have hdb : v''.1.db = v'.1.db := by rw [hw, db_rollback]
  exact ⟨hdb, trivial⟩

end TracedRules

section Rules

variable [DecidableEq Lock] {Q : Type} {Res : Q → Type} {Ch β : Type}
  {D : Database Db Lock Q Res Err Ch} {inv : World Db Lock → Prop} {R : Rely (World Db Lock)}
  {C : World Db Lock → Prop} {Post : Except Err β → World Db Lock → Prop}

theorem safe_query {q : Q} {f : Ch → Db → Except Err (Res q)}
    {k : Res q → Transaction Q Res Err β} (hpost : ∀ e w, Post (.error e) w)
    (hq : ∀ ch, D.stmt ch i q = .query (f ch))
    (hk : ∀ w', R w w' → inv w' → ∀ ch a, f ch (w'.view i) = .ok a →
      Safe D.exec inv R (CommitsOnly C i) i Post (k a) w') :
    Safe D.exec inv R (CommitsOnly C i) i Post ((sql q).bind k) w :=
  (safe_traced []).mp <| traced_query (C := fun v => C v.1) (fun e v => hpost e v.1) hq
    fun v' hR hi ch a ha => (safe_traced _).mpr (hk v'.1 hR hi ch a ha)

theorem safe_sql {q : Q} {k : Res q → Transaction Q Res Err β} (hpost : ∀ e w, Post (.error e) w)
    (hk : ∀ w', R w w' → inv w' → ∀ ch a w'', w'.perform i (D.stmt ch i q) = some (.ok a, w'') →
      Safe D.exec inv R (CommitsOnly C i) i Post (k a) w'') :
    Safe D.exec inv R (CommitsOnly C i) i Post ((sql q).bind k) w :=
  (safe_traced []).mp <| traced_sql (C := fun v => C v.1) (fun e v => hpost e v.1)
    fun v' hR hi ch a w'' hx => (safe_traced _).mpr (hk v'.1 hR hi ch a w'' hx)

theorem safe_change {q : Q} {locks : Db → Db → List Lock}
    {act : Db → Db → Except Err (Res q × (Db → Db))}
    {k : Res q → Transaction Q Res Err β} (hpost : ∀ e w, Post (.error e) w)
    (hq : ∀ ch, D.stmt ch i q = .change locks act)
    (hk : ∀ w', R w w' → inv w' → ∀ u a f, w'.acquire i (locks (w'.seen i) (w'.view i)) = some u →
      act (w'.seen i) (w'.view i) = .ok (a, f) →
        Safe D.exec inv R (CommitsOnly C i) i Post (k a) (u.write i f)) :
    Safe D.exec inv R (CommitsOnly C i) i Post ((sql q).bind k) w :=
  (safe_traced []).mp <| traced_change (C := fun v => C v.1) (fun e v => hpost e v.1) hq
    fun v' hR hi u a f hu ha => (safe_traced _).mpr (hk v'.1 hR hi u a f hu ha)

theorem safe_begin {k : Unit → Transaction Q Res Err β} (hpost : ∀ e w, Post (.error e) w)
    (hk : ∀ w', R w w' → inv w' → Safe D.exec inv R (CommitsOnly C i) i Post (k ()) (w'.begin i)) :
    Safe D.exec inv R (CommitsOnly C i) i Post (begin.bind k) w :=
  (safe_traced []).mp <| traced_begin (C := fun v => C v.1) (fun e v => hpost e v.1)
    fun v' hR hi => (safe_traced _).mpr (hk v'.1 hR hi)

theorem safe_commit {k : Unit → Transaction Q Res Err β} (hpost : ∀ e w, Post (.error e) w)
    (hk : ∀ w', R w w' → inv w' →
      C w' ∧ Safe D.exec inv R (CommitsOnly C i) i Post (k ()) (w'.commit i)) :
    Safe D.exec inv R (CommitsOnly C i) i Post (commit.bind k) w :=
  (safe_traced []).mp <| traced_commit (C := fun v => C v.1) (fun e v => hpost e v.1)
    fun v' hR hi => ⟨(hk v'.1 hR hi).1, (safe_traced _).mpr (hk v'.1 hR hi).2⟩

theorem safe_unitOfWork {body : Transaction Q Res Err β}
    (h : Safe D.exec inv R (CommitsOnly C i) i (fun _ _ => True) body w) :
    Safe D.exec inv R (CommitsOnly C i) i (fun _ _ => True) (unitOfWork body) w :=
  (safe_traced []).mp <| traced_unitOfWork (C := fun v => C v.1) ((safe_traced []).mpr h)

end Rules

end ReadCommitted
