/-
  What `set_scopes` leaves when several replace the scopes of one principal.

  The DELETE removes the rows its snapshot has. A row that another transaction inserts
  and commits after that snapshot stays (`lateScopes`), so the stored scopes are those
  of the command that commits last together with the late ones, and equal to those of
  the command exactly when there are no others.
-/
import Valor.ManagementIdentity.Recovery

namespace Valor.ManagementIdentity

open Python ManagementAudit Prog Interleave ReadCommitted

/-! ## Scopes of a database -/

/-- The tenants of the principal's rows that the snapshot `seen` does not have. -/
def lateScopes (db seen : Db) (principalId : Uuid) : Finset Uuid :=
  ((db.scopes.rows.filter fun r => r.principalId = principalId ∧ r ∉ seen.scopes.rows).map
    (·.tenantId)).toFinset

section Scopes

variable {db seen : Db} {p q t : Uuid}

theorem mem_scopesOf : t ∈ db.scopesOf p ↔ ∃ r ∈ db.scopes, r.principalId = p ∧ r.tenantId = t := by
  simp [Db.scopesOf, Table.mem_rows, and_assoc]

theorem mem_lateScopes : t ∈ lateScopes db seen p ↔
    ∃ r ∈ db.scopes, r.principalId = p ∧ r ∉ seen.scopes ∧ r.tenantId = t := by
  simp [lateScopes, Table.mem_rows, and_assoc]

/-- Inserting a scope adds its tenant, or finds it there. -/
theorem mem_scopes_insert {scopes : Table ManagementPrincipalTenantScopeRow} {u : Uuid} {x : Tid} :
    (∃ r ∈ scopes.insert ⟨p, u, x⟩, r.principalId = q ∧ r.tenantId = t) ↔
      (∃ r ∈ scopes, r.principalId = q ∧ r.tenantId = t) ∨ (q = p ∧ t = u) := by
  constructor
  · rintro ⟨r, hr, hrq, hrt⟩
    rcases Table.mem_insert.mp hr with hr | ⟨rfl, _⟩
    · exact .inl ⟨r, hr, hrq, hrt⟩
    · exact .inr ⟨hrq.symm, hrt.symm⟩
  · rintro (⟨r, hr, hrest⟩ | ⟨rfl, rfl⟩)
    · exact ⟨r, Table.mem_insert_of_mem hr, hrest⟩
    · cases hf : scopes.find? (q, t) with
      | none => exact ⟨⟨q, t, x⟩, Table.mem_insert.mpr (.inr ⟨rfl, hf⟩), rfl, rfl⟩
      | some r =>
        obtain ⟨hr, hkey⟩ := Table.find?_some hf
        obtain ⟨hq, ht⟩ : r.principalId = q ∧ r.tenantId = t := by simpa [Keyed.key] using hkey
        exact ⟨r, Table.mem_insert_of_mem hr, hq, ht⟩

theorem mem_scopesOf_insertScopes {ts : List Uuid} {x : Tid} :
    t ∈ (db.insertScopes p ts x).scopesOf q ↔ t ∈ db.scopesOf q ∨ (q = p ∧ t ∈ ts) := by
  rw [mem_scopesOf, mem_scopesOf]
  unfold Db.insertScopes
  generalize db.scopes = scopes
  induction ts generalizing scopes with
  | nil => simp
  | cons u ts ih =>
    rw [List.foldl_cons]
    refine (ih _).trans ?_
    rw [mem_scopes_insert, List.mem_cons, or_assoc, ← and_or_left]

theorem scopesOf_deleteScopes_of_ne (h : q ≠ p) : (db.deleteScopes p seen).scopesOf q = db.scopesOf q := by
  ext t
  rw [mem_scopesOf, mem_scopesOf]
  refine exists_congr fun r => ⟨fun ⟨hr, hq, ht⟩ => ⟨(Table.mem_delete.mp hr).1, hq, ht⟩, ?_⟩
  rintro ⟨hr, hq, ht⟩
  refine ⟨Table.mem_delete.mpr ⟨hr, ?_⟩, hq, ht⟩
  simp [Db.scopeRows, hq, h]

/-- The DELETE leaves the late scopes. -/
theorem scopesOf_deleteScopes : (db.deleteScopes p seen).scopesOf p = lateScopes db seen p := by
  ext t
  rw [mem_scopesOf, mem_lateScopes]
  refine exists_congr fun r => ⟨fun ⟨hr, hp, ht⟩ => ?_, fun ⟨hr, hp, hlate, ht⟩ => ?_⟩
  · obtain ⟨hr, hdel⟩ := Table.mem_delete.mp hr
    refine ⟨hr, hp, fun hseen => ?_, ht⟩
    simp [Db.scopeRows, hp, Table.mem_rows.mp hseen] at hdel
  · refine ⟨Table.mem_delete.mpr ⟨hr, ?_⟩, hp, ht⟩
    have : r ∉ seen.scopes.rows := hlate
    simp [Db.scopeRows, this]

/-- A whole replacement. -/
theorem scopesOf_replace {ts : List Uuid} {x : Tid} {record : Record} :
    (((db.deleteScopes p seen).insertScopes p ts x).appendAudit record).scopesOf q =
      if q = p then lateScopes db seen p ∪ ts.toFinset else db.scopesOf q := by
  ext t
  rw [show ∀ d : Db, (d.appendAudit record).scopesOf q = d.scopesOf q from fun _ => rfl,
    mem_scopesOf_insertScopes]
  by_cases h : q = p
  · subst h
    simp [scopesOf_deleteScopes]
  · simp [h, scopesOf_deleteScopes_of_ne h]

end Scopes

/-! ## One replacement -/

structure ScopesRequest where
  command : SetScopesCommand
  env : Env

section Replacement

variable (requests : Tid → ScopesRequest)

/-- The world in which thread `i` commits: its DELETE saw `seen`, and the scopes of its
    principal become the late ones and its own. -/
def ReplacesScopes (i : Tid) (w : World Db Lock) : Prop :=
  ∃ seen, (w.txn i).snapshot = some seen ∧ ∀ q, (w.view i).scopesOf q =
    if q = (requests i).command.principalId then
      lateScopes w.db seen q ∪ (requests i).command.tenantIds
    else w.db.scopesOf q

variable {requests} {sqlNow : Tid → Utc} {i : Tid} {w : World Db Lock} {s : Service}

/-- Nothing but the thread itself touches its transaction. -/
theorem stable_txn (t : Txn Db) : Stable (Apart i) fun w : World Db Lock => w.txn i = t :=
  fun _ _ ht hR => hR.txn.trans ht

theorem txn_write {t : Txn Db} {f : Db → Db} (h : w.txn i = t) :
    (w.write i f).txn i = ⟨t.snapshot, t.writes ++ [f]⟩ := by
  simp [World.write, h]

theorem txn_write_acquire {v : World Db Lock} {ls : List Lock} {t : Txn Db} {f : Db → Db}
    (h : w.txn i = t) (hv : w.acquire i ls = some v) :
    (v.write i f).txn i = ⟨t.snapshot, t.writes ++ [f]⟩ :=
  txn_write (by rw [(acquire_db hv).2, h])

/-- The two statements of `replace_scopes`, after the snapshot. -/
theorem meets_replaceScopes {α : Type} {C : World Db Lock → Prop} {principal : ManagementPrincipal}
    {k : Unit → Program α} (h : (w.txn i).writes = [])
    (hk : ∀ seen w', w'.txn i = ⟨some seen,
      [fun db => db.deleteScopes principal.principalId seen,
        fun db => db.insertScopes principal.principalId (principal.tenantIds.sort (· ≤ ·)) i]⟩ →
      Meets sqlNow (fun _ => True) (Apart i) C i (k ()) w') :
    Meets sqlNow (fun _ => True) (Apart i) C i ((Service.replaceScopes principal).bind k) w := by
  simp only [Service.replaceScopes, bind_eq, bind_assoc]
  refine safe_begin (fun _ _ => trivial) fun w₁ hR _ => ?_
  have h₁ : (w₁.begin i).txn i = ⟨some (w₁.view i), []⟩ := by
    simp [World.begin, hR.txn, h]
  refine safe_change (fun _ _ => trivial) (fun _ => rfl) fun w₂ hR _ v a f hv ha => ?_
  cases ha
  have h₂ : w₂.txn i = ⟨some (w₁.view i), []⟩ := hR.txn.trans h₁
  have hseen : w₂.seen i = w₁.view i := by simp [World.seen, h₂]
  have h₃ := txn_write_acquire (f := fun db => db.deleteScopes principal.principalId (w₂.seen i)) h₂ hv
  rw [hseen] at h₃ ⊢
  refine safe_change (fun _ _ => trivial) (fun _ => rfl) fun w₃ hR _ v a f hv ha => ?_
  obtain ⟨_, _, ha⟩ := Except.bind_ok_cases ha
  cases ha
  exact hk _ _ (txn_write_acquire (hR.txn.trans h₃) hv)

theorem setScopes_replaces (h : (w.txn i).writes = []) :
    Meets sqlNow (fun _ => True) (Apart i) (ReplacesScopes requests i) i
      (s.setScopes (requests i).env (requests i).command) w := by
  have idle : Stable (Apart i) fun w : World Db Lock => (w.txn i).writes = [] :=
    fun w w' ht hR => (congrArg Txn.writes hR.txn).trans ht
  unfold Service.setScopes Service.requireManager
  refine safe_raiseWhen (fun _ _ => trivial) fun _ => safe_unitOfWork ?_
  refine meets_query (fun _ => rfl) idle h fun _ found w h hfound => ?_
  cases found with
  | none => exact meets_raise _ w
  | some principal =>
    have hid : principal.principalId = (requests i).command.principalId := by
      obtain ⟨row, _, hrow, t, rfl⟩ := getPrincipal_some (Except.ok.inj hfound)
      exact hrow
    refine meets_requireTenants idle h fun w h => ?_
    refine meets_replaceScopes h fun seen w h => ?_
    refine meets_auditPrincipal (stable_txn _) (J := fun w => ∃ record, w.txn i = ⟨some seen,
      [fun db => db.deleteScopes principal.principalId seen, fun db => db.insertScopes
        principal.principalId ((requests i).command.tenantIds.sort (· ≤ ·)) i,
        fun db => db.appendAudit record]⟩)
      (fun w record h => ⟨record, txn_write h⟩) h fun w ⟨record, h⟩ => ?_
    refine safe_commit (fun _ _ => trivial) fun w' hR _ => ⟨⟨seen, ?_, fun q => ?_⟩, meets_ret _ _⟩
    · rw [hR.txn, h]
    · rw [view_eq (congrArg Txn.writes (hR.txn.trans h)), ← hid]
      refine scopesOf_replace.trans ?_
      by_cases hq : q = principal.principalId
      · subst hq
        simp
      · simp [hq]

end Replacement

/-! ## Runs -/

section Runs

variable (sqlNow : Tid → Utc) (s : Service) (requests : Tid → ScopesRequest) (db : Db)

/-- Any store, and a `set_scopes` for every thread. -/
def startScopes : Config (World Db Lock) (Op Sql) (Op.Res Sql.Res) Error ManagementPrincipal :=
  ⟨World.ofDb db, fun i => s.setScopes (requests i).env (requests i).command⟩

abbrev ScopesRun (tr : List (Label (Op Sql) (Op.Res Sql.Res) Error))
    (c : Config (World Db Lock) (Op Sql) (Op.Res Sql.Res) Error ManagementPrincipal) : Prop :=
  Run (database sqlNow).exec (startScopes s requests db) tr c

variable {sqlNow s requests db} {tr : List (Label (Op Sql) (Op.Res Sql.Res) Error)}
  {c c' c'' : Config (World Db Lock) (Op Sql) (Op.Res Sql.Res) Error ManagementPrincipal}

theorem compatible_apart {α : Type} : Compatible (database sqlNow).exec (fun _ => True) Apart
    (fun i => CommitsOnly (ReplacesScopes requests i) i)
    (fun _ (_ : Except Error α) (_ : World Db Lock) => True) where
  refl := .refl
  trans _ _ _ _ := .trans
  outcome _ _ _ _ _ _ := trivial
  keeps _ _ _ := trivial
  within hij _ hx _ := exec_apart hij hx

theorem scopesRun_allSafe (h : ScopesRun sqlNow s requests db tr c) :
    AllSafe (database sqlNow).exec (fun _ => True) Apart
      (fun i => CommitsOnly (ReplacesScopes requests i) i) (fun _ _ _ => True) c :=
  Run.allSafe compatible_apart ⟨trivial, fun _ => setScopes_replaces rfl⟩ h

/-- Every commit of a run replaces scopes, and nothing else changes any. -/
theorem scopesRun_step (h : ScopesRun sqlNow s requests db tr c)
    {l : Label (Op Sql) (Op.Res Sql.Res) Error} (hs : Step (database sqlNow).exec c l c') :
    CommitsOnly (ReplacesScopes requests l.tid) l.tid l.event.op l.event.answer c.world c'.world :=
  ((scopesRun_allSafe h).step compatible_apart hs).1

/-- No step of the trace is a commit for the principal `p`. -/
def NoCommitFor (requests : Tid → ScopesRequest) (p : Uuid)
    (tr : List (Label (Op Sql) (Op.Res Sql.Res) Error)) : Prop :=
  ∀ j, committed j ∈ tr → (requests j).command.principalId ≠ p

theorem scopesOf_step (h : ScopesRun sqlNow s requests db tr c) {p : Uuid}
    {l : Label (Op Sql) (Op.Res Sql.Res) Error} (hs : Step (database sqlNow).exec c l c')
    (hl : ∀ j, l = committed j → (requests j).command.principalId ≠ p) :
    c'.world.db.scopesOf p = c.world.db.scopesOf p := by
  rcases (scopesRun_step h hs).label_cases with ⟨hc, ⟨seen, _, hscopes⟩, hw⟩ | ⟨_, hdb⟩
  · have hdb : c'.world.db = c.world.view l.tid := congrArg World.db hw
    rw [hdb, hscopes p, if_neg (Ne.symm (hl l.tid hc))]
  · rw [hdb]

theorem scopesOf_run (h : ScopesRun sqlNow s requests db tr c) {p : Uuid}
    {rest : List (Label (Op Sql) (Op.Res Sql.Res) Error)}
    (hr : Run (database sqlNow).exec c rest c') (hrest : NoCommitFor requests p rest) :
    c'.world.db.scopesOf p = c.world.db.scopesOf p := by
  induction hr with
  | nil => rfl
  | @snoc c₁ c₂ rest l hr hs ih =>
    have hrun : ScopesRun sqlNow s requests db (tr ++ rest) c₁ := h.append hr
    have hstep := scopesOf_step hrun hs fun j hj => hrest j (by simp [hj])
    rw [hstep, ih fun j hj => hrest j (List.mem_append_left _ hj)]

/-- However many replacements overlap: the scopes of a principal after the last commit for
    it are those of its command if and only if every row that its DELETE did not see, and
    that was committed by then, is for a tenant of the command. -/
theorem scopes_exact_iff (h : ScopesRun sqlNow s requests db tr c) {i : Tid}
    (hs : Step (database sqlNow).exec c (committed i) c')
    {rest : List (Label (Op Sql) (Op.Res Sql.Res) Error)}
    (hr : Run (database sqlNow).exec c' rest c'')
    (hlast : NoCommitFor requests (requests i).command.principalId rest) :
    ∃ seen, (c.world.txn i).snapshot = some seen ∧
      (c''.world.db.scopesOf (requests i).command.principalId = (requests i).command.tenantIds ↔
        lateScopes c.world.db seen (requests i).command.principalId ⊆
          (requests i).command.tenantIds) := by
  have hG : ReplacesScopes requests i c.world ∧ c'.world = c.world.commit i := scopesRun_step h hs
  obtain ⟨⟨seen, hseen, hscopes⟩, hw⟩ := hG
  have hdb : c'.world.db = c.world.view i := congrArg World.db hw
  refine ⟨seen, hseen, ?_⟩
  rw [scopesOf_run (Run.snoc h hs) hr hlast, hdb, hscopes, if_pos rfl]
  exact Finset.union_eq_right

end Runs

/-! ## Two overlapping replacements -/

variable {α : Type}

/-- Thread 0 gives principal 1 tenant 5, and every other thread tenant 6. -/
def overlappingRequests : Tid → ScopesRequest
  | 0 => ⟨⟨⟨9, true⟩, 1, {5}⟩, exampleEnv⟩
  | _ => ⟨⟨⟨9, true⟩, 1, {6}⟩, exampleEnv⟩

/-- Principal 1 without scopes, and the tenants 5 and 6. -/
def unscopedPrincipal : Db :=
  { Db.empty {5, 6} with principals := Table.empty.insert (principalRow 1 false) }

/-- The thread has returned. -/
def returned (i : Tid) (c : Config (World Db Lock) (Op Sql) (Op.Res Sql.Res) Error α) : Bool :=
  match c.prog i with
  | .ret _ => true
  | _ => false

/-- Each DELETE is before the other's INSERT commits: the principal ends with both tenants,
    which is the request of neither. -/
theorem scopes_union_of_overlapping : ∃ tr c,
    ScopesRun (fun _ => epoch) exampleService overlappingRequests unscopedPrincipal tr c ∧
      committed 0 ∈ tr ∧ committed 1 ∈ tr ∧ returned 0 c ∧ returned 1 c ∧
      ∀ i, c.world.db.scopesOf 1 ≠ (overlappingRequests i).command.tenantIds := by
  obtain ⟨tr, c, hrun, ht⟩ := schedule_any (database fun _ => epoch).exec
    (startScopes exampleService overlappingRequests unscopedPrincipal)
    (steps 0 4 ++ steps 1 4 ++ steps 0 4 ++ steps 1 4)
    (fun (tr, c) => tr.any (isCommit 0) && tr.any (isCommit 1) && returned 0 c && returned 1 c &&
      decide (c.world.db.scopesOf 1 = {5, 6})) (by decide +kernel)
  simp only [Bool.and_eq_true, List.any_eq_true, decide_eq_true_eq] at ht
  obtain ⟨⟨⟨⟨⟨l₀, hl₀, h₀⟩, l₁, hl₁, h₁⟩, hr₀⟩, hr₁⟩, hscopes⟩ := ht
  refine ⟨tr, c, hrun, eq_committed h₀ ▸ hl₀, eq_committed h₁ ▸ hl₁, hr₀, hr₁, fun i => ?_⟩
  rw [hscopes]
  unfold overlappingRequests
  split <;> decide

theorem scopes_exact_iff_alone : ∃ tr c c' seen,
    ScopesRun (fun _ => epoch) exampleService overlappingRequests unscopedPrincipal tr c ∧
      Step (database fun _ => epoch).exec c (committed 0) c' ∧
      (c.world.txn 0).snapshot = some seen ∧
      (c'.world.db.scopesOf 1 = {5} ↔ lateScopes c.world.db seen 1 ⊆ {5}) := by
  obtain ⟨tr, c, hrun, hat⟩ := schedule_any (database fun _ => epoch).exec
    (startScopes exampleService overlappingRequests unscopedPrincipal) (steps 0 6)
    (fun (_, c) => atCommit 0 c) (by decide +kernel)
  obtain ⟨prog, hstep⟩ := commit_step (database fun _ => epoch) performed rfl hat
  obtain ⟨seen, hseen, hexact⟩ := scopes_exact_iff hrun hstep (.nil _) (by simp [NoCommitFor])
  exact ⟨tr, c, _, seen, hrun, hstep, hseen, hexact⟩

end Valor.ManagementIdentity
