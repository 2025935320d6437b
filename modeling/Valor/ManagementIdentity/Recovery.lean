/-
  A recoverable manager is never lost to a removal that is guarded.

  `revoke_credential` and `disable_principal` hold the management lock from their first
  statement to their commit, and nothing else takes a manager or a credential away:
  while the lock is held the committed rows are only added to (`Extends`). So what the
  guard saw is still there at the commit, and `CommitSpec` holds of every commit of
  every run (`CommitMet`, by rely and guarantee).
-/
import Valor.ManagementIdentity.LastManager
import Valor.ManagementIdentity.Rules

namespace Valor.ManagementIdentity

open Python Postgres ManagementAudit Prog Interleave ReadCommitted

/-! ## What commits do to the rows -/

/-- Rows are added and none is changed. -/
structure Extends (db db' : Db) : Prop where
  principals : ∀ p ∈ db.principals, p ∈ db'.principals
  credentials : ∀ c ∈ db.credentials, c ∈ db'.credentials

/-- No principal loses its capability, and no credential its principal or its expiry. -/
structure Grows (db db' : Db) : Prop where
  principals : ∀ p ∈ db.principals, ∃ p' ∈ db'.principals,
    p'.principalId = p.principalId ∧ p'.canManagePrincipals = p.canManagePrincipals
  credentials : ∀ c ∈ db.credentials, ∃ c' ∈ db'.credentials,
    c'.principalId = c.principalId ∧ c'.expiresAt = c.expiresAt

theorem Extends.refl (db : Db) : Extends db db := ⟨fun _ h => h, fun _ h => h⟩

theorem Extends.trans {a b c : Db} (h : Extends a b) (h' : Extends b c) : Extends a c :=
  ⟨fun p hp => h'.principals p (h.principals p hp), fun p hp => h'.credentials p (h.credentials p hp)⟩

theorem Extends.grows {db db' : Db} (h : Extends db db') : Grows db db' :=
  ⟨fun p hp => ⟨p, h.principals p hp, rfl, rfl⟩, fun c hc => ⟨c, h.credentials c hc, rfl, rfl⟩⟩

section Changes

variable {db : Db}

theorem extends_insertPrincipal (row : ManagementPrincipalRow) : Extends db (db.insertPrincipal row) :=
  ⟨fun _ h => Table.mem_insert_of_mem h, fun _ h => h⟩

theorem extends_insertCredential (row : ManagementCredentialRow) :
    Extends db (db.insertCredential row) :=
  ⟨fun _ h => h, fun _ h => Table.mem_insert_of_mem h⟩

theorem extends_insertScopes (p : Uuid) (tenantIds : List Uuid) (xmin : Tid) :
    Extends db (db.insertScopes p tenantIds xmin) :=
  ⟨fun _ h => h, fun _ h => h⟩

theorem extends_deleteScopes (p : Uuid) (seen : Db) : Extends db (db.deleteScopes p seen) :=
  ⟨fun _ h => h, fun _ h => h⟩

theorem extends_appendAudit (record : Record) : Extends db (db.appendAudit record) :=
  ⟨fun _ h => h, fun _ h => h⟩

theorem grows_disablePrincipal (p : Uuid) (disabledAt : Option Utc) :
    Grows db (db.disablePrincipal p disabledAt) := by
  refine ⟨fun q hq => ⟨_, Db.mem_disablePrincipal.mpr ⟨q, hq, rfl⟩, ?_⟩,
    fun c hc => ⟨c, hc, rfl, rfl⟩⟩
  split <;> exact ⟨rfl, rfl⟩

theorem grows_revokeCredential (c : Uuid) (revokedAt : Option Utc) :
    Grows db (db.revokeCredential c revokedAt) := by
  refine ⟨fun p hp => ⟨p, hp, rfl, rfl⟩,
    fun q hq => ⟨_, Db.mem_revokeCredential.mpr ⟨q, hq, rfl⟩, ?_⟩⟩
  split <;> exact ⟨rfl, rfl⟩

/-- Revoking one credential leaves a manager that has another. -/
theorem recoverable_revokeCredential {now : Utc} {k : Uuid} {revokedAt : Option Utc}
    (h : ∃ p ∈ db.principals, ActiveManager p ∧ ∃ c ∈ db.credentials,
      c.principalId = p.principalId ∧ c.credentialId ≠ k ∧ UsableCredential c now) :
    RecoverableManager (db.revokeCredential k revokedAt) now := by
  obtain ⟨p, hp, hm, c, hc, hown, hne, hu⟩ := h
  exact ⟨p, hp, hm, c, Db.mem_revokeCredential.mpr ⟨c, hc, (if_neg hne).symm⟩, hown, hu⟩

/-- Disabling one principal leaves every other manager. -/
theorem recoverable_disablePrincipal {now : Utc} {k : Uuid} {disabledAt : Option Utc}
    (h : OtherManager db now k) : RecoverableManager (db.disablePrincipal k disabledAt) now := by
  obtain ⟨p, hp, hne, hm, c, hc, hown, hu⟩ := h
  exact ⟨p, Db.mem_disablePrincipal.mpr ⟨p, hp, (if_neg hne).symm⟩, hm, c, hc, hown, hu⟩

end Changes

/-! ## What a commit must meet -/

/-- A manager with a credential that never expires. -/
def UnexpiringManager (db : Db) : Prop :=
  ∃ p ∈ db.principals, ActiveManager p ∧ ∃ c ∈ db.credentials,
    c.principalId = p.principalId ∧ c.revokedAt = none ∧ c.expiresAt = none

/-- No credential of a manager carries an expiry. -/
def NoManagerExpiry (db : Db) : Prop :=
  ∀ p ∈ db.principals, p.canManagePrincipals = true → ∀ c ∈ db.credentials,
    c.principalId = p.principalId → c.expiresAt = none

/-- A removal aimed at the principal `principalId` at `now` keeps a recoverable manager if
    there is one, and leaves one if its target is an active manager. -/
structure Preserves (now : Utc) (principalId : Uuid) (db db' : Db) : Prop where
  kept : RecoverableManager db now → RecoverableManager db' now
  left : (∃ p ∈ db.principals, p.principalId = principalId ∧ ActiveManager p) →
    RecoverableManager db' now

/-- The principal that a removal is aimed at. -/
def Command.removes : Command → Option Uuid
  | revokeCredential c => some c.principalId
  | disablePrincipal c => some c.principalId
  | _ => none

def Command.isBootstrap : Command → Bool
  | bootstrap _ => true
  | _ => false

/-- What the commit of a request does, from the committed database before to after. -/
structure CommitSpec (r : Request) (db db' : Db) : Prop where
  grows : Grows db db'
  preserves : ∀ p ∈ r.command.removes, Preserves r.env.now p db db'
  extends' : r.command.removes = none → Extends db db'
  bootstrapped : r.command.isBootstrap → UnexpiringManager db'

theorem UnexpiringManager.recoverable {db : Db} (h : UnexpiringManager db) (at' : Utc) :
    RecoverableManager db at' := by
  obtain ⟨p, hp, hm, c, hc, hown, hr, he⟩ := h
  exact ⟨p, hp, hm, c, hc, hown, hr, by simp [he]⟩

theorem RecoverableManager.unexpiring {db : Db} {at' : Utc} (h : RecoverableManager db at')
    (hno : NoManagerExpiry db) : UnexpiringManager db := by
  obtain ⟨p, hp, hm, c, hc, hown, hr, _⟩ := h
  exact ⟨p, hp, hm, c, hc, hown, hr, hno p hp hm.2 c hc hown⟩

theorem UnexpiringManager.extends {db db' : Db} (h : UnexpiringManager db) (he : Extends db db') :
    UnexpiringManager db' := by
  obtain ⟨p, hp, hm, c, hc, hrest⟩ := h
  exact ⟨p, he.principals p hp, hm, c, he.credentials c hc, hrest⟩

theorem NoManagerExpiry.of_grows {db db' : Db} (h : NoManagerExpiry db') (hg : Grows db db') :
    NoManagerExpiry db := by
  intro p hp hm c hc hown
  obtain ⟨p', hp', hpid, hcan⟩ := hg.principals p hp
  obtain ⟨c', hc', hcid, hexp⟩ := hg.credentials c hc
  rw [← hexp]
  exact h p' hp' (hcan.trans hm) c' hc' (by rw [hcid, hpid, hown])

/-- Without expiries a commit keeps a manager that never expires. -/
theorem CommitSpec.unexpiring {r : Request} {db db' : Db} (h : CommitSpec r db db')
    (hno : NoManagerExpiry db') (hu : UnexpiringManager db) : UnexpiringManager db' := by
  cases hr : r.command.removes with
  | none => exact hu.extends (h.extends' hr)
  | some p => exact ((h.preserves p hr).kept (hu.recoverable _)).unexpiring hno

/-! ## Rely and guarantee -/

section Rely

/-- Between two statements of thread `i`: its locked rows remain, and under the
    management lock all rows do. -/
structure Others (i : Tid) (w w' : World Db Lock) : Prop where
  undisturbed : Undisturbed same i w w'
  extended : w.owner .managementState = some i → Extends w.db w'.db

theorem Others.refl (i : Tid) (w : World Db Lock) : Others i w w :=
  ⟨.refl same_refl i w, fun _ => .refl _⟩

theorem Others.trans {i : Tid} {w w' w'' : World Db Lock} (h : Others i w w') (h' : Others i w' w'') :
    Others i w w'' :=
  ⟨h.undisturbed.trans same_trans h'.undisturbed, fun ho =>
    (h.extended ho).trans (h'.extended ((h.undisturbed.apart.owner _).mpr ho))⟩

variable (requests : Tid → Request)

/-- The clock reading of a transaction is its SQL `now()`. -/
abbrev managementDatabase : Database Db Lock Sql Sql.Res Error Choice :=
  database fun i => (requests i).env.now

/-- A world whose commit by thread `i` is as its request says. -/
structure CommitMet (i : Tid) (w : World Db Lock) : Prop where
  spec : CommitSpec (requests i) w.db (w.view i)
  locked : (requests i).command.removes ≠ none → w.owner .managementState = some i

abbrev Recovers (i : Tid) {α : Type} (p : Program α) (w : World Db Lock) : Prop :=
  Meets (fun i => (requests i).env.now) (Protected same) (Others i) (CommitMet requests i) i p w

theorem compatible {α : Type} : Compatible (managementDatabase requests).exec (Protected same) Others
    (fun i => CommitsOnly (CommitMet requests i) i)
    (fun _ (_ : Except Error α) (_ : World Db Lock) => True) where
  refl := .refl
  trans _ _ _ _ := .trans
  outcome _ _ _ _ _ _ := trivial
  keeps hinv hx _ := protected_exec (fun ch i q => stmt_within _ ch i q) hinv hx
  within {i j ch op r a b} hij hinv hx hG := by
    refine ⟨exec_undisturbed same_refl same_trans hinv hij hx, fun ho => ?_⟩
    refine CommitsOnly.rel .refl hG fun hmet => hmet.spec.extends' ?_
    by_contra hne
    have hj := hmet.locked hne
    rw [ho] at hj
    exact hij (by simpa using hj)

end Rely

/-! ## Commands that only add -/

section Adding

variable {requests : Tid → Request} {i : Tid} {w : World Db Lock} {α β : Type}

/-- The transaction has done nothing but add rows. -/
def Adding (i : Tid) (w : World Db Lock) : Prop := ∀ f ∈ (w.txn i).writes, ∀ d, Extends d (f d)

def Sql.adds : Sql → Bool
  | principalsDisable _ | credentialsRevoke _ => false
  | _ => true

/-- The changes of a statement only add rows. -/
def ExtendingStmt : Stmt Db Lock Error β → Prop
  | .query _ => True
  | .change _ act => ∀ seen db a f, act seen db = .ok (a, f) → ∀ d, Extends d (f d)

theorem stmt_extending {sqlNow : Utc} {ch : Choice} {q : Sql} (hq : q.adds = true) :
    ExtendingStmt (stmt sqlNow ch i q) := by
  cases q with
  | lockManagementState =>
    intro seen db a f h d
    cases h
    exact .refl d
  | principalsAdd p =>
    intro seen db a f h d
    obtain ⟨row, _, h⟩ := Except.bind_ok_cases h
    obtain ⟨_, _, h⟩ := Except.bind_ok_cases h
    obtain ⟨_, _, h⟩ := Except.bind_ok_cases h
    cases h
    exact (extends_insertPrincipal row).trans (extends_insertScopes ..)
  | deleteScopes p =>
    intro seen db a f h d
    cases h
    exact extends_deleteScopes ..
  | insertScopes p =>
    intro seen db a f h d
    obtain ⟨_, _, h⟩ := Except.bind_ok_cases h
    cases h
    exact extends_insertScopes ..
  | credentialsAdd c =>
    intro seen db a f h d
    obtain ⟨row, _, h⟩ := Except.bind_ok_cases h
    obtain ⟨_, _, h⟩ := Except.bind_ok_cases h
    obtain ⟨_, _, h⟩ := Except.bind_ok_cases h
    cases h
    exact extends_insertCredential row
  | auditsAppend record =>
    intro seen db a f h d
    cases h
    exact extends_appendAudit record
  | deleteEvidence before =>
    intro seen db a f h d
    cases h
    exact ⟨fun _ h => h, fun _ h => h⟩
  | insertEvidence e =>
    intro seen db a f h d
    obtain ⟨row, _, h⟩ := Except.bind_ok_cases h
    obtain ⟨_, _, h⟩ := Except.bind_ok_cases h
    cases h
    exact ⟨fun _ h => h, fun _ h => h⟩
  | principalsDisable p => cases hq
  | credentialsRevoke c => cases hq
  | _ => trivial

theorem adding_stable : Stable (Others i) (Adding i) := by
  intro w w' h hR f hf
  rw [hR.undisturbed.apart.txn] at hf
  exact h f hf

theorem adding_appendAudit (w : World Db Lock) (record : Record) (h : Adding i w) :
    Adding i (w.write i fun db => db.appendAudit record) := by
  intro f hf
  rw [writes_write] at hf
  rcases List.mem_append.mp hf with hf | hf
  · exact h f hf
  · rw [List.mem_singleton.mp hf]
    exact fun d => extends_appendAudit record

theorem Adding.perform {st : Stmt Db Lock Error β} (hst : ExtendingStmt st) {a : β}
    {w' : World Db Lock} (h : Adding i w) (hx : w.perform i st = some (.ok a, w')) :
    Adding i w' := by
  cases st with
  | query f =>
    obtain ⟨_, rfl⟩ : f (w.view i) = .ok a ∧ w = w' := by simpa [World.perform] using hx
    exact h
  | change locks act =>
    obtain ⟨v, hv, ⟨b, f, hb, _, rfl⟩ | ⟨e, _, he, _⟩⟩ := statement_cases hx
    · intro g hg
      rw [writes_write, (acquire_db hv).2] at hg
      rcases List.mem_append.mp hg with hg | hg
      · exact h g hg
      · rw [List.mem_singleton.mp hg]
        exact hst _ _ _ _ hb
    · cases he

theorem adding_sql {q : Sql} {k : q.Res → Program α} (hq : q.adds = true) (h : Adding i w)
    (hk : ∀ a w', Adding i w' → Recovers requests i (k a) w') :
    Recovers requests i ((sql q).bind k) w :=
  safe_sql (fun _ _ => trivial) fun _ hR _ _ a w'' hx =>
    hk a w'' ((adding_stable _ _ h hR).perform (stmt_extending hq) hx)

theorem adding_begin {k : Unit → Program α} (h : Adding i w)
    (hk : ∀ w', Adding i w' → Recovers requests i (k ()) w') :
    Recovers requests i (begin.bind k) w := by
  refine safe_begin (fun _ _ => trivial) fun w' hR _ => hk _ fun f hf => ?_
  rw [writes_begin] at hf
  exact adding_stable _ _ h hR f hf

/-- The commit of a request that only adds. -/
theorem adding_commit {k : Unit → Program α} (hadds : (requests i).command.removes = none)
    (hboot : (requests i).command.isBootstrap = false) (h : Adding i w)
    (hk : ∀ w', Recovers requests i (k ()) w') : Recovers requests i (commit.bind k) w := by
  refine safe_commit (fun _ _ => trivial) fun w' hR _ => ⟨⟨?_, fun hne => absurd hadds hne⟩, hk _⟩
  have hext : Extends w'.db (w'.view i) :=
    rel_view (.refl ·) (fun _ _ _ => Extends.trans) (adding_stable _ _ h hR)
  exact ⟨hext.grows, by simp [hadds], fun _ => hext, by simp [hboot]⟩

variable {s : Service} {env : Env}

theorem createPrincipal_recovers {c : CreatePrincipalCommand}
    (hr : (requests i).command = .createPrincipal c) (h : Adding i w) :
    Recovers requests i (s.createPrincipal env c) w := by
  unfold Service.createPrincipal Service.requireManager
  refine safe_raiseWhen (fun _ _ => trivial) fun _ => safe_unitOfWork ?_
  refine meets_requireTenants adding_stable h fun w h => ?_
  refine safe_lift (fun _ _ => trivial) fun principal _ => ?_
  refine adding_sql rfl h fun _ w h => ?_
  refine meets_auditPrincipal adding_stable adding_appendAudit h fun w h => ?_
  exact adding_commit (by rw [hr]; rfl) (by rw [hr]; rfl) h fun w => meets_ret _ w

theorem issueCredential_recovers {c : IssueCredentialCommand}
    (hr : (requests i).command = .issueCredential c) (h : Adding i w) :
    Recovers requests i (s.issueCredential env c) w := by
  unfold Service.issueCredential Service.requireManager
  refine safe_raiseWhen (fun _ _ => trivial) fun _ => ?_
  refine meets_checkExpiry (safe_unitOfWork ?_)
  refine adding_sql rfl h fun found w h => ?_
  cases found with
  | none => exact meets_raise _ w
  | some principal =>
    refine safe_raiseWhen (fun _ _ => trivial) fun _ => ?_
    refine meets_newCredential fun issued _ => ?_
    refine adding_sql rfl h fun _ w h => ?_
    refine meets_auditCredential adding_stable adding_appendAudit h fun w h => ?_
    exact adding_commit (by rw [hr]; rfl) (by rw [hr]; rfl) h fun w => meets_ret _ w

theorem setScopes_recovers {c : SetScopesCommand} (hr : (requests i).command = .setScopes c)
    (h : Adding i w) : Recovers requests i (s.setScopes env c) w := by
  unfold Service.setScopes Service.requireManager
  refine safe_raiseWhen (fun _ _ => trivial) fun _ => safe_unitOfWork ?_
  refine adding_sql rfl h fun found w h => ?_
  cases found with
  | none => exact meets_raise _ w
  | some principal =>
    refine meets_requireTenants adding_stable h fun w h => ?_
    simp only [Service.replaceScopes, bind_eq, bind_assoc]
    refine adding_begin h fun w h => ?_
    refine adding_sql rfl h fun _ w h => ?_
    refine adding_sql rfl h fun _ w h => ?_
    refine meets_auditPrincipal adding_stable adding_appendAudit h fun w h => ?_
    exact adding_commit (by rw [hr]; rfl) (by rw [hr]; rfl) h fun w => meets_ret _ w

end Adding

/-! ## Commands that remove, under the management lock -/

section Removing

variable {requests : Tid → Request} {i : Tid} {w : World Db Lock} {ws : List (Db → Db)}
  {F : Db → Prop}

/-- Under the management lock: the changes so far, and a fact about the committed rows. -/
structure Holds (i : Tid) (ws : List (Db → Db)) (F : Db → Prop) (w : World Db Lock) : Prop where
  owner : w.owner .managementState = some i
  writes : (w.txn i).writes = ws
  fact : F w.db

/-- A fact that added rows leave true. -/
def Grown (F : Db → Prop) : Prop := ∀ db db', Extends db db' → F db → F db'

theorem holds_stable (hF : Grown F) : Stable (Others i) (Holds i ws F) := by
  intro w w' h hR
  refine ⟨(hR.undisturbed.apart.owner _).mpr h.owner, ?_, hF _ _ (hR.extended h.owner) h.fact⟩
  rw [hR.undisturbed.apart.txn]
  exact h.writes

theorem Holds.mono {F' : Db → Prop} (h : Holds i ws F w) (hF : F w.db → F' w.db) :
    Holds i ws F' w :=
  ⟨h.owner, h.writes, hF h.fact⟩

/-- The same with an audit record appended. -/
def Audited (i : Tid) (ws : List (Db → Db)) (F : Db → Prop) (w : World Db Lock) : Prop :=
  ∃ record, Holds i (ws ++ [fun db => db.appendAudit record]) F w

theorem Holds.audited (record : Record) (h : Holds i ws F w) :
    Audited i ws F (w.write i fun db => db.appendAudit record) :=
  ⟨record, h.owner, by rw [writes_write, h.writes], h.fact⟩

/-- What an audited removal commits. -/
theorem audited_commit {α : Type} {f : Db → Db} {k : Unit → Program α} (hF : Grown F)
    (hspec : ∀ db record, F db → CommitSpec (requests i) db ((f db).appendAudit record))
    (h : Audited i [id, f] F w) (hk : ∀ w', Recovers requests i (k ()) w') :
    Recovers requests i (commit.bind k) w := by
  obtain ⟨record, h⟩ := h
  refine safe_commit (fun _ _ => trivial) fun w' hR _ => ⟨?_, hk _⟩
  have h' := holds_stable hF _ _ h hR
  have hview : w'.view i = (f w'.db).appendAudit record := view_eq h'.writes
  refine ⟨?_, fun _ => h'.owner⟩
  rw [hview]
  exact hspec _ _ h'.fact

/-- The statement that removes. -/
theorem Holds.write {v : World Db Lock} {ls : List Lock} {f : Db → Db} (h : Holds i [id] F w)
    (hv : w.acquire i ls = some v) : Holds i [id, f] F (v.write i f) := by
  refine ⟨acquire_keeps hv h.owner, ?_, ?_⟩
  · rw [writes_write, (acquire_db hv).2, h.writes]
    rfl
  · rw [db_write, (acquire_db hv).1]
    exact h.fact

theorem holds_lock {α : Type} {k : Unit → Program α} (h : (w.txn i).writes = [])
    (hk : ∀ w', Holds i [id] (fun _ => True) w' → Recovers requests i (k ()) w') :
    Recovers requests i ((sql .lockManagementState).bind k) w := by
  refine safe_change (fun _ _ => trivial) (fun _ => rfl) fun w' hR _ v a f hv ha => ?_
  cases ha
  refine hk _ ⟨acquire_owner hv (List.mem_singleton_self _), ?_, trivial⟩
  rw [writes_write, (acquire_db hv).2, hR.undisturbed.apart.txn, h]
  rfl

theorem Holds.view (h : Holds i [id] F w) : w.view i = w.db := view_eq h.writes

theorem activeManager_principalFromRow {row : ManagementPrincipalRow} {t : Finset Uuid} :
    ((principalFromRow row t).isActive && (principalFromRow row t).canManagePrincipals) = true ↔
      ActiveManager row := by
  cases hd : row.disabledAt <;>
    simp [ManagementPrincipal.isActive, principalFromRow, ActiveManager, hd]

/-! ### Disabling -/

/-- The target as it was read, and another manager if it is one itself. -/
structure DisableFact (now : Utc) (row : ManagementPrincipalRow) (db : Db) : Prop where
  target : row ∈ db.principals
  other : ActiveManager row → OtherManager db now row.principalId

theorem OtherManager.extends {db db' : Db} {now : Utc} {k : Uuid} (h : OtherManager db now k)
    (he : Extends db db') : OtherManager db' now k := by
  obtain ⟨p, hp, hne, hm, c, hc, hrest⟩ := h
  exact ⟨p, he.principals p hp, hne, hm, c, he.credentials c hc, hrest⟩

theorem grown_disableFact (now : Utc) (row : ManagementPrincipalRow) :
    Grown (DisableFact now row) :=
  fun _ _ he h => ⟨he.principals _ h.target, fun hm => (h.other hm).extends he⟩

/-- If the target is not the manager one relies on, another principal is. -/
theorem DisableFact.otherManager {db : Db} {now : Utc} {row : ManagementPrincipalRow}
    (h : DisableFact now row db) (hr : RecoverableManager db now) :
    OtherManager db now row.principalId := by
  obtain ⟨p, hp, hm, hc⟩ := hr
  by_cases hid : p.principalId = row.principalId
  · obtain rfl : p = row := Table.eq_of_key hp h.target hid
    exact h.other hm
  · exact ⟨p, hp, hid, hm, hc⟩

theorem DisableFact.preserves {db : Db} {now : Utc} {row : ManagementPrincipalRow}
    (h : DisableFact now row db) (disabledAt : Option Utc) :
    Preserves now row.principalId db (db.disablePrincipal row.principalId disabledAt) where
  kept hr := recoverable_disablePrincipal (h.otherManager hr)
  left := by
    rintro ⟨p, hp, hid, hm⟩
    obtain rfl : p = row := Table.eq_of_key hp h.target hid
    exact recoverable_disablePrincipal (h.other hm)

variable {s : Service}

theorem disable_tail_recovers {c : DisablePrincipalCommand} {row : ManagementPrincipalRow}
    {t : Finset Uuid} (hr : (requests i).command = .disablePrincipal c)
    (hid : row.principalId = c.principalId)
    (h : Holds i [id] (DisableFact (requests i).env.now row) w) :
    Recovers requests i ((orValueError ((principalFromRow row t).disable (requests i).env.now)).bind
      fun disabled => (sql (.principalsDisable disabled)).bind fun _ =>
        (s.auditPrincipal (requests i).env c.actor.principalId disabled (some (principalFromRow row t))
          .managementPrincipalDisabled).bind fun _ => commit.bind fun _ => .ret disabled) w := by
  refine safe_lift (fun _ _ => trivial) fun disabled hdis => ?_
  have hdid : disabled.principalId = row.principalId := by
    unfold ManagementPrincipal.disable at hdis
    split at hdis
    · cases hdis
      rfl
    · cases hdis
  refine safe_change (fun _ _ => trivial) (fun _ => rfl) fun w' hR _ v a f hv ha => ?_
  obtain ⟨disabledAt, _, ha⟩ := Except.bind_ok_cases ha
  cases ha
  rw [hdid]
  have hw := (holds_stable (grown_disableFact _ row) _ _ h hR).write
    (f := fun db => db.disablePrincipal row.principalId disabledAt) hv
  refine meets_auditPrincipal (holds_stable (grown_disableFact _ row))
    (fun w record (h : Holds ..) => h.audited record) hw fun w hw => ?_
  refine audited_commit (grown_disableFact _ row) (fun db record h => ?_) hw
    fun w => meets_ret _ w
  have hpres := h.preserves disabledAt
  have hgrows : Grows db (db.disablePrincipal row.principalId disabledAt) :=
    grows_disablePrincipal ..
  refine ⟨⟨hgrows.principals, hgrows.credentials⟩, fun p hp => ?_, ?_, ?_⟩
  · obtain rfl : c.principalId = p := by simpa [hr, Command.removes] using hp
    rw [← hid]
    exact ⟨hpres.kept, hpres.left⟩
  · simp [hr, Command.removes]
  · simp [hr, Command.isBootstrap]

theorem disablePrincipal_recovers {c : DisablePrincipalCommand}
    (hr : (requests i).command = .disablePrincipal c) (h : (w.txn i).writes = []) :
    Recovers requests i (s.disablePrincipal (requests i).env c) w := by
  unfold Service.disablePrincipal Service.requireManager
  refine safe_raiseWhen (fun _ _ => trivial) fun _ => safe_unitOfWork ?_
  refine holds_lock h fun w h => ?_
  refine meets_query (fun _ => rfl) (holds_stable fun _ _ _ _ => trivial) h
    fun _ found w h hfound => ?_
  have hfound : w.db.getPrincipal c.principalId = found := by
    rw [← h.view]
    exact Except.ok.inj hfound
  cases found with
  | none => exact meets_raise _ w
  | some principal =>
    obtain ⟨row, hmem, hid, t, rfl⟩ := getPrincipal_some hfound
    refine safe_raiseWhen (fun _ _ => trivial) fun hactive => ?_
    split
    · next hmanager =>
      have h : Holds i [id] (row ∈ ·.principals) w := h.mono fun _ => hmem
      simp only [Service.requireOtherManager, bind_eq, bind_assoc]
      refine meets_query (fun _ => rfl) (holds_stable fun _ _ he h => he.principals _ h) h
        fun ch other w h hother => ?_
      refine safe_raiseWhen (fun _ _ => trivial) fun hok => ?_
      refine disable_tail_recovers hr hid (h.mono fun hmem => ⟨hmem, fun _ => ?_⟩)
      have hother : w.db.hasRecoverableManager (requests i).env.now (ch.order w.db)
          (some row.principalId) = other := by
        rw [h.view] at hother
        exact Except.ok.inj hother
      exact otherManager_of_has (hother.trans (by simpa using hok))
    · next hmanager =>
      exact disable_tail_recovers hr hid (h.mono fun _ => ⟨hmem, fun hm => absurd hm.2 hmanager⟩)

/-! ### Revoking -/

/-- A manager with a usable credential other than `k`. -/
def Survivor (now : Utc) (k : Uuid) (db : Db) : Prop :=
  ∃ p ∈ db.principals, ActiveManager p ∧ ∃ c ∈ db.credentials,
    c.principalId = p.principalId ∧ c.credentialId ≠ k ∧ UsableCredential c now

/-- Target and owner as they were read, and a survivor if the owner is a manager. -/
structure RevokeFact (now : Utc) (row : ManagementPrincipalRow) (credential : ManagementCredentialRow)
    (db : Db) : Prop where
  owner : row ∈ db.principals
  target : credential ∈ db.credentials
  owns : credential.principalId = row.principalId
  survivor : ActiveManager row → Survivor now credential.credentialId db

theorem grown_revokeFact (now : Utc) (row : ManagementPrincipalRow)
    (credential : ManagementCredentialRow) : Grown (RevokeFact now row credential) := by
  intro db db' he h
  refine ⟨he.principals _ h.owner, he.credentials _ h.target, h.owns, fun hm => ?_⟩
  obtain ⟨p, hp, hm, c, hc, hrest⟩ := h.survivor hm
  exact ⟨p, he.principals p hp, hm, c, he.credentials c hc, hrest⟩

theorem RevokeFact.survivor_of_recoverable {db : Db} {now : Utc} {row : ManagementPrincipalRow}
    {credential : ManagementCredentialRow} (h : RevokeFact now row credential db)
    (hr : RecoverableManager db now) : Survivor now credential.credentialId db := by
  obtain ⟨p, hp, hm, c, hc, hown, hu⟩ := hr
  by_cases hid : c.credentialId = credential.credentialId
  · obtain rfl : c = credential := Table.eq_of_key hc h.target hid
    obtain rfl : p = row := Table.eq_of_key hp h.owner (hown.symm.trans h.owns)
    exact h.survivor hm
  · exact ⟨p, hp, hm, c, hc, hown, hid, hu⟩

theorem RevokeFact.preserves {db : Db} {now : Utc} {row : ManagementPrincipalRow}
    {credential : ManagementCredentialRow} (h : RevokeFact now row credential db)
    (revokedAt : Option Utc) :
    Preserves now row.principalId db (db.revokeCredential credential.credentialId revokedAt) where
  kept hr := recoverable_revokeCredential (h.survivor_of_recoverable hr)
  left := by
    rintro ⟨p, hp, hid, hm⟩
    obtain rfl : p = row := Table.eq_of_key hp h.owner hid
    exact recoverable_revokeCredential (h.survivor hm)

theorem revoke_tail_recovers {c : RevokeCredentialCommand} {row : ManagementPrincipalRow}
    {credential : ManagementCredentialRow} (hr : (requests i).command = .revokeCredential c)
    (hid : row.principalId = c.principalId)
    (h : Holds i [id] (RevokeFact (requests i).env.now row credential) w) :
    Recovers requests i ((orValueError ((credentialFromRow credential).revoke (requests i).env.now)).bind
      fun revoked => (sql (.credentialsRevoke revoked)).bind fun _ =>
        (s.auditCredential (requests i).env c.actor.principalId revoked
          (some (credentialFromRow credential)) .managementCredentialRevoked).bind fun _ =>
            commit.bind fun _ => .ret revoked) w := by
  refine safe_lift (fun _ _ => trivial) fun revoked hrev => ?_
  have hcid : revoked.credentialId = credential.credentialId := by
    unfold Credential.revoke at hrev
    split at hrev
    · cases hrev
    · cases hrev
      rfl
  refine safe_change (fun _ _ => trivial) (fun _ => rfl) fun w' hR _ v a f hv ha => ?_
  obtain ⟨revokedAt, _, ha⟩ := Except.bind_ok_cases ha
  cases ha
  rw [hcid]
  have hF := grown_revokeFact (requests i).env.now row credential
  have hw := (holds_stable hF _ _ h hR).write
    (f := fun db => db.revokeCredential credential.credentialId revokedAt) hv
  refine meets_auditCredential (holds_stable hF)
    (fun w record (h : Holds ..) => h.audited record) hw fun w hw => ?_
  refine audited_commit hF (fun db record h => ?_) hw fun w => meets_ret _ w
  have hpres := h.preserves revokedAt
  have hgrows : Grows db (db.revokeCredential credential.credentialId revokedAt) :=
    grows_revokeCredential ..
  refine ⟨⟨hgrows.principals, hgrows.credentials⟩, fun p hp => ?_, ?_, ?_⟩
  · obtain rfl : c.principalId = p := by simpa [hr, Command.removes] using hp
    rw [← hid]
    exact ⟨hpres.kept, hpres.left⟩
  · simp [hr, Command.removes]
  · simp [hr, Command.isBootstrap]

/-- The guard of `revoke_credential` passed: there is a survivor. -/
theorem requireOtherUsable_recovers {row : ManagementPrincipalRow}
    {credential : ManagementCredentialRow} {t : Finset Uuid} {α : Type} {k : Unit → Program α}
    (hm : ActiveManager row) (howns : credential.principalId = row.principalId)
    (h : Holds i [id] (fun db => row ∈ db.principals ∧ credential ∈ db.credentials) w)
    (hk : ∀ w', Holds i [id] (RevokeFact (requests i).env.now row credential) w' →
      Recovers requests i (k ()) w') :
    Recovers requests i ((Service.requireOtherUsable (requests i).env (principalFromRow row t)
      (credentialFromRow credential)).bind k) w := by
  have hF : Grown fun db => row ∈ db.principals ∧ credential ∈ db.credentials :=
    fun _ _ he h => ⟨he.principals _ h.1, he.credentials _ h.2⟩
  simp only [Service.requireOtherUsable, bind_eq, bind_assoc]
  refine meets_query (fun _ => rfl) (holds_stable hF) h fun ch other w h hother => ?_
  have hother : w.db.hasRecoverableManager (requests i).env.now (ch.order w.db)
      (some row.principalId) = other := by
    rw [h.view] at hother
    exact Except.ok.inj hother
  have hF' : Grown fun db => (row ∈ db.principals ∧ credential ∈ db.credentials) ∧
      (other = true → OtherManager db (requests i).env.now row.principalId) :=
    fun _ _ he h => ⟨hF _ _ he h.1, fun ho => (h.2 ho).extends he⟩
  refine meets_query (fun _ => rfl) (holds_stable hF')
    (h.mono fun hf => ⟨hf, fun ho => otherManager_of_has (hother.trans ho)⟩) fun _ items w h hitems => ?_
  have hitems : w.db.listForPrincipal row.principalId = items := by
    rw [h.view] at hitems
    exact Except.ok.inj hitems
  refine safe_raiseWhen (fun _ _ => trivial) fun hok => hk w (h.mono fun hf => ?_)
  refine ⟨hf.1.1, hf.1.2, howns, fun _ => ?_⟩
  have hcount := countP_usable_eq_zero w.db row.principalId credential.credentialId
    (requests i).env.now
  rw [hitems] at hcount
  cases ho : other with
  | true =>
    obtain ⟨p, hp, hne, hm', c, hc, hown, hu⟩ := hf.2 ho
    refine ⟨p, hp, hm', c, hc, hown, fun he => hne ?_, hu⟩
    obtain rfl : c = credential := Table.eq_of_key hc hf.1.2 he
    exact hown.symm.trans howns
  | false =>
    rw [ho] at hok
    obtain ⟨c, hc, hown, hne, hu⟩ : OtherCredential w.db (requests i).env.now row.principalId
        credential.credentialId := by
      by_contra hno
      exact hok (decide_eq_true (hcount.mpr hno))
    exact ⟨row, hf.1.1, hm, c, hc, hown, hne, hu⟩

theorem revokeCredential_recovers {c : RevokeCredentialCommand}
    (hr : (requests i).command = .revokeCredential c) (h : (w.txn i).writes = []) :
    Recovers requests i (s.revokeCredential (requests i).env c) w := by
  unfold Service.revokeCredential Service.requireManager
  refine safe_raiseWhen (fun _ _ => trivial) fun _ => safe_unitOfWork ?_
  refine holds_lock h fun w h => ?_
  refine meets_query (fun _ => rfl) (holds_stable fun _ _ _ _ => trivial) h
    fun _ principal? w h hprincipal => ?_
  have hprincipal : w.db.getPrincipal c.principalId = principal? := by
    rw [← h.view]
    exact Except.ok.inj hprincipal
  have hF : Grown fun db => ∀ p ∈ principal?, ∃ row ∈ db.principals,
      row.principalId = c.principalId ∧ ∃ t, p = principalFromRow row t := by
    rintro _ _ he h p hp
    obtain ⟨row, hmem, hrow⟩ := h p hp
    exact ⟨row, he.principals _ hmem, hrow⟩
  refine meets_query (fun _ => rfl) (holds_stable hF)
    (h.mono fun _ p hp => getPrincipal_some (hprincipal.trans hp)) fun _ credential? w h hcred => ?_
  have hcred : w.db.getCredential c.credentialId = credential? := by
    rw [← h.view]
    exact Except.ok.inj hcred
  match principal?, credential? with
  | none, _ => exact meets_raise _ w
  | some _, none => exact meets_raise _ w
  | some principal, some credential =>
    obtain ⟨row, hmem, hid, t, rfl⟩ := h.fact principal rfl
    obtain ⟨crow, hcmem, hcid, rfl⟩ := getCredential_some hcred
    refine safe_raiseWhen (fun _ _ => trivial) fun howns => ?_
    refine safe_raiseWhen (fun _ _ => trivial) fun _ => ?_
    have howns : crow.principalId = row.principalId := not_not.mp howns
    split
    · next hm =>
      exact requireOtherUsable_recovers (activeManager_principalFromRow.mp hm) howns
        (h.mono fun _ => ⟨hmem, hcmem⟩) fun w h => revoke_tail_recovers hr hid h
    · next hm =>
      refine revoke_tail_recovers hr hid (h.mono fun _ => ⟨hmem, hcmem, howns, fun hm' => ?_⟩)
      exact absurd (activeManager_principalFromRow.mpr hm') hm

end Removing

/-! ## The bootstrap -/

section Bootstrap

variable {requests : Tid → Request} {i : Tid} {w : World Db Lock} {s : Service}

theorem newPrincipal_ok {principalId : Uuid} {name : String} {manager : Bool} {t : Finset Uuid}
    {now : Datetime} {p : ManagementPrincipal}
    (h : ManagementPrincipal.new principalId name manager t now none = .ok p) :
    p.canManagePrincipals = manager ∧ p.disabledAt = none := by
  unfold ManagementPrincipal.new at h
  split at h
  · cases h
  · obtain ⟨createdAt, _, h⟩ := Except.bind_ok_cases h
    obtain ⟨disabledAt, hd, h⟩ := Except.bind_ok_cases h
    cases hd
    cases h
    exact ⟨rfl, rfl⟩

/-- The principal is inserted: its key is locked and still free. -/
structure PrincipalAdded (i : Tid) (row : ManagementPrincipalRow) (t : List Uuid)
    (w : World Db Lock) : Prop where
  writes : (w.txn i).writes =
    [id, fun db => (db.insertPrincipal row).insertScopes row.principalId t i]
  owner : w.owner (.principal row.principalId) = some i
  free : w.db.principals.find? row.principalId = none

/-- So is its credential. -/
structure CredentialAdded (i : Tid) (row : ManagementPrincipalRow) (t : List Uuid)
    (credential : ManagementCredentialRow) (w : World Db Lock) : Prop where
  writes : (w.txn i).writes =
    [id, fun db => (db.insertPrincipal row).insertScopes row.principalId t i,
      fun db => db.insertCredential credential]
  principalOwner : w.owner (.principal row.principalId) = some i
  principalFree : w.db.principals.find? row.principalId = none
  owner : w.owner (.credential credential.credentialId) = some i
  free : w.db.credentials.find? credential.credentialId = none

theorem principalAdded_stable {row : ManagementPrincipalRow} {t : List Uuid} :
    Stable (Others i) (PrincipalAdded i row t) := by
  intro w w' h hR
  have ho := hR.undisturbed.apart.owner
  exact ⟨hR.undisturbed.apart.txn ▸ h.writes, (ho _).mpr h.owner,
    (hR.undisturbed.same _ h.owner).trans h.free⟩

theorem credentialAdded_stable {row : ManagementPrincipalRow} {t : List Uuid}
    {credential : ManagementCredentialRow} : Stable (Others i) (CredentialAdded i row t credential) := by
  intro w w' h hR
  have ho := hR.undisturbed.apart.owner
  exact ⟨hR.undisturbed.apart.txn ▸ h.writes, (ho _).mpr h.principalOwner,
    (hR.undisturbed.same _ h.principalOwner).trans h.principalFree, (ho _).mpr h.owner,
    (hR.undisturbed.same _ h.owner).trans h.free⟩

theorem CredentialAdded.met {row : ManagementPrincipalRow} {t : List Uuid}
    {credential : ManagementCredentialRow} {c : BootstrapCommand}
    (hr : (requests i).command = .bootstrap c) (hm : ActiveManager row)
    (hown : credential.principalId = row.principalId) (hrev : credential.revokedAt = none)
    (hexp : credential.expiresAt = none) (h : CredentialAdded i row t credential w) :
    CommitMet requests i w := by
  have hview : w.view i = ((w.db.insertPrincipal row).insertScopes row.principalId t i).insertCredential
      credential := view_eq h.writes
  have hext : Extends w.db (w.view i) := by
    rw [hview]
    exact (extends_insertPrincipal row).trans
      ((extends_insertScopes ..).trans (extends_insertCredential credential))
  refine ⟨⟨hext.grows, by simp [hr, Command.removes], fun _ => hext, fun _ => ?_⟩,
    fun hne => absurd (by rw [hr]; rfl) hne⟩
  rw [hview]
  refine ⟨row, Table.mem_insert.mpr (.inr ⟨rfl, h.principalFree⟩), hm, credential, ?_, hown, hrev, hexp⟩
  exact Table.mem_insert.mpr (.inr ⟨rfl, h.free⟩)

theorem recovers_principalsAdd {α : Type} {principal : ManagementPrincipal} {k : Unit → Program α}
    (h : (w.txn i).writes = [id])
    (hk : ∀ row w', ManagementPrincipalRow.ofPrincipal principal = .ok row →
      PrincipalAdded i row (principal.tenantIds.sort (· ≤ ·)) w' → Recovers requests i (k ()) w') :
    Recovers requests i ((sql (.principalsAdd principal)).bind k) w := by
  refine safe_change (fun _ _ => trivial) (fun _ => rfl) fun w hR _ v a f hv ha => ?_
  obtain ⟨row, hrow, ha⟩ := Except.bind_ok_cases ha
  obtain ⟨_, hfree, ha⟩ := Except.bind_ok_cases ha
  obtain ⟨_, _, ha⟩ := Except.bind_ok_cases ha
  cases ha
  have hrow := column_ok hrow
  have hid := principalId_ofPrincipal hrow
  have hw : (w.txn i).writes = [id] := by
    rw [hR.undisturbed.apart.txn]
    exact h
  refine hk row _ hrow ⟨?_, ?_, ?_⟩
  · rw [writes_write, (acquire_db hv).2, hw, hid]
    rfl
  · rw [hid]
    exact acquire_owner hv (List.mem_cons_self ..)
  · rw [hid, db_write, (acquire_db hv).1]
    have hview : w.view i = w.db := view_eq hw
    rw [← hview]
    exact constraint_ok hfree

theorem recovers_credentialsAdd {α : Type} {row : ManagementPrincipalRow} {t : List Uuid}
    {credential : ManagementCredential} {k : Unit → Program α} (h : PrincipalAdded i row t w)
    (hk : ∀ crow w', CredentialRow.ofCredential credential = .ok crow →
      CredentialAdded i row t crow w' → Recovers requests i (k ()) w') :
    Recovers requests i ((sql (.credentialsAdd credential)).bind k) w := by
  refine safe_change (fun _ _ => trivial) (fun _ => rfl) fun w hR _ v a f hv ha => ?_
  obtain ⟨crow, hcrow, ha⟩ := Except.bind_ok_cases ha
  obtain ⟨_, hfree, ha⟩ := Except.bind_ok_cases ha
  obtain ⟨_, _, ha⟩ := Except.bind_ok_cases ha
  cases ha
  have hcrow := column_ok hcrow
  have hcid := (ofCredential_ok hcrow).1
  have hw := principalAdded_stable _ _ h hR
  refine hk crow _ hcrow ⟨?_, acquire_keeps hv hw.owner, ?_, ?_, ?_⟩
  · rw [writes_write, (acquire_db hv).2, hw.writes]
    rfl
  · rw [db_write, (acquire_db hv).1]
    exact hw.free
  · rw [hcid]
    exact acquire_owner hv (List.mem_singleton_self _)
  · rw [hcid, db_write, (acquire_db hv).1]
    have hview : w.view i = (w.db.insertPrincipal row).insertScopes row.principalId t i :=
      view_eq hw.writes
    have hfree := constraint_ok hfree
    rw [hview] at hfree
    exact hfree

theorem bootstrap_recovers {c : BootstrapCommand} (hr : (requests i).command = .bootstrap c)
    (h : (w.txn i).writes = []) : Recovers requests i (s.bootstrap (requests i).env c) w := by
  unfold Service.bootstrap compareDigest
  split
  · refine safe_raiseWhen (fun _ _ => trivial) fun _ => safe_unitOfWork ?_
    refine holds_lock h fun w h => ?_
    have hI : Stable (Others i) (Holds i [id] fun _ => True) := holds_stable fun _ _ _ _ => trivial
    refine meets_query (fun _ => rfl) hI h fun _ count w h _ => ?_
    refine safe_raiseWhen (fun _ _ => trivial) fun _ => ?_
    refine meets_requireTenants hI h fun w h => ?_
    refine safe_lift (fun _ _ => trivial) fun principal hprincipal => ?_
    obtain ⟨hmanager, hactive⟩ := newPrincipal_ok hprincipal
    refine meets_newCredential fun issued hissued => ?_
    obtain ⟨_, hcown, hcexp, hcrev⟩ := Credential.new_ok hissued
    refine recovers_principalsAdd h.writes fun row w hrow h => ?_
    obtain ⟨_, hrmanager, hrsome⟩ := ofPrincipal_ok hrow
    have hractive : row.disabledAt = none := by simpa [hactive] using hrsome
    refine recovers_credentialsAdd h fun crow w hcrow h => ?_
    obtain ⟨_, hown, hexp, hrev⟩ := ofCredential_ok hcrow
    have hexp : crow.expiresAt = none := by simpa [hcexp] using hexp
    have hrev : crow.revokedAt = none := by simpa [hcrev] using hrev
    refine safe_commit (fun _ _ => trivial) fun w hR _ => ⟨?_, meets_ret _ _⟩
    have hid := principalId_ofPrincipal hrow
    exact (credentialAdded_stable _ _ h hR).met hr ⟨hractive, hrmanager.trans hmanager⟩
      (hown.trans (hcown.trans hid.symm)) hrev hexp
  · exact meets_raise _ w

end Bootstrap

/-! ## Runs -/

section Runs

variable (s : Service) (requests : Tid → Request) (tenants : Finset Uuid)

/-- An empty store, and a request for every thread. -/
def start : Config (World Db Lock) (Op Sql) (Op.Res Sql.Res) Error Reply :=
  ⟨World.ofDb (Db.empty tenants), fun i => s.handle (requests i)⟩

abbrev ManagementRun (tr : List (Label (Op Sql) (Op.Res Sql.Res) Error))
    (c : Config (World Db Lock) (Op Sql) (Op.Res Sql.Res) Error Reply) : Prop :=
  Run (managementDatabase requests).exec (start s requests tenants) tr c

variable {s requests tenants}

theorem recovers_bind_ret {i : Tid} {w : World Db Lock} {α β : Type} {p : Program α} (f : α → β)
    (h : Recovers requests i p w) : Recovers requests i (p.bind fun a => .ret (f a)) w := by
  refine Safe.bind (h.mono fun r w _ => ?_)
  cases r with
  | ok a => exact meets_ret _ w
  | error e => trivial

/-- Every command, alone in its thread, meets its specification among any others. -/
theorem handle_recovers (i : Tid) {w : World Db Lock} (h : (w.txn i).writes = []) :
    Recovers requests i (s.handle (requests i)) w := by
  have hadding : Adding i w := by simp [Adding, h]
  unfold Service.handle
  split
  · next hr => exact recovers_bind_ret _ (bootstrap_recovers hr h)
  · next hr => exact recovers_bind_ret _ (createPrincipal_recovers hr hadding)
  · next hr => exact recovers_bind_ret _ (issueCredential_recovers hr hadding)
  · next hr => exact recovers_bind_ret _ (setScopes_recovers hr hadding)
  · next hr => exact recovers_bind_ret _ (revokeCredential_recovers hr h)
  · next hr => exact recovers_bind_ret _ (disablePrincipal_recovers hr h)

variable {tr : List (Label (Op Sql) (Op.Res Sql.Res) Error)}
  {c c' : Config (World Db Lock) (Op Sql) (Op.Res Sql.Res) Error Reply}

theorem run_allSafe (h : ManagementRun s requests tenants tr c) :
    AllSafe (managementDatabase requests).exec (Protected same) Others
      (fun i => CommitsOnly (CommitMet requests i) i) (fun _ _ _ => True) c :=
  Run.allSafe (compatible requests) ⟨protected_ofDb _, fun i => handle_recovers i rfl⟩ h

/-- A step of a run is a commit that meets its request, or leaves the rows as they are. -/
theorem step_spec (h : ManagementRun s requests tenants tr c)
    {l : Label (Op Sql) (Op.Res Sql.Res) Error} (hs : Step (managementDatabase requests).exec c l c') :
    CommitsOnly (CommitMet requests l.tid) l.tid l.event.op l.event.answer c.world c'.world :=
  ((run_allSafe h).step (compatible requests) hs).1

/-- What the commit of thread `i` does to the committed database. -/
theorem commit_spec (h : ManagementRun s requests tenants tr c) {i : Tid}
    (hs : Step (managementDatabase requests).exec c (committed i) c') :
    CommitSpec (requests i) c.world.db c'.world.db := by
  obtain ⟨hmet, hw⟩ := step_spec h hs
  have hdb : c'.world.db = c.world.view i := congrArg World.db hw
  exact hdb ▸ hmet.spec

theorem db_of_step (h : ManagementRun s requests tenants tr c)
    {l : Label (Op Sql) (Op.Res Sql.Res) Error}
    (hs : Step (managementDatabase requests).exec c l c') :
    c'.world.db = c.world.db ∨ CommitSpec (requests l.tid) c.world.db c'.world.db := by
  rcases (step_spec h hs).label_cases with ⟨hl, _, _⟩ | ⟨_, hdb⟩
  · rw [hl] at hs
    exact .inr (commit_spec h hs)
  · exact .inl hdb

/-- After a bootstrap, and with no expiry on any manager's credential, some manager has a
    credential that never expires. -/
theorem run_unexpiring (h : ManagementRun s requests tenants tr c) {i : Tid}
    (hboot : (requests i).command.isBootstrap) (hi : committed i ∈ tr)
    (hno : NoManagerExpiry c.world.db) : UnexpiringManager c.world.db := by
  induction h with
  | nil => cases hi
  | snoc hrun hs ih =>
    rcases List.mem_append.mp hi with hi | hi
    · rcases db_of_step hrun hs with hdb | hspec
      · rw [hdb] at hno ⊢
        exact ih hi hno
      · exact hspec.unexpiring hno (ih hi (hno.of_grows hspec.grows))
    · obtain rfl := List.mem_singleton.mp hi
      exact (commit_spec hrun hs).bootstrapped hboot

/-- In every run from an empty store, each commit of `revoke_credential` and
    `disable_principal` keeps a recoverable manager if there is one at its clock reading,
    and leaves one if its target is an active manager; and if no manager credential
    carries an expiry, there is one in every state after a bootstrap. -/
theorem run_recoverableManager (h : ManagementRun s requests tenants tr c) :
    (∀ i c', Step (managementDatabase requests).exec c (committed i) c' →
      ∀ p, (requests i).command.removes = some p →
        Preserves (requests i).env.now p c.world.db c'.world.db) ∧
    (∀ i, (requests i).command.isBootstrap → committed i ∈ tr → NoManagerExpiry c.world.db →
      ∀ at', RecoverableManager c.world.db at') :=
  ⟨fun _ _ hs p hp => (commit_spec h hs).preserves p hp,
    fun _ hboot hi hno at' => (run_unexpiring h hboot hi hno).recoverable at'⟩

end Runs

/-! ## Two runs -/

instance (db : Db) (at' : Utc) : Decidable (RecoverableManager db at') :=
  decidable_of_iff (db.principals.rows.any (db.recoverableRow at') = true) <| by
    simp [RecoverableManager, recoverableRow_iff, Table.mem_rows]

instance (db : Db) : Decidable (NoManagerExpiry db) :=
  inferInstanceAs (Decidable (∀ p ∈ db.principals.rows, p.canManagePrincipals = true →
    ∀ c ∈ db.credentials.rows, c.principalId = p.principalId → c.expiresAt = none))

def envAt (now : Utc) (principalId credentialId : Uuid) : Env :=
  ⟨now, principalId, credentialId, 99, "secret"⟩

def manager : ManagementActor := ⟨1, true⟩

def performed : Choice := ⟨false, tableOrder⟩

/-- The thread takes `n` steps. -/
def steps (i : Tid) (n : Nat) : List (Tid × Choice) := List.replicate n (i, performed)

/-- Manager 1 is bootstrapped with credential 11, gets credential 12 and loses 11. -/
def rotatingRequests : Tid → Request
  | 0 => ⟨.bootstrap ⟨"token", "M", ∅⟩, envAt 0 1 11⟩
  | 1 => ⟨.issueCredential ⟨manager, 1, none, none⟩, envAt 1 0 12⟩
  | _ => ⟨.revokeCredential ⟨manager, 1, 11⟩, envAt 2 0 0⟩

theorem run_recoverableManager_rotating :
    ∃ tr c c', ManagementRun exampleService rotatingRequests ∅ tr c ∧
      Step (managementDatabase rotatingRequests).exec c (committed 2) c' ∧
      Preserves (rotatingRequests 2).env.now 1 c.world.db c'.world.db ∧
      RecoverableManager c.world.db 5 := by
  obtain ⟨tr, c, hrun, ht⟩ := schedule_any (managementDatabase rotatingRequests).exec
    (start exampleService rotatingRequests ∅) (steps 0 6 ++ steps 1 5 ++ steps 2 7)
    (fun (tr, c) => tr.any (isCommit 0) && atCommit 2 c && decide (NoManagerExpiry c.world.db))
    (by decide +kernel)
  simp only [Bool.and_eq_true, List.any_eq_true, decide_eq_true_eq] at ht
  obtain ⟨⟨⟨l, hl, hcommit⟩, hat⟩, hno⟩ := ht
  obtain ⟨prog, hstep⟩ := commit_step (managementDatabase rotatingRequests) performed rfl hat
  obtain ⟨hpreserves, hrecoverable⟩ := run_recoverableManager hrun
  exact ⟨tr, c, _, hrun, hstep, hpreserves 2 _ hstep 1 rfl,
    hrecoverable 0 rfl (eq_committed hcommit ▸ hl) hno 5⟩

/-- Manager 1 is bootstrapped with credential 11, gets credential 12 that expires at 10, and
    loses 11. Principal 2 is no manager; its credential 13 is revoked at 20. -/
def expiringRequests : Tid → Request
  | 0 => ⟨.bootstrap ⟨"token", "M", ∅⟩, envAt 0 1 11⟩
  | 1 => ⟨.issueCredential ⟨manager, 1, none, some (.aware (10 : Utc))⟩, envAt 1 0 12⟩
  | 2 => ⟨.revokeCredential ⟨manager, 1, 11⟩, envAt 2 0 0⟩
  | 3 => ⟨.createPrincipal ⟨manager, "N", ∅, false⟩, envAt 3 2 0⟩
  | 4 => ⟨.issueCredential ⟨manager, 2, none, none⟩, envAt 4 0 13⟩
  | _ => ⟨.revokeCredential ⟨manager, 2, 13⟩, envAt 20 0 0⟩

/-- The revocation that comes after the last manager credential has expired commits and
    leaves no recoverable manager: its target is not a manager, so nothing is checked. -/
theorem revoke_commits_without_manager :
    ∃ tr c c', ManagementRun exampleService expiringRequests ∅ tr c ∧ committed 0 ∈ tr ∧
      Step (managementDatabase expiringRequests).exec c (committed 5) c' ∧
      ¬RecoverableManager c'.world.db (expiringRequests 5).env.now := by
  obtain ⟨tr, c, hrun, ht⟩ := schedule_any (managementDatabase expiringRequests).exec
    (start exampleService expiringRequests ∅)
    (steps 0 6 ++ steps 1 5 ++ steps 2 9 ++ steps 3 4 ++ steps 4 5 ++ steps 5 5)
    (fun (tr, c) => tr.any (isCommit 0) && atCommit 5 c &&
      !decide (RecoverableManager (c.world.view 5) 20)) (by decide +kernel)
  simp only [Bool.and_eq_true, List.any_eq_true, Bool.not_eq_true', decide_eq_false_iff_not] at ht
  obtain ⟨⟨⟨l, hl, hcommit⟩, hat⟩, hlost⟩ := ht
  obtain ⟨prog, hstep⟩ := commit_step (managementDatabase expiringRequests) performed rfl hat
  exact ⟨tr, c, _, hrun, eq_committed hcommit ▸ hl, hstep, hlost⟩

end Valor.ManagementIdentity
