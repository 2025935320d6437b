/-
  Management identity: the PostgreSQL store.

  Rows carry what the domain constructor checks, since only values that passed it are
  written.

  A row of the scopes table knows the transaction that inserted it: a row that was
  deleted and inserted again is another row. A statement may fail, as the choice says; a
  deadlock or a lost connection is such a failure.
-/
import Valor.Lib.ReadCommitted
import Valor.Lib.Table
import Valor.ManagementIdentity.Domain

namespace Valor.ManagementIdentity

open Python Postgres ManagementAudit Interleave ReadCommitted

inductive Error where
  | bootstrapAuthenticationFailed
  | managementAuthenticationFailed
  | bootstrapAlreadyCompleted
  | invalidManagementIdentityCommand (message : String)
  | lastPrincipalManagerConflict
  | managementCredentialNotFound
  | managementPrincipalNotFound
  | principalManagementDenied
  | valueError (message : String)
  | typeError
  | overflowError
  /-- A SQLAlchemyError. -/
  | database
  deriving DecidableEq

/-! ## Tables -/

structure ManagementPrincipalRow where
  principalId : Uuid
  displayName : String
  canManagePrincipals : Bool
  createdAt : Utc
  disabledAt : Option Utc
  normalized : normalizeDisplayName displayName = .ok displayName

instance : Keyed ManagementPrincipalRow Uuid := ⟨ManagementPrincipalRow.principalId⟩

structure ManagementPrincipalTenantScopeRow where
  principalId : Uuid
  tenantId : Uuid
  /-- The transaction that inserted this version of the row. -/
  xmin : Tid
  deriving DecidableEq

instance : Keyed ManagementPrincipalTenantScopeRow (Uuid × Uuid) :=
  ⟨fun r => (r.principalId, r.tenantId)⟩

abbrev ManagementCredentialRow := CredentialRow

structure ManagementAuthenticationEvidenceRow where
  credentialId : Uuid
  principalId : Uuid
  outcome : ManagementAuthenticationOutcome
  bucketStartedAt : Utc
  firstObservedAt : Utc
  hourly : firstObservedAt.startOfHour = bucketStartedAt
  deriving DecidableEq

instance : Keyed ManagementAuthenticationEvidenceRow
    (Uuid × ManagementAuthenticationOutcome × Utc) :=
  ⟨fun r => (r.credentialId, r.outcome, r.bucketStartedAt)⟩

/-- The tables the service works on; of `tenants` only the ids are read. -/
structure Db where
  principals : Table ManagementPrincipalRow
  scopes : Table ManagementPrincipalTenantScopeRow
  credentials : Table ManagementCredentialRow
  tenants : Finset Uuid
  audits : List Record
  evidence : Table ManagementAuthenticationEvidenceRow

/-- A management store before the bootstrap. -/
def Db.empty (tenants : Finset Uuid) : Db := ⟨.empty, .empty, .empty, tenants, [], .empty⟩

/-! ## Rows and values -/

def ManagementPrincipalRow.ofPrincipal (p : ManagementPrincipal) :
    Except DataError ManagementPrincipalRow := do
  let createdAt ← timestamptz p.createdAt
  let disabledAt ← p.disabledAt.mapM timestamptz
  let _ ← text p.displayName
  return ⟨p.principalId, p.displayName, p.canManagePrincipals, createdAt, disabledAt, p.normalized⟩

def principalFromRow (row : ManagementPrincipalRow) (tenantIds : Finset Uuid) :
    ManagementPrincipal where
  principalId := row.principalId
  displayName := row.displayName
  canManagePrincipals := row.canManagePrincipals
  tenantIds := tenantIds
  createdAt := row.createdAt
  disabledAt := row.disabledAt.map Utc.toAware
  normalized := row.normalized

/-- The bucket of evidence is that of its time in UTC. -/
theorem hourly_timestamptz {e : ManagementAuthenticationEvidence} {u : Utc}
    (h : timestamptz e.firstObservedAt = .ok u) : u.startOfHour = e.bucketStartedAt := by
  have hbucket := e.hourly
  unfold timestamptz at h
  unfold hourlyBucket at hbucket
  split at h
  · next hu =>
    rw [hu] at hbucket
    cases h
    exact Except.ok.inj hbucket
  · cases h

def ManagementAuthenticationEvidenceRow.ofEvidence (e : ManagementAuthenticationEvidence) :
    Except DataError ManagementAuthenticationEvidenceRow :=
  match h : timestamptz e.firstObservedAt with
  | .ok firstObservedAt => .ok {
      credentialId := e.credentialId
      principalId := e.principalId
      outcome := e.outcome
      bucketStartedAt := e.bucketStartedAt
      firstObservedAt
      hourly := hourly_timestamptz h }
  | .error e => .error e

theorem principalId_ofPrincipal {p : ManagementPrincipal} {row : ManagementPrincipalRow}
    (h : ManagementPrincipalRow.ofPrincipal p = .ok row) :
    row.principalId = p.principalId := by
  obtain ⟨createdAt, _, h⟩ := Except.bind_ok_cases h
  obtain ⟨disabledAt, _, h⟩ := Except.bind_ok_cases h
  obtain ⟨_, _, h⟩ := Except.bind_ok_cases h
  cases h
  rfl

/-- Every stored principal loads: its row passes the constructor's checks. -/
theorem principalFromRow_eq (row : ManagementPrincipalRow) (tenantIds : Finset Uuid) :
    ManagementPrincipal.new row.principalId row.displayName row.canManagePrincipals tenantIds
      (.aware row.createdAt) (row.disabledAt.map fun u => .aware u) =
      .ok (principalFromRow row tenantIds) := by
  unfold ManagementPrincipal.new
  split
  · next e h => simp [row.normalized] at h
  · next name h =>
    obtain rfl : row.displayName = name := by simpa [row.normalized] using h
    cases hd : row.disabledAt <;>
      simp [requireAware, principalFromRow, hd, bind, Except.bind, pure, Except.pure, Functor.map,
        Except.map]

/-! ## Queries and changes -/

namespace Db

def scopesOf (db : Db) (principalId : Uuid) : Finset Uuid :=
  ((db.scopes.rows.filter (·.principalId = principalId)).map (·.tenantId)).toFinset

def getPrincipal (db : Db) (principalId : Uuid) : Option ManagementPrincipal :=
  (db.principals.find? principalId).map fun row => principalFromRow row (db.scopesOf principalId)

def getCredential (db : Db) (credentialId : Uuid) : Option ManagementCredential :=
  (db.credentials.find? credentialId).map credentialFromRow

def listForPrincipal (db : Db) (principalId : Uuid) : List ManagementCredential :=
  (db.credentials.rows.filter (·.principalId = principalId)).map credentialFromRow

/-- The EXISTS of `has_recoverable_manager` for one row of management_principals. -/
def recoverableRow (db : Db) (now : Utc) (row : ManagementPrincipalRow) : Bool :=
  row.disabledAt.isNone && row.canManagePrincipals &&
    db.credentials.rows.any fun c =>
      c.principalId = row.principalId && c.revokedAt.isNone &&
        c.expiresAt.all fun e => now.instant < e.instant

/-- `has_recoverable_manager`. With an excluded principal the statement selects from
    management_principals, the EXISTS is correlated to that row, and `session.scalar`
    returns the first row. Without one it has no FROM of its own. -/
def hasRecoverableManager (db : Db) (now : Utc) (order : db.principals.RowOrder) :
    Option Uuid → Bool
  | none => order.rows.any (db.recoverableRow now)
  | some excluded =>
      (order.rows.find? (·.principalId ≠ excluded)).any (db.recoverableRow now)

/-- The scope rows `principal_id = principalId` of a snapshot. -/
def scopeRows (db : Db) (principalId : Uuid) : List ManagementPrincipalTenantScopeRow :=
  db.scopes.rows.filter (·.principalId = principalId)

def insertPrincipal (db : Db) (row : ManagementPrincipalRow) : Db :=
  { db with principals := db.principals.insert row }

/-- Delete the rows of the principal that the snapshot `seen` has. -/
def deleteScopes (db : Db) (principalId : Uuid) (seen : Db) : Db :=
  { db with scopes := db.scopes.delete fun r => r ∈ seen.scopeRows principalId }

def insertScopes (db : Db) (principalId : Uuid) (tenantIds : List Uuid) (xmin : Tid) : Db :=
  { db with
    scopes := tenantIds.foldl (fun t tenantId => t.insert ⟨principalId, tenantId, xmin⟩) db.scopes }

def disablePrincipal (db : Db) (principalId : Uuid) (disabledAt : Option Utc) : Db :=
  { db with
    principals := db.principals.modify principalId (fun r => { r with disabledAt }) fun _ => rfl }

def insertCredential (db : Db) (row : ManagementCredentialRow) : Db :=
  { db with credentials := db.credentials.insert row }

def revokeCredential (db : Db) (credentialId : Uuid) (revokedAt : Option Utc) : Db :=
  { db with
    credentials := db.credentials.modify credentialId (fun r => { r with revokedAt }) fun _ => rfl }

def appendAudit (db : Db) (record : Record) : Db := { db with audits := db.audits ++ [record] }

/-- `DELETE … WHERE bucket_started_at < before`. -/
def deleteEvidence (db : Db) (before : Utc) : Db :=
  { db with evidence := db.evidence.delete fun r => r.bucketStartedAt.instant < before.instant }

/-- `INSERT … ON CONFLICT DO NOTHING`. -/
def insertEvidence (db : Db) (row : ManagementAuthenticationEvidenceRow) : Db :=
  { db with evidence := db.evidence.insert row }

theorem mem_disablePrincipal {db : Db} {k : Uuid} {disabledAt : Option Utc}
    {row : ManagementPrincipalRow} : row ∈ (db.disablePrincipal k disabledAt).principals ↔
      ∃ p ∈ db.principals, row = if p.principalId = k then { p with disabledAt } else p := by
  exact Table.mem_modify (t := db.principals) (f := fun r => { r with disabledAt }) fun _ => rfl

theorem mem_revokeCredential {db : Db} {k : Uuid} {revokedAt : Option Utc}
    {row : ManagementCredentialRow} : row ∈ (db.revokeCredential k revokedAt).credentials ↔
      ∃ c ∈ db.credentials, row = if c.credentialId = k then { c with revokedAt } else c := by
  exact Table.mem_modify (t := db.credentials) (f := fun r => { r with revokedAt }) fun _ => rfl

end Db

/-! ## Statements -/

/-- The statements of the repositories. The DELETE of `replace_scopes` is performed
    after `begin`, which is when it takes its snapshot. -/
inductive Sql where
  | lockManagementState
  | principalsCount
  | principalsAdd (principal : ManagementPrincipal)
  | principalsGet (principalId : Uuid)
  | principalsDisable (principal : ManagementPrincipal)
  | hasRecoverableManager (excludingPrincipalId : Option Uuid)
  | deleteScopes (principalId : Uuid)
  | insertScopes (principal : ManagementPrincipal)
  | credentialsAdd (credential : ManagementCredential)
  | credentialsGet (credentialId : Uuid)
  | listForPrincipal (principalId : Uuid)
  | credentialsRevoke (credential : ManagementCredential)
  | tenantsAllExist (tenantIds : Finset Uuid)
  | auditsAppend (record : Record)
  | deleteEvidence (before : Utc)
  | insertEvidence (evidence : ManagementAuthenticationEvidence)

abbrev Sql.Res : Sql → Type
  | principalsCount => Nat
  | principalsGet _ => Option ManagementPrincipal
  | hasRecoverableManager _ => Bool
  | credentialsGet _ => Option ManagementCredential
  | listForPrincipal _ => List ManagementCredential
  | tenantsAllExist _ => Bool
  | _ => Unit

inductive Lock where
  | managementState
  | principal (principalId : Uuid)
  | scope (principalId tenantId : Uuid)
  | credential (credentialId : Uuid)
  | evidence (credentialId : Uuid) (outcome : ManagementAuthenticationOutcome) (bucketStartedAt : Utc)
  deriving DecidableEq

/-- What the database decides: whether a statement fails, and the order of its rows. -/
structure Choice where
  fails : Bool
  order : (db : Db) → db.principals.RowOrder

def scopeLocks (principalId : Uuid) (tenantIds : Finset Uuid) : List Lock :=
  (tenantIds.sort (· ≤ ·)).map (.scope principalId)

/-- The keys of new scope rows: each tenant exists and no key is taken. -/
def scopesInsertable (db : Db) (principalId : Uuid) (tenantIds : Finset Uuid) : Prop :=
  tenantIds ⊆ db.tenants ∧ ∀ t ∈ tenantIds, db.scopes.find? (principalId, t) = none

instance (db : Db) (principalId : Uuid) (tenantIds : Finset Uuid) :
    Decidable (scopesInsertable db principalId tenantIds) :=
  inferInstanceAs (Decidable (_ ∧ _))

/-- The statement `q` of the transaction of thread `i`; `sqlNow` is its SQL `now()`. -/
def stmt (sqlNow : Utc) (ch : Choice) (i : Tid) : (q : Sql) → Stmt Db Lock Error q.Res
  | .lockManagementState => .change (fun _ _ => [.managementState]) fun _ _ => .ok ((), id)
  | .principalsCount => .query fun db => .ok db.principals.rows.length
  | .principalsAdd p =>
      .change (fun _ _ => .principal p.principalId :: scopeLocks p.principalId p.tenantIds)
        fun _ db => do
          let row ← column .database (ManagementPrincipalRow.ofPrincipal p)
          constraint .database (db.principals.find? p.principalId = none)
          constraint .database (scopesInsertable db p.principalId p.tenantIds)
          return ((), fun db =>
            (db.insertPrincipal row).insertScopes p.principalId (p.tenantIds.sort (· ≤ ·)) i)
  | .principalsGet principalId => .query fun db => .ok (db.getPrincipal principalId)
  | .principalsDisable p =>
      .change (fun _ _ => [.principal p.principalId]) fun _ _ => do
        let disabledAt ← column .database (p.disabledAt.mapM timestamptz)
        return ((), fun db => db.disablePrincipal p.principalId disabledAt)
  | .hasRecoverableManager excluding =>
      .query fun db => .ok (db.hasRecoverableManager sqlNow (ch.order db) excluding)
  -- A row of the snapshot that another transaction has deleted since is skipped.
  | .deleteScopes principalId =>
      .change
        (fun seen db => ((seen.scopeRows principalId).filter (· ∈ db.scopes.rows)).map
          fun r => .scope r.principalId r.tenantId)
        fun seen _ => .ok ((), fun db => db.deleteScopes principalId seen)
  | .insertScopes p =>
      .change (fun _ _ => scopeLocks p.principalId p.tenantIds) fun _ db => do
        constraint .database (scopesInsertable db p.principalId p.tenantIds)
        return ((), fun db => db.insertScopes p.principalId (p.tenantIds.sort (· ≤ ·)) i)
  | .credentialsAdd c =>
      .change (fun _ _ => [.credential c.credentialId]) fun _ db => do
        let row ← column .database (CredentialRow.ofCredential c)
        constraint .database (db.credentials.find? c.credentialId = none)
        constraint .database (db.principals.find? c.principalId ≠ none)
        return ((), fun db => db.insertCredential row)
  | .credentialsGet credentialId => .query fun db => .ok (db.getCredential credentialId)
  | .listForPrincipal principalId => .query fun db => .ok (db.listForPrincipal principalId)
  | .credentialsRevoke c =>
      .change (fun _ _ => [.credential c.credentialId]) fun _ _ => do
        let revokedAt ← column .database (c.revokedAt.mapM timestamptz)
        return ((), fun db => db.revokeCredential c.credentialId revokedAt)
  | .tenantsAllExist tenantIds =>
      .query fun db => .ok ((db.tenants.filter (· ∈ tenantIds)).card = tenantIds.card)
  | .auditsAppend record => .change (fun _ _ => []) fun _ _ =>
      .ok ((), fun db => db.appendAudit record)
  | .deleteEvidence before =>
      .change
        (fun _ db => (db.evidence.rows.filter fun r => r.bucketStartedAt.instant < before.instant).map
          fun r => .evidence r.credentialId r.outcome r.bucketStartedAt)
        fun _ _ => .ok ((), fun db => db.deleteEvidence before)
  -- The foreign keys are those of a row that is inserted.
  | .insertEvidence e =>
      .change (fun _ _ => [.evidence e.credentialId e.outcome e.bucketStartedAt]) fun _ db => do
        let row ← column .database (ManagementAuthenticationEvidenceRow.ofEvidence e)
        constraint .database (db.evidence.find? (Keyed.key row) ≠ none ∨
          db.credentials.find? e.credentialId ≠ none ∧ db.principals.find? e.principalId ≠ none)
        return ((), fun db => db.insertEvidence row)

/-- A statement raises nothing but a SQLAlchemyError. -/
theorem stmt_errors (sqlNow : Utc) (ch : Choice) (i : Tid) (q : Sql) :
    (stmt sqlNow ch i q).Errors (· = .database) := by
  cases q with
  | principalsAdd p =>
    intro seen db e h
    rcases Except.bind_error_cases h with h | ⟨row, _, h⟩
    · exact column_error h
    rcases Except.bind_error_cases h with h | ⟨_, _, h⟩
    · exact constraint_error h
    rcases Except.bind_error_cases h with h | ⟨_, _, h⟩
    · exact constraint_error h
    · cases h
  | principalsDisable p =>
    intro seen db e h
    rcases Except.bind_error_cases h with h | ⟨_, _, h⟩
    · exact column_error h
    · cases h
  | insertScopes p =>
    intro seen db e h
    rcases Except.bind_error_cases h with h | ⟨_, _, h⟩
    · exact constraint_error h
    · cases h
  | credentialsAdd c =>
    intro seen db e h
    rcases Except.bind_error_cases h with h | ⟨row, _, h⟩
    · exact column_error h
    rcases Except.bind_error_cases h with h | ⟨_, _, h⟩
    · exact constraint_error h
    rcases Except.bind_error_cases h with h | ⟨_, _, h⟩
    · exact constraint_error h
    · cases h
  | credentialsRevoke c =>
    intro seen db e h
    rcases Except.bind_error_cases h with h | ⟨_, _, h⟩
    · exact column_error h
    · cases h
  | insertEvidence e =>
    intro seen db e h
    rcases Except.bind_error_cases h with h | ⟨row, _, h⟩
    · exact column_error h
    rcases Except.bind_error_cases h with h | ⟨_, _, h⟩
    · exact constraint_error h
    · cases h
  | _ => first | exact fun _ _ _ h => nomatch h | exact fun _ _ h => nomatch h

/-- The management database; `sqlNow i` is the SQL `now()` of the transaction of thread `i`. -/
def database (sqlNow : Tid → Utc) : Database Db Lock Sql Sql.Res Error Choice where
  stmt ch i q := stmt (sqlNow i) ch i q
  fails ch := ch.fails
  failure := .database

/-- What a lock protects: the row with its key. Scope rows, evidence and the management
    state are left out: of these only what the commands do with them is used. -/
def same : Lock → Db → Db → Prop
  | .managementState, _, _ => True
  | .principal p, db, db' => db'.principals.find? p = db.principals.find? p
  | .scope _ _, _, _ => True
  | .credential c, db, db' => db'.credentials.find? c = db.credentials.find? c
  | .evidence _ _ _, _, _ => True

theorem same_refl (l : Lock) (db : Db) : same l db db := by
  cases l <;> simp [same]

theorem same_trans (l : Lock) (a b c : Db) (h : same l a b) (h' : same l b c) : same l a c := by
  cases l <;> simp_all [same]

section Same

variable {l : Lock} {db : Db}

theorem same_insertPrincipal {row : ManagementPrincipalRow} (h : l ≠ .principal row.principalId) :
    same l db (db.insertPrincipal row) := by
  cases l with
  | principal p => exact Table.find?_insert_of_ne fun (he : row.principalId = p) => h (by rw [he])
  | credential c => rfl
  | managementState => trivial
  | scope p t => trivial
  | evidence c o b => trivial

theorem same_insertScopes (p : Uuid) (tenantIds : List Uuid) (xmin : Tid) :
    same l db (db.insertScopes p tenantIds xmin) := by
  cases l <;> trivial

theorem same_deleteScopes (p : Uuid) (seen : Db) : same l db (db.deleteScopes p seen) := by
  cases l <;> trivial

theorem same_disablePrincipal {p : Uuid} {disabledAt : Option Utc} (h : l ≠ .principal p) :
    same l db (db.disablePrincipal p disabledAt) := by
  cases l with
  | principal q =>
    have hq : q ≠ p := fun he => h (by rw [he])
    exact Table.find?_modify_of_ne (t := db.principals) (f := fun r => { r with disabledAt })
      (fun _ => rfl) hq
  | credential c => rfl
  | managementState => trivial
  | scope p t => trivial
  | evidence c o b => trivial

theorem same_insertCredential {row : ManagementCredentialRow} (h : l ≠ .credential row.credentialId) :
    same l db (db.insertCredential row) := by
  cases l with
  | credential c => exact Table.find?_insert_of_ne fun (he : row.credentialId = c) => h (by rw [he])
  | principal p => rfl
  | managementState => trivial
  | scope p t => trivial
  | evidence c o b => trivial

theorem same_revokeCredential {c : Uuid} {revokedAt : Option Utc} (h : l ≠ .credential c) :
    same l db (db.revokeCredential c revokedAt) := by
  cases l with
  | credential q =>
    have hq : q ≠ c := fun he => h (by rw [he])
    exact Table.find?_modify_of_ne (t := db.credentials) (f := fun r => { r with revokedAt })
      (fun _ => rfl) hq
  | principal p => rfl
  | managementState => trivial
  | scope p t => trivial
  | evidence c o b => trivial

theorem same_appendAudit (record : Record) : same l db (db.appendAudit record) := by
  cases l <;> trivial

theorem same_deleteEvidence (before : Utc) : same l db (db.deleteEvidence before) := by
  cases l <;> trivial

theorem same_insertEvidence (row : ManagementAuthenticationEvidenceRow) :
    same l db (db.insertEvidence row) := by
  cases l <;> trivial

end Same

/-- Every statement changes only rows whose keys it locks. -/
theorem stmt_within (sqlNow : Utc) (ch : Choice) (i : Tid) (q : Sql) :
    (stmt sqlNow ch i q).Within same := by
  cases q with
  | lockManagementState =>
    intro seen db a f h l _ d
    cases h
    exact same_refl _ d
  | principalsAdd p =>
    intro seen db a f h l hl d
    obtain ⟨row, hrow, h⟩ := Except.bind_ok_cases h
    obtain ⟨_, _, h⟩ := Except.bind_ok_cases h
    obtain ⟨_, _, h⟩ := Except.bind_ok_cases h
    cases h
    have hne : l ≠ .principal row.principalId := by
      rw [principalId_ofPrincipal (column_ok hrow)]
      exact fun he => hl (he ▸ List.mem_cons_self ..)
    exact same_trans _ _ _ _ (same_insertPrincipal hne) (same_insertScopes ..)
  | principalsDisable p =>
    intro seen db a f h l hl d
    obtain ⟨disabledAt, _, h⟩ := Except.bind_ok_cases h
    cases h
    exact same_disablePrincipal fun he => hl (he ▸ List.mem_cons_self ..)
  | deleteScopes p =>
    intro seen db a f h l _ d
    cases h
    exact same_deleteScopes ..
  | insertScopes p =>
    intro seen db a f h l _ d
    obtain ⟨_, _, h⟩ := Except.bind_ok_cases h
    cases h
    exact same_insertScopes ..
  | credentialsAdd c =>
    intro seen db a f h l hl d
    obtain ⟨row, hrow, h⟩ := Except.bind_ok_cases h
    obtain ⟨_, _, h⟩ := Except.bind_ok_cases h
    obtain ⟨_, _, h⟩ := Except.bind_ok_cases h
    cases h
    refine same_insertCredential ?_
    rw [(ofCredential_ok (column_ok hrow)).1]
    exact fun he => hl (he ▸ List.mem_cons_self ..)
  | credentialsRevoke c =>
    intro seen db a f h l hl d
    obtain ⟨revokedAt, _, h⟩ := Except.bind_ok_cases h
    cases h
    exact same_revokeCredential fun he => hl (he ▸ List.mem_cons_self ..)
  | auditsAppend record =>
    intro seen db a f h l _ d
    cases h
    exact same_appendAudit record
  | deleteEvidence before =>
    intro seen db a f h l _ d
    cases h
    exact same_deleteEvidence before
  | insertEvidence e =>
    intro seen db a f h l _ d
    obtain ⟨row, _, h⟩ := Except.bind_ok_cases h
    obtain ⟨_, _, h⟩ := Except.bind_ok_cases h
    cases h
    exact same_insertEvidence row
  | _ => trivial

end Valor.ManagementIdentity
