/-
  Runtime identity: the PostgreSQL store.

  Rows carry what the domain constructor checks, since only values that passed it are
  written. An UPDATE with a condition locks its row only if the row meets the condition,
  so it waits for the transaction that has the row and finds its changes. The shared locks
  of foreign keys are left out: they only make some transactions wait for others.
-/
import Valor.Lib.ReadCommitted
import Valor.RuntimeIdentity.Domain

namespace Valor.RuntimeIdentity

open Python Postgres ManagementAudit Interleave ReadCommitted

inductive Error where
  | invalidRuntimeIdentityCommand (message : String)
  | runtimeBindingNotFound
  | runtimeCredentialNotFound
  | runtimeIdentityContinuityConflict
  | runtimePrincipalManagementDenied
  | runtimePrincipalNotFound
  | runtimeUsageLimitsAlreadyInitialized
  | valueError (message : String)
  | overflowError
  /-- A SQLAlchemyError. -/
  | database
  deriving DecidableEq

/-! ## Tables -/

structure RuntimePrincipalRow where
  principalId : Uuid
  tenantId : Uuid
  agentId : Uuid
  createdAt : Utc
  disabledAt : Option Utc
  dailyUsageLimitUnits : Option Int
  perInvocationAllowanceUnits : Option Int
  legacyRuntimePrincipalId : Option String
  identityContinuityBoundAt : Option Utc
  limits_together : limitsTogether dailyUsageLimitUnits perInvocationAllowanceUnits
  limits_positive : limitsPositive dailyUsageLimitUnits perInvocationAllowanceUnits
  legacy_stripped : legacyRuntimePrincipalId.map strip = legacyRuntimePrincipalId
  legacy_fits : legacyFits legacyRuntimePrincipalId
  continuity_together : legacyRuntimePrincipalId.isSome = identityContinuityBoundAt.isSome

instance : Keyed RuntimePrincipalRow Uuid := ⟨RuntimePrincipalRow.principalId⟩

abbrev RuntimeCredentialRow := CredentialRow

/-- The columns of `invocations` that this service reads. -/
structure InvocationRow where
  runtimePrincipalId : String
  tenantId : Uuid
  agentId : Uuid
  startedAt : Utc
  totalUnits : Option Int

/-- The tables the service works on; of `agents` only the tenant and the id are read. -/
structure Db where
  principals : Table RuntimePrincipalRow
  credentials : Table RuntimeCredentialRow
  agents : Finset (Uuid × Uuid)
  invocations : List InvocationRow
  audits : List Record

/-- The store before the first principal. -/
def Db.start (agents : Finset (Uuid × Uuid)) (invocations : List InvocationRow) : Db :=
  ⟨.empty, .empty, agents, invocations, []⟩

/-! ## Rows and values -/

def RuntimePrincipalRow.ofPrincipal (p : RuntimePrincipal) : Except DataError RuntimePrincipalRow :=
  match timestamptz p.createdAt, p.disabledAt.mapM timestamptz,
      p.dailyUsageLimitUnits.mapM integer, p.perInvocationAllowanceUnits.mapM integer,
      p.legacyRuntimePrincipalId.mapM text, hb : p.identityContinuityBoundAt.mapM timestamptz with
  | .ok createdAt, .ok disabledAt, .ok _, .ok _, .ok _, .ok boundAt =>
      .ok {
        createdAt, disabledAt
        principalId := p.principalId
        tenantId := p.tenantId
        agentId := p.agentId
        dailyUsageLimitUnits := p.dailyUsageLimitUnits
        perInvocationAllowanceUnits := p.perInvocationAllowanceUnits
        legacyRuntimePrincipalId := p.legacyRuntimePrincipalId
        identityContinuityBoundAt := boundAt
        limits_together := p.limits_together
        limits_positive := p.limits_positive
        legacy_stripped := p.legacy_stripped
        legacy_fits := p.legacy_fits
        continuity_together := by rw [Except.isSome_mapM hb, p.continuity_together] }
  | _, _, _, _, _, _ => .error ⟨⟩

/-- `_to_domain`. -/
def principalFromRow (row : RuntimePrincipalRow) : RuntimePrincipal where
  principalId := row.principalId
  tenantId := row.tenantId
  agentId := row.agentId
  createdAt := row.createdAt
  disabledAt := row.disabledAt.map Utc.toAware
  dailyUsageLimitUnits := row.dailyUsageLimitUnits
  perInvocationAllowanceUnits := row.perInvocationAllowanceUnits
  legacyRuntimePrincipalId := row.legacyRuntimePrincipalId
  identityContinuityBoundAt := row.identityContinuityBoundAt.map Utc.toAware
  limits_together := row.limits_together
  limits_positive := row.limits_positive
  legacy_stripped := row.legacy_stripped
  legacy_fits := row.legacy_fits
  continuity_together := by simpa using row.continuity_together

theorem ofPrincipal_ok {p : RuntimePrincipal} {row : RuntimePrincipalRow}
    (h : RuntimePrincipalRow.ofPrincipal p = .ok row) :
    row.principalId = p.principalId ∧
      row.legacyRuntimePrincipalId = p.legacyRuntimePrincipalId := by
  unfold RuntimePrincipalRow.ofPrincipal at h
  split at h
  · cases h
    exact ⟨rfl, rfl⟩
  · cases h

/-- Every stored principal loads: its row passes the constructor's checks. -/
theorem principalFromRow_eq (row : RuntimePrincipalRow) :
    RuntimePrincipal.new row.principalId row.tenantId row.agentId (.aware row.createdAt)
      (row.disabledAt.map fun u => .aware u) row.dailyUsageLimitUnits
      row.perInvocationAllowanceUnits row.legacyRuntimePrincipalId
      (row.identityContinuityBoundAt.map fun u => .aware u) = .ok (principalFromRow row) := by
  have ht := row.limits_together
  have hp := row.limits_positive
  have hs := row.legacy_stripped
  have hl := row.legacy_fits
  have hc := row.continuity_together
  cases hd : row.disabledAt <;> cases hb : row.identityContinuityBoundAt <;>
    simp_all [RuntimePrincipal.new, requireAware, principalFromRow, bind, Except.bind, pure,
      Except.pure, Functor.map, Except.map]

/-! ## Queries and changes -/

structure RuntimeInvocationContinuityFacts where
  historicalInvocationCount : Nat
  sameDayAttributedUsageUnits : Int
  legacyBindingMismatch : Bool
  canonicalBindingMismatch : Bool

/-- `identity_continuity_bound_at` and the legacy identity are both NULL. -/
def RuntimePrincipalRow.unbound (row : RuntimePrincipalRow) : Bool :=
  row.legacyRuntimePrincipalId.isNone && row.identityContinuityBoundAt.isNone

/-- Both limits are NULL. -/
def RuntimePrincipalRow.unlimited (row : RuntimePrincipalRow) : Bool :=
  row.dailyUsageLimitUnits.isNone && row.perInvocationAllowanceUnits.isNone

/-- The values of `bind_identity_continuity`. -/
def RuntimePrincipalRow.setContinuity (row values : RuntimePrincipalRow) : RuntimePrincipalRow :=
  { row with
    legacyRuntimePrincipalId := values.legacyRuntimePrincipalId
    identityContinuityBoundAt := values.identityContinuityBoundAt
    legacy_stripped := values.legacy_stripped
    legacy_fits := values.legacy_fits
    continuity_together := values.continuity_together }

/-- The values of `initialize_usage_limits`. -/
def RuntimePrincipalRow.setLimits (row values : RuntimePrincipalRow) : RuntimePrincipalRow :=
  { row with
    dailyUsageLimitUnits := values.dailyUsageLimitUnits
    perInvocationAllowanceUnits := values.perInvocationAllowanceUnits
    limits_together := values.limits_together
    limits_positive := values.limits_positive }

namespace Db

def getPrincipal (db : Db) (principalId : Uuid) : Option RuntimePrincipal :=
  (db.principals.find? principalId).map principalFromRow

def getCredential (db : Db) (credentialId : Uuid) : Option RuntimeCredential :=
  (db.credentials.find? credentialId).map credentialFromRow

/-- `legacy_identity_is_claimed`. -/
def claimed (db : Db) (legacyId : String) : Bool :=
  db.principals.rows.any fun r => r.legacyRuntimePrincipalId = some legacyId

/-- `has_potentially_usable`. -/
def hasPotentiallyUsable (db : Db) (principalId : Uuid) (now : Utc) : Bool :=
  db.credentials.rows.any fun c =>
    c.principalId = principalId && c.revokedAt.isNone && c.expiresAt.all fun e => now.instant < e.instant

/-- `inspect`. -/
def inspectInvocations (db : Db) (legacyId canonicalId : String) (tenantId agentId : Uuid)
    (dayStart dayEnd : Utc) : RuntimeInvocationContinuityFacts :=
  let legacy (r : InvocationRow) : Bool := r.runtimePrincipalId = legacyId
  let canonical (r : InvocationRow) : Bool := r.runtimePrincipalId = canonicalId
  let mismatch (r : InvocationRow) : Bool := r.tenantId ≠ tenantId || r.agentId ≠ agentId
  let rows := db.invocations.filter fun r => legacy r || canonical r
  { historicalInvocationCount := rows.countP legacy
    sameDayAttributedUsageUnits := (rows.map fun r =>
      if legacy r && dayStart.instant ≤ r.startedAt.instant && r.startedAt.instant < dayEnd.instant
      then r.totalUnits.getD 0 else 0).sum
    legacyBindingMismatch := rows.any fun r => legacy r && mismatch r
    canonicalBindingMismatch := rows.any fun r => canonical r && mismatch r }

/-- The WHERE of `consumed_total_units`. -/
def consumedRows (db : Db) (identityIds : Finset String) (dayStart dayEnd : Utc) :
    List InvocationRow :=
  db.invocations.filter fun r =>
    r.runtimePrincipalId ∈ identityIds && dayStart.instant ≤ r.startedAt.instant &&
      r.startedAt.instant < dayEnd.instant && r.totalUnits.isSome

def consumedTotalUnits (db : Db) (identityIds : Finset String) (dayStart dayEnd : Utc) : Int :=
  ((db.consumedRows identityIds dayStart dayEnd).map fun r => r.totalUnits.getD 0).sum

def insertPrincipal (db : Db) (row : RuntimePrincipalRow) : Db :=
  { db with principals := db.principals.insert row }

def disablePrincipal (db : Db) (principalId : Uuid) (disabledAt : Option Utc) : Db :=
  { db with
    principals := db.principals.modify principalId (fun r => { r with disabledAt }) fun _ => rfl }

def initializeUsageLimits (db : Db) (values : RuntimePrincipalRow) : Db :=
  { db with
    principals := db.principals.modify values.principalId
      (fun r => if r.unlimited then r.setLimits values else r) fun r => by
        split <;> rfl }

def bindIdentityContinuity (db : Db) (values : RuntimePrincipalRow) : Db :=
  { db with
    principals := db.principals.modify values.principalId
      (fun r => if r.unbound then r.setContinuity values else r) fun r => by
        split <;> rfl }

def insertCredential (db : Db) (row : RuntimeCredentialRow) : Db :=
  { db with credentials := db.credentials.insert row }

def revokeCredential (db : Db) (credentialId : Uuid) (revokedAt : Option Utc) : Db :=
  { db with
    credentials := db.credentials.modify credentialId (fun r => { r with revokedAt }) fun _ => rfl }

def appendAudit (db : Db) (record : Record) : Db := { db with audits := db.audits ++ [record] }

end Db

/-! ## Statements -/

inductive Sql where
  | bindingsExists (tenantId agentId : Uuid)
  | principalsAdd (principal : RuntimePrincipal)
  | principalsGet (principalId : Uuid)
  | principalsGetForUpdate (principalId : Uuid)
  | principalsDisable (principal : RuntimePrincipal)
  | initializeUsageLimits (principal : RuntimePrincipal)
  | lockLegacyIdentity (legacyId : String)
  | legacyIdentityIsClaimed (legacyId : String)
  | bindIdentityContinuity (principal : RuntimePrincipal)
  | credentialsAdd (credential : RuntimeCredential)
  | credentialsGet (credentialId : Uuid)
  | credentialsRevoke (credential : RuntimeCredential)
  | hasPotentiallyUsable (principalId : Uuid) (now : Utc)
  | inspectInvocations (legacyId canonicalId : String) (tenantId agentId : Uuid)
      (dayStart dayEnd : Utc)
  | consumedTotalUnits (identityIds : Finset String) (dayStart dayEnd : Utc)
  | auditsAppend (record : Record)

abbrev Sql.Res : Sql → Type
  | bindingsExists _ _ => Bool
  | principalsGet _ => Option RuntimePrincipal
  | principalsGetForUpdate _ => Option RuntimePrincipal
  | initializeUsageLimits _ => Bool
  | legacyIdentityIsClaimed _ => Bool
  | bindIdentityContinuity _ => Bool
  | credentialsGet _ => Option RuntimeCredential
  | hasPotentiallyUsable _ _ => Bool
  | inspectInvocations .. => RuntimeInvocationContinuityFacts
  | consumedTotalUnits .. => Int
  | _ => Unit

inductive Lock where
  | principal (principalId : Uuid)
  | credential (credentialId : Uuid)
  /-- The advisory lock on the hash of a text. Equal hashes of different texts are left
      out: they only make more transactions wait. -/
  | legacyIdentity (legacyId : String)
  /-- A key of the unique index on `legacy_runtime_principal_id`. -/
  | legacyKey (legacyId : String)
  deriving DecidableEq

/-- What the database decides: whether a statement fails. -/
structure Choice where
  fails : Bool

def legacyKeys (legacyId : Option String) : List Lock := legacyId.toList.map .legacyKey

/-- The row that a conditional UPDATE finds. -/
def Db.matches (db : Db) (principalId : Uuid) (condition : RuntimePrincipalRow → Bool) : Bool :=
  (db.principals.find? principalId).any condition

def stmt : (q : Sql) → Stmt Db Lock Error q.Res
  | .bindingsExists tenantId agentId => .query fun db => .ok ((tenantId, agentId) ∈ db.agents)
  -- Tenant and agent exist: the binding was found before, and neither is ever deleted.
  | .principalsAdd p =>
      .change (fun _ _ => .principal p.principalId :: legacyKeys p.legacyRuntimePrincipalId)
        fun _ db => do
          let row ← column .database (RuntimePrincipalRow.ofPrincipal p)
          constraint .database (db.principals.find? p.principalId = none)
          constraint .database (p.legacyRuntimePrincipalId.any db.claimed = false)
          return ((), fun db => db.insertPrincipal row)
  | .principalsGet principalId => .query fun db => .ok (db.getPrincipal principalId)
  | .principalsGetForUpdate principalId =>
      .change (fun _ db => if db.matches principalId fun _ => true then [.principal principalId] else [])
        fun _ db => .ok (db.getPrincipal principalId, id)
  | .principalsDisable p =>
      .change (fun _ _ => [.principal p.principalId]) fun _ _ => do
        let disabledAt ← column .database (p.disabledAt.mapM timestamptz)
        return ((), fun db => db.disablePrincipal p.principalId disabledAt)
  | .initializeUsageLimits p =>
      .change (fun _ db => if db.matches p.principalId (·.unlimited) then [.principal p.principalId]
          else [])
        fun _ db => do
          let row ← column .database (RuntimePrincipalRow.ofPrincipal p)
          if db.matches p.principalId (·.unlimited) then
            return (true, fun db => db.initializeUsageLimits row)
          else return (false, id)
  | .lockLegacyIdentity legacyId =>
      .change (fun _ _ => [.legacyIdentity legacyId]) fun _ _ => do
        let _ ← column .database (text legacyId)
        return ((), id)
  | .legacyIdentityIsClaimed legacyId => .query fun db => do
      let legacyId ← column .database (text legacyId)
      return db.claimed legacyId
  | .bindIdentityContinuity p =>
      .change (fun _ db => if db.matches p.principalId (·.unbound) then
          .principal p.principalId :: legacyKeys p.legacyRuntimePrincipalId else [])
        fun _ db => do
          let row ← column .database (RuntimePrincipalRow.ofPrincipal p)
          if db.matches p.principalId (·.unbound) then
            constraint .database (p.legacyRuntimePrincipalId.any db.claimed = false)
            return (true, fun db => db.bindIdentityContinuity row)
          else return (false, id)
  | .credentialsAdd c =>
      .change (fun _ _ => [.credential c.credentialId]) fun _ db => do
        let row ← column .database (CredentialRow.ofCredential c)
        constraint .database (db.credentials.find? c.credentialId = none)
        constraint .database (db.principals.find? c.principalId ≠ none)
        return ((), fun db => db.insertCredential row)
  | .credentialsGet credentialId => .query fun db => .ok (db.getCredential credentialId)
  | .credentialsRevoke c =>
      .change (fun _ _ => [.credential c.credentialId]) fun _ _ => do
        let revokedAt ← column .database (c.revokedAt.mapM timestamptz)
        return ((), fun db => db.revokeCredential c.credentialId revokedAt)
  | .hasPotentiallyUsable principalId now => .query fun db =>
      .ok (db.hasPotentiallyUsable principalId now)
  | .inspectInvocations legacyId canonicalId tenantId agentId dayStart dayEnd => .query fun db => do
      let legacyId ← column .database (text legacyId)
      let canonicalId ← column .database (text canonicalId)
      return db.inspectInvocations legacyId canonicalId tenantId agentId dayStart dayEnd
  | .consumedTotalUnits identityIds dayStart dayEnd => .query fun db =>
      .ok (db.consumedTotalUnits identityIds dayStart dayEnd)
  | .auditsAppend record => .change (fun _ _ => []) fun _ _ =>
      .ok ((), fun db => db.appendAudit record)

/-- The canonical id of a principal is a text that the driver takes. -/
theorem stmt_inspectInvocations (legacyId : String) (principalId tenantId agentId : Uuid)
    (dayStart dayEnd : Utc) :
    stmt (.inspectInvocations legacyId principalId.str tenantId agentId dayStart dayEnd) =
      .query fun db => do
        let legacyId ← column .database (text legacyId)
        return db.inspectInvocations legacyId principalId.str tenantId agentId dayStart dayEnd := by
  have hcanonical : text principalId.str = .ok principalId.str := text_of (Uuid.hasNul_str principalId)
  simp only [stmt, hcanonical]
  rfl

def database : Database Db Lock Sql Sql.Res Error Choice where
  stmt _ _ q := stmt q
  fails ch := ch.fails
  failure := .database

/-! ## What the locks protect -/

/-- The row with the key, or whether a row has the legacy identity. -/
def same : Lock → Db → Db → Prop
  | .principal p, db, db' => db'.principals.find? p = db.principals.find? p
  | .credential c, db, db' => db'.credentials.find? c = db.credentials.find? c
  | .legacyIdentity _, _, _ => True
  | .legacyKey l, db, db' => db'.claimed l = db.claimed l

theorem same_refl (l : Lock) (db : Db) : same l db db := by
  cases l <;> simp [same]

theorem same_trans (l : Lock) (a b c : Db) (h : same l a b) (h' : same l b c) : same l a c := by
  cases l <;> simp_all [same]

section Same

variable {l : Lock} {db : Db}

theorem mem_legacyKeys {legacyId : Option String} :
    l ∈ legacyKeys legacyId ↔ ∃ s, legacyId = some s ∧ l = .legacyKey s := by
  cases legacyId <;> simp [legacyKeys]

theorem claimed_iff {legacyId : String} :
    db.claimed legacyId = true ↔ ∃ r ∈ db.principals, r.legacyRuntimePrincipalId = some legacyId := by
  simp [Db.claimed, Table.mem_rows]

/-- A change of one row that leaves its legacy identity claims what was claimed. -/
theorem claimed_modify {k : Uuid} {f : RuntimePrincipalRow → RuntimePrincipalRow}
    {hf : ∀ r, Keyed.key (f r) = Keyed.key r} {legacyId : String}
    (h : ∀ r : RuntimePrincipalRow, (f r).legacyRuntimePrincipalId = some legacyId ↔
      r.legacyRuntimePrincipalId = some legacyId) :
    ({ db with principals := db.principals.modify k f hf } : Db).claimed legacyId =
      db.claimed legacyId := by
  rw [Bool.eq_iff_iff, claimed_iff, claimed_iff]
  constructor
  · rintro ⟨r, hr, hl⟩
    obtain ⟨q, hq, rfl⟩ := (Table.mem_modify hf).mp hr
    refine ⟨q, hq, ?_⟩
    split at hl
    · exact (h q).mp hl
    · exact hl
  · rintro ⟨q, hq, hl⟩
    refine ⟨_, (Table.mem_modify hf).mpr ⟨q, hq, rfl⟩, ?_⟩
    split
    · exact (h q).mpr hl
    · exact hl

theorem same_modifyPrincipal {k : Uuid} {f : RuntimePrincipalRow → RuntimePrincipalRow}
    {hf : ∀ r, Keyed.key (f r) = Keyed.key r} (hl : l ≠ .principal k)
    (hlegacy : ∀ s, l = .legacyKey s → ∀ r : RuntimePrincipalRow,
      (f r).legacyRuntimePrincipalId = some s ↔ r.legacyRuntimePrincipalId = some s) :
    same l db { db with principals := db.principals.modify k f hf } := by
  cases l with
  | principal q =>
    have hq : q ≠ k := fun he => hl (by rw [he])
    exact Table.find?_modify_of_ne hf hq
  | credential c => rfl
  | legacyIdentity s => trivial
  | legacyKey s => exact claimed_modify (hlegacy s rfl)

theorem same_insertPrincipal {row : RuntimePrincipalRow} (h : l ≠ .principal row.principalId)
    (hlegacy : l ∉ legacyKeys row.legacyRuntimePrincipalId) : same l db (db.insertPrincipal row) := by
  cases l with
  | principal p => exact Table.find?_insert_of_ne fun (he : row.principalId = p) => h (by rw [he])
  | credential c => rfl
  | legacyIdentity s => trivial
  | legacyKey s =>
    have hs : row.legacyRuntimePrincipalId ≠ some s := fun he => hlegacy (mem_legacyKeys.mpr ⟨s, he, rfl⟩)
    have hiff : (db.insertPrincipal row).claimed s = true ↔ db.claimed s = true := by
      rw [claimed_iff, claimed_iff]
      constructor
      · rintro ⟨r, hr, hl⟩
        rcases Table.mem_insert.mp hr with hr | ⟨rfl, _⟩
        · exact ⟨r, hr, hl⟩
        · exact absurd hl hs
      · rintro ⟨r, hr, hl⟩
        exact ⟨r, Table.mem_insert_of_mem hr, hl⟩
    exact Bool.eq_iff_iff.mpr hiff

theorem same_disablePrincipal {p : Uuid} {disabledAt : Option Utc} (h : l ≠ .principal p) :
    same l db (db.disablePrincipal p disabledAt) :=
  same_modifyPrincipal h fun _ _ _ => Iff.rfl

theorem same_initializeUsageLimits {row : RuntimePrincipalRow} (h : l ≠ .principal row.principalId) :
    same l db (db.initializeUsageLimits row) :=
  same_modifyPrincipal h fun _ _ r => by
    split <;> rfl

theorem same_bindIdentityContinuity {row : RuntimePrincipalRow}
    (h : l ∉ Lock.principal row.principalId :: legacyKeys row.legacyRuntimePrincipalId) :
    same l db (db.bindIdentityContinuity row) := by
  obtain ⟨hp, hkeys⟩ : l ≠ .principal row.principalId ∧
      l ∉ legacyKeys row.legacyRuntimePrincipalId := by simpa using h
  refine same_modifyPrincipal hp fun s hs r => ?_
  have hne : row.legacyRuntimePrincipalId ≠ some s := fun he => hkeys (mem_legacyKeys.mpr ⟨s, he, hs⟩)
  split
  · next hu =>
    -- An unbound row has no legacy identity before, and another one after.
    have hnone : r.legacyRuntimePrincipalId = none := by
      simp only [RuntimePrincipalRow.unbound, Bool.and_eq_true, Option.isNone_iff_eq_none] at hu
      exact hu.1
    simp [RuntimePrincipalRow.setContinuity, hne, hnone]
  · rfl

theorem same_insertCredential {row : RuntimeCredentialRow} (h : l ≠ .credential row.credentialId) :
    same l db (db.insertCredential row) := by
  cases l with
  | credential c => exact Table.find?_insert_of_ne fun (he : row.credentialId = c) => h (by rw [he])
  | principal p => rfl
  | legacyIdentity s => trivial
  | legacyKey s => rfl

theorem same_revokeCredential {c : Uuid} {revokedAt : Option Utc} (h : l ≠ .credential c) :
    same l db (db.revokeCredential c revokedAt) := by
  cases l with
  | credential q =>
    have hq : q ≠ c := fun he => h (by rw [he])
    exact Table.find?_modify_of_ne (t := db.credentials) (f := fun r => { r with revokedAt })
      (fun _ => rfl) hq
  | principal p => rfl
  | legacyIdentity s => trivial
  | legacyKey s => rfl

theorem same_appendAudit (record : Record) : same l db (db.appendAudit record) := by
  cases l <;> first | rfl | trivial

end Same

/-- Every statement changes only rows whose keys it locks. -/
theorem stmt_within (q : Sql) : (stmt q).Within same := by
  cases q with
  | principalsAdd p =>
    intro seen db a f h l hl d
    obtain ⟨row, hrow, h⟩ := Except.bind_ok_cases h
    obtain ⟨_, _, h⟩ := Except.bind_ok_cases h
    obtain ⟨_, _, h⟩ := Except.bind_ok_cases h
    cases h
    obtain ⟨hid, hlegacy⟩ := ofPrincipal_ok (column_ok hrow)
    rw [← hid, ← hlegacy] at hl
    exact same_insertPrincipal (fun he => hl (he ▸ List.mem_cons_self ..))
      fun hm => hl (List.mem_cons_of_mem _ hm)
  | principalsGetForUpdate p =>
    intro seen db a f h l _ d
    cases h
    exact same_refl _ d
  | principalsDisable p =>
    intro seen db a f h l hl d
    obtain ⟨disabledAt, _, h⟩ := Except.bind_ok_cases h
    cases h
    exact same_disablePrincipal fun he => hl (he ▸ List.mem_cons_self ..)
  | initializeUsageLimits p =>
    intro seen db a f h l hl d
    obtain ⟨row, hrow, h⟩ := Except.bind_ok_cases h
    obtain ⟨hid, _⟩ := ofPrincipal_ok (column_ok hrow)
    by_cases hm : db.matches p.principalId (·.unlimited) = true
    · rw [if_pos hm] at h
      simp only [if_pos hm] at hl
      cases h
      exact same_initializeUsageLimits fun he => hl (by rw [he, hid]; exact List.mem_cons_self ..)
    · rw [if_neg hm] at h
      cases h
      exact same_refl _ d
  | lockLegacyIdentity s =>
    intro seen db a f h l _ d
    obtain ⟨_, _, h⟩ := Except.bind_ok_cases h
    cases h
    exact same_refl _ d
  | bindIdentityContinuity p =>
    intro seen db a f h l hl d
    obtain ⟨row, hrow, h⟩ := Except.bind_ok_cases h
    obtain ⟨hid, hlegacy⟩ := ofPrincipal_ok (column_ok hrow)
    by_cases hm : db.matches p.principalId (·.unbound) = true
    · rw [if_pos hm] at h
      simp only [if_pos hm] at hl
      obtain ⟨_, _, h⟩ := Except.bind_ok_cases h
      cases h
      exact same_bindIdentityContinuity (by rwa [hid, hlegacy])
    · rw [if_neg hm] at h
      cases h
      exact same_refl _ d
  | credentialsAdd c =>
    intro seen db a f h l hl d
    obtain ⟨row, hrow, h⟩ := Except.bind_ok_cases h
    obtain ⟨_, _, h⟩ := Except.bind_ok_cases h
    obtain ⟨_, _, h⟩ := Except.bind_ok_cases h
    cases h
    have hid := (ofCredential_ok (column_ok hrow)).1
    exact same_insertCredential fun he => hl (by rw [he, hid]; exact List.mem_cons_self ..)
  | credentialsRevoke c =>
    intro seen db a f h l hl d
    obtain ⟨revokedAt, _, h⟩ := Except.bind_ok_cases h
    cases h
    exact same_revokeCredential fun he => hl (he ▸ List.mem_cons_self ..)
  | auditsAppend record =>
    intro seen db a f h l _ d
    cases h
    exact same_appendAudit record
  | _ => trivial

end Valor.RuntimeIdentity
