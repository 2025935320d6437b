/-
  The control plane: the PostgreSQL store of tenants, assets, permissions and invocations.

  A statement of an INSERT locks the unique keys of its row, as the indexes do: another
  transaction that needs one of them waits for the first to end. The upsert of a permission
  locks the key of its subject whether it inserts or updates. The shared locks of foreign
  keys are left out: they only make some transactions wait for others.

  Two operations are not of the database: reading the clock, and the call of the provider.
  What they answer is part of the choice.
-/
import Valor.AssetRegistry
import Valor.Errors
import Valor.Lib.Transaction
import Valor.ManagementAudit
import Valor.PolicyRisk
import Valor.RuntimeGateway.CreateInvocation
import Valor.RuntimeGateway.Readers

namespace Valor.ControlPlane

open Python Postgres ManagementAudit IdentityTenancy AssetRegistry PolicyRisk RuntimeGateway
  Interleave ReadCommitted

/-! ## Tables -/

structure TenantRow where
  id : Uuid
  name : String
  normalizedName : String
  createdAt : Utc
  deriving DecidableEq

instance : Keyed TenantRow Uuid := ⟨TenantRow.id⟩

structure AgentRow where
  id : Uuid
  tenantId : Uuid
  name : String
  normalizedName : String
  createdAt : Utc
  deriving DecidableEq

instance : Keyed AgentRow Uuid := ⟨AgentRow.id⟩

structure ModelRow where
  id : Uuid
  tenantId : Uuid
  name : String
  normalizedName : String
  provider : String
  providerModelReference : String
  createdAt : Utc
  deriving DecidableEq

instance : Keyed ModelRow Uuid := ⟨ModelRow.id⟩

/-- A row of `agent_model_permissions`, with its unique key. -/
structure PermissionRow where
  id : Uuid
  subject : Subject
  effect : PolicyEffect
  createdAt : Utc
  updatedAt : Utc
  deriving DecidableEq

instance : Keyed PermissionRow Subject := ⟨PermissionRow.subject⟩

structure DecisionRow where
  id : Uuid
  invocationId : Uuid
  subject : Subject
  permissionId : Option Uuid
  effect : PolicyEffect
  decidedAt : Utc
  deriving DecidableEq

instance : Keyed DecisionRow Uuid := ⟨DecisionRow.id⟩

structure Db where
  tenants : Table TenantRow
  agents : Table AgentRow
  models : Table ModelRow
  permissions : Table PermissionRow
  decisions : Table DecisionRow
  invocations : Table InvocationRow
  audits : List Record

def Db.empty : Db := ⟨.empty, .empty, .empty, .empty, .empty, .empty, []⟩

/-! ## Rows and values -/

def TenantRow.ofTenant (t : Tenant) : Except DataError TenantRow := do
  let name ← varchar 100 t.name.value
  let normalizedName ← varchar 200 t.name.normalized
  let createdAt ← timestamptz t.createdAt
  return ⟨t.id, name, normalizedName, createdAt⟩

def AgentRow.ofAgent (a : Agent) : Except DataError AgentRow := do
  let name ← varchar 100 a.name.value
  let normalizedName ← varchar 200 a.name.normalized
  let createdAt ← timestamptz a.createdAt
  return ⟨a.id, a.tenantId, name, normalizedName, createdAt⟩

def ModelRow.ofModel (m : Model) : Except DataError ModelRow := do
  let name ← varchar 100 m.name.value
  let normalizedName ← varchar 200 m.name.normalized
  let provider ← varchar 50 m.provider.value
  let providerModelReference ← varchar 255 m.providerModelReference.value
  let createdAt ← timestamptz m.createdAt
  return ⟨m.id, m.tenantId, name, normalizedName, provider, providerModelReference, createdAt⟩

def PermissionRow.ofPermission (p : AgentModelPermission) : Except DataError PermissionRow := do
  let createdAt ← timestamptz p.createdAt
  let updatedAt ← timestamptz p.updatedAt
  return ⟨p.id, p.subject, p.effect, createdAt, updatedAt⟩

def permissionFromRow (row : PermissionRow) : Except ValueError AgentModelPermission :=
  AgentModelPermission.new row.id row.subject.tenantId row.subject.agentId row.subject.modelId
    row.effect (.aware row.createdAt) (.aware row.updatedAt)

def DecisionRow.ofDecision (d : PolicyDecision) : Except DataError DecisionRow := do
  let decidedAt ← timestamptz d.decidedAt
  return ⟨d.id, d.invocationId, d.subject, d.permissionId, d.effect, decidedAt⟩

/-! ## Queries and changes -/

/-- The SET of the upsert. -/
def PermissionRow.set (row values : PermissionRow) : PermissionRow :=
  { row with
    effect := values.effect
    updatedAt := values.updatedAt }

namespace Db

def getAgent (db : Db) (agentId : Uuid) : Option AgentRuntimeIdentity :=
  (db.agents.find? agentId).map fun row => ⟨row.id, row.tenantId⟩

def getModel (db : Db) (modelId : Uuid) : Option ModelRuntimeReference :=
  (db.models.find? modelId).map fun row =>
    ⟨row.id, row.tenantId, row.provider, row.providerModelReference⟩

def getEffective (db : Db) (subject : Subject) : Except Error (Option AgentModelPermission) :=
  match db.permissions.find? subject with
  | none => .ok none
  | some row => ((permissionFromRow row).mapError fun e => .valueError e.message).map some

def insertTenant (db : Db) (row : TenantRow) : Db := { db with tenants := db.tenants.insert row }

def insertAgent (db : Db) (row : AgentRow) : Db := { db with agents := db.agents.insert row }

def insertModel (db : Db) (row : ModelRow) : Db := { db with models := db.models.insert row }

def insertPermission (db : Db) (row : PermissionRow) : Db :=
  { db with permissions := db.permissions.insert row }

def updatePermission (db : Db) (values : PermissionRow) : Db :=
  { db with permissions := db.permissions.modify values.subject (·.set values) fun _ => rfl }

/-- One or the other. -/
def upsertPermission (db : Db) (values : PermissionRow) : Db :=
  { db with permissions := db.permissions.upsert values (·.set values) fun _ => rfl }

def insertDecision (db : Db) (row : DecisionRow) : Db :=
  { db with decisions := db.decisions.insert row }

def insertInvocation (db : Db) (row : InvocationRow) : Db :=
  { db with invocations := db.invocations.insert row }

def appendAudit (db : Db) (record : Record) : Db := { db with audits := db.audits ++ [record] }

end Db

/-! ## Statements -/

inductive Sql where
  | tenantsAdd (tenant : Tenant)
  | tenantExists (tenantId : Uuid)
  | agentsAdd (agent : Agent)
  | getAgent (agentId : Uuid)
  | modelsAdd (model : Model)
  | getModel (modelId : Uuid)
  | getEffective (subject : Subject)
  | permissionsSet (permission : AgentModelPermission)
  | decisionsAdd (decision : PolicyDecision)
  | consumedTotalUnits (runtimePrincipalId : String) (windowStart windowEnd : Utc)
  | attributedCost (tenantId : Uuid) (windowStart windowEnd : Utc)
  | invocationsAdd (invocation : Invocation)
  | auditsAppend (record : Record)
  | clock
  | invoke (modelReference inputText : String)

abbrev Sql.Res : Sql → Type
  | tenantExists _ => Bool
  | getAgent _ => Option AgentRuntimeIdentity
  | getModel _ => Option ModelRuntimeReference
  | getEffective _ => Option AgentModelPermission
  | permissionsSet _ => AgentModelPermission
  | consumedTotalUnits .. => Int
  | attributedCost .. => Decimal
  | clock => Utc
  | invoke .. => ProviderInvocationResult
  | _ => Unit

inductive Lock where
  | tenant (tenantId : Uuid)
  | tenantName (normalizedName : String)
  | agent (agentId : Uuid)
  | agentName (tenantId : Uuid) (normalizedName : String)
  | model (modelId : Uuid)
  | modelName (tenantId : Uuid) (normalizedName : String)
  | permission (subject : Subject)
  | permissionId (permissionId : Uuid)
  | decision (decisionId : Uuid)
  | decisionOf (invocationId : Uuid)
  | invocation (invocationId : Uuid)
  deriving DecidableEq

/-- What is decided outside: whether an operation fails, the time, and what the provider
    answers. -/
structure Choice where
  fails : Bool
  now : Utc
  provided : Except Error ProviderInvocationResult

/-- The keys that the upsert of `p` needs: that of its subject, and of its id if it inserts. -/
def Db.permissionLocks (db : Db) (p : AgentModelPermission) : List Lock :=
  if (db.permissions.find? p.subject).isSome then [.permission p.subject]
  else [.permission p.subject, .permissionId p.id]

/-- `permissions.set`: the upsert, and the permission that is made of the row it returns. An
    exception of the constructor undoes the write with the transaction. -/
def Db.permissionsSet (db : Db) (p : AgentModelPermission) :
    Except Error (AgentModelPermission × (Db → Db)) := do
  let values ← column .database (PermissionRow.ofPermission p)
  match db.permissions.find? p.subject with
  | some row => do
      let permission ← (permissionFromRow (row.set values)).mapError fun e => .valueError e.message
      return (permission, fun db => db.updatePermission values)
  | none => do
      constraint .database (∀ r ∈ db.permissions.rows, r.id ≠ p.id)
      constraint (.policyTenantNotAvailable p.tenantId) (db.tenants.find? p.tenantId ≠ none)
      constraint (.policyAgentNotAvailable p.agentId) (db.agents.find? p.agentId ≠ none)
      constraint (.policyModelNotAvailable p.modelId) (db.models.find? p.modelId ≠ none)
      let permission ← (permissionFromRow values).mapError fun e => .valueError e.message
      return (permission, fun db => db.insertPermission values)

def stmt (ch : Choice) : (q : Sql) → Stmt Db Lock Error q.Res
  | .tenantsAdd t =>
      .change (fun _ _ => [.tenant t.id, .tenantName t.name.normalized]) fun _ db => do
        let row ← column .database (TenantRow.ofTenant t)
        constraint .database (db.tenants.find? t.id = none)
        constraint .tenantNameAlreadyExists
          (∀ r ∈ db.tenants.rows, r.normalizedName ≠ row.normalizedName)
        return ((), fun db => db.insertTenant row)
  | .tenantExists tenantId => .query fun db => .ok (db.tenants.find? tenantId).isSome
  | .agentsAdd a =>
      .change (fun _ _ => [.agent a.id, .agentName a.tenantId a.name.normalized]) fun _ db => do
        let row ← column .database (AgentRow.ofAgent a)
        constraint .database (db.agents.find? a.id = none)
        constraint .agentNameAlreadyExists
          (∀ r ∈ db.agents.rows, (r.tenantId, r.normalizedName) ≠ (row.tenantId, row.normalizedName))
        constraint (.owningTenantNotFound a.tenantId) (db.tenants.find? a.tenantId ≠ none)
        return ((), fun db => db.insertAgent row)
  | .getAgent agentId => .query fun db => .ok (db.getAgent agentId)
  | .modelsAdd m =>
      .change (fun _ _ => [.model m.id, .modelName m.tenantId m.name.normalized]) fun _ db => do
        let row ← column .database (ModelRow.ofModel m)
        constraint .database (db.models.find? m.id = none)
        constraint .modelNameAlreadyExists
          (∀ r ∈ db.models.rows, (r.tenantId, r.normalizedName) ≠ (row.tenantId, row.normalizedName))
        constraint (.owningTenantNotFound m.tenantId) (db.tenants.find? m.tenantId ≠ none)
        return ((), fun db => db.insertModel row)
  | .getModel modelId => .query fun db => .ok (db.getModel modelId)
  | .getEffective subject => .query fun db => db.getEffective subject
  | .permissionsSet p => .change (fun _ db => db.permissionLocks p) fun _ db => db.permissionsSet p
  | .decisionsAdd d =>
      .change (fun _ _ => [.decision d.id, .decisionOf d.invocationId]) fun _ db => do
        let row ← column .database (DecisionRow.ofDecision d)
        constraint .database (db.decisions.find? d.id = none)
        constraint .database (∀ r ∈ db.decisions.rows, r.invocationId ≠ d.invocationId)
        constraint .database (db.tenants.find? d.tenantId ≠ none ∧ db.agents.find? d.agentId ≠ none ∧
          db.models.find? d.modelId ≠ none)
        constraint .database (∀ id ∈ d.permissionId, ∃ r ∈ db.permissions.rows, r.id = id)
        return ((), fun db => db.insertDecision row)
  | .consumedTotalUnits runtimePrincipalId windowStart windowEnd => .query fun db => do
      let runtimePrincipalId ← column .database (text runtimePrincipalId)
      return RuntimeGateway.consumedTotalUnits db.invocations.rows runtimePrincipalId windowStart
        windowEnd
  | .attributedCost tenantId windowStart windowEnd => .query fun db =>
      .ok (RuntimeGateway.attributedCost db.invocations.rows tenantId windowStart windowEnd)
  | .invocationsAdd i =>
      .change (fun _ _ => [.invocation i.id]) fun _ db => do
        let row ← column .database (InvocationRow.ofInvocation i)
        column .database row.checks
        constraint .database (db.invocations.find? i.id = none)
        constraint (.tenantNotAvailable i.tenantId) (db.tenants.find? i.tenantId ≠ none)
        constraint (.agentNotAvailable i.agentId) (db.agents.find? i.agentId ≠ none)
        constraint (.modelNotAvailable i.modelId) (db.models.find? i.modelId ≠ none)
        constraint .database (db.decisions.find? i.policyDecisionId ≠ none)
        return ((), fun db => db.insertInvocation row)
  | .auditsAppend record => .change (fun _ _ => []) fun _ _ =>
      .ok ((), fun db => db.appendAudit record)
  | .clock => .query fun _ => .ok ch.now
  | .invoke _ _ => .query fun _ => ch.provided

def database : Database Db Lock Sql Sql.Res Error Choice where
  stmt ch _ q := stmt ch q
  fails ch := ch.fails
  failure := .database

end Valor.ControlPlane
