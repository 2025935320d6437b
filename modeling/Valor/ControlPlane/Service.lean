/-
  The control plane: its commands, over the statements of the store.

  `session` is a session of its own that reads and closes. The ports of
  `CreateInvocationHandler` are implemented by `port`: admission and the two ledgers read in
  sessions, the policy decides in a Unit of Work of its own, budgets and prices come from
  the settings. `Request.program` is what a request does; the environments hold what it takes
  from id factories and, for an Invocation, from the clock.
-/
import Valor.ControlPlane.Store
import Valor.Lib.Embedding
import Valor.RuntimeGateway.CostAttribution
import Valor.RuntimeGateway.Limits

namespace Valor.ControlPlane

open Python ManagementAudit IdentityTenancy AssetRegistry PolicyRisk RuntimeGateway Prog ReadCommitted
  Settings

abbrev Program := Transaction Sql Sql.Res Error

/-- A statement of the current session. -/
def execute (q : Sql) : Program q.Res := sql q

/-- `async with sessions() as session`, with one statement. -/
def session (q : Sql) : Program q.Res := unitOfWork (execute q)

/-- A ValueError that no one catches. -/
def orValueError {α : Type} : Except ValueError α → Program α := lift fun e => .valueError e.message

/-- `if value is None …: raise e`. -/
def orMissing {α : Type} (value : Option α) (e : Error) : Program α :=
  match value with
  | some a => .ret a
  | none => .raise e

/-! ## Tenants, Agents and Models -/

structure AssetEnv where
  id : Uuid
  createdAt : Utc

structure RegisterAgentCommand where
  tenantId : Uuid
  name : String

structure RegisterModelCommand where
  tenantId : Uuid
  name : String
  provider : Provider
  providerModelReference : String

/-- `CreateTenantHandler`. -/
def createTenant (casefold : String → String) (env : AssetEnv) (name : String) : Program Tenant := do
  let tenant ← orValueError (Tenant.create casefold env.id name (.aware env.createdAt))
  unitOfWork do
    execute (.tenantsAdd tenant)
    commit
    return tenant

/-- `RegisterAgentHandler`. -/
def registerAgent (casefold : String → String) (env : AssetEnv) (command : RegisterAgentCommand) :
    Program Agent := do
  let agent ← orValueError
    (Agent.register casefold env.id command.tenantId command.name (.aware env.createdAt))
  let «exists» ← session (.tenantExists command.tenantId)
  raiseWhen (¬«exists») (.owningTenantNotFound command.tenantId)
  unitOfWork do
    execute (.agentsAdd agent)
    commit
    return agent

def orInvalidModel {α : Type} : Except InvalidModel α → Program α :=
  lift fun
    | .name message => .valueError message
    | .providerModelReference message => .invalidProviderModelReference message
    | .valueError message => .valueError message

/-- `RegisterModelHandler`. -/
def registerModel (casefold : String → String) (env : AssetEnv) (command : RegisterModelCommand) :
    Program Model := do
  let model ← orInvalidModel (Model.register casefold env.id command.tenantId command.name
    command.provider command.providerModelReference (.aware env.createdAt))
  let «exists» ← session (.tenantExists command.tenantId)
  raiseWhen (¬«exists») (.owningTenantNotFound command.tenantId)
  unitOfWork do
    execute (.modelsAdd model)
    commit
    return model

/-! ## Permissions -/

structure PermissionEnv where
  permissionId : Uuid
  auditId : Uuid

structure SetAgentModelPermissionCommand where
  subject : Subject
  effect : PolicyEffect
  principalId : String

def permissionFingerprint (sha256 : Sha256) (p : AgentModelPermission) : String :=
  agentModelPermissionFingerprint sha256 p.tenantId p.agentId p.modelId p.effect.value

/-- The admission of `SetAgentModelPermissionHandler`. -/
def admitPermission (subject : Subject) : Program Unit := do
  let «exists» ← session (.tenantExists subject.tenantId)
  raiseWhen (¬«exists») (.policyTenantNotAvailable subject.tenantId)
  let agent ← session (.getAgent subject.agentId)
  let _ ← orMissing (agent.filter (·.tenantId = subject.tenantId))
    (.policyAgentNotAvailable subject.agentId)
  let model ← session (.getModel subject.modelId)
  let _ ← orMissing (model.filter (·.tenantId = subject.tenantId))
    (.policyModelNotAvailable subject.modelId)
  return ()

/-- The audit record of a permission that was set. -/
def permissionRecord (sha256 : Sha256) (env : PermissionEnv) (principalId : String) (now : Utc)
    (previous : Option AgentModelPermission) (effective : AgentModelPermission) :
    Except ValueError Record :=
  Record.new env.auditId principalId (some effective.tenantId) .agentModelPermissionSet
    .agentModelPermission effective.id .succeeded (.aware now)
    (previous.map (permissionFingerprint sha256)) (some (permissionFingerprint sha256 effective))

/-- The Unit of Work of `SetAgentModelPermissionHandler`. -/
def setEffective (sha256 : Sha256) (env : PermissionEnv) (command : SetAgentModelPermissionCommand)
    (now : Utc) (proposed : AgentModelPermission) : Program AgentModelPermission := do
  let previous ← execute (.getEffective command.subject)
  let effective ← execute (.permissionsSet proposed)
  let record ← orValueError (permissionRecord sha256 env command.principalId now previous effective)
  execute (.auditsAppend record)
  commit
  return effective

/-- `SetAgentModelPermissionHandler`. -/
def setPermission (sha256 : Sha256) (env : PermissionEnv) (command : SetAgentModelPermissionCommand) :
    Program AgentModelPermission := do
  admitPermission command.subject
  let now ← execute .clock
  let proposed ← orValueError (AgentModelPermission.new env.permissionId command.subject.tenantId
    command.subject.agentId command.subject.modelId command.effect (.aware now) (.aware now))
  unitOfWork (setEffective sha256 env command now proposed)

structure DecisionEnv where
  decisionId : Uuid
  decidedAt : Utc

/-- `EvaluateRuntimePermissionHandler`. -/
def evaluatePermission (env : DecisionEnv) (invocationId : Uuid) (subject : Subject) :
    Program PolicyDecision :=
  unitOfWork do
    let permission ← execute (.getEffective subject)
    let decision ← orValueError (PolicyDecision.ofPermission env.decisionId invocationId subject
      permission (.aware env.decidedAt))
    execute (.decisionsAdd decision)
    commit
    return decision

/-! ## Invocations -/

/-- `ConfiguredTenantCostBudgets.resolve`. -/
def resolveBudget (settings : TenantBudgetSettings) (tenantId : Uuid) : Option TenantCostBudget :=
  (settings.entries.find? (·.tenantId = tenantId)).bind fun entry => (budgetOf entry).toOption

/-- `ConfiguredInvocationPricing.resolve`. -/
def resolvePricing (settings : PricingSettings) (provider providerModelReference : String) :
    Option PricingSnapshot :=
  (settings.entries.find? fun entry =>
    (entry.provider, entry.providerModelReference) = (provider, providerModelReference)).bind
      fun entry => (pricingOf entry).toOption

structure RuntimeSettings where
  budgets : TenantBudgetSettings
  pricing : PricingSettings

/-- `except SQLAlchemyError as error: raise e from error`. -/
def orUnavailable {α : Type} (e : Error) (p : Program α) : Program α :=
  p.mapError fun
    | .database => e
    | error => error

/-- The adapters behind the ports. -/
def port (settings : RuntimeSettings) (env : DecisionEnv) : (p : Port) → Program p.Res
  | .tenantExists tenantId => session (.tenantExists tenantId)
  | .getAgent agentId => session (.getAgent agentId)
  | .getModel modelId => session (.getModel modelId)
  | .decide invocationId tenantId agentId modelId => do
      let decision ← evaluatePermission env invocationId ⟨tenantId, agentId, modelId⟩
      return ⟨decision.id, decision.effect.value, decision.permissionId⟩
  | .consumedTotalUnits runtimePrincipalId windowStart windowEnd =>
      orUnavailable .usageLimitUnavailable
        (session (.consumedTotalUnits runtimePrincipalId windowStart windowEnd))
  | .resolveBudget tenantId => .ret (resolveBudget settings.budgets tenantId)
  | .attributedCost tenantId windowStart windowEnd =>
      orUnavailable .tenantCostBudgetCheckUnavailable
        (session (.attributedCost tenantId windowStart windowEnd))
  | .invoke modelReference inputText => execute (.invoke modelReference inputText)
  | .resolvePricing provider providerModelReference =>
      .ret (resolvePricing settings.pricing provider providerModelReference)
  | .invocationsAdd invocation => execute (.invocationsAdd invocation)
  | .commit => commit
  | .rollback => perform Op.rollback

def createInvocation (settings : RuntimeSettings) (env : InvocationEnv) (decisionEnv : DecisionEnv)
    (command : CreateInvocationCommand) : Program Invocation :=
  (RuntimeGateway.createInvocation env command).interpret (port settings decisionEnv)

/-! ## Requests -/

/-- What is fixed for a deployment. -/
structure Service where
  casefold : String → String
  sha256 : Sha256
  settings : RuntimeSettings

inductive Request where
  | createTenant (env : AssetEnv) (name : String)
  | registerAgent (env : AssetEnv) (command : RegisterAgentCommand)
  | registerModel (env : AssetEnv) (command : RegisterModelCommand)
  /-- The PUT of a management principal. -/
  | setPermission (env : PermissionEnv) (principalId : Uuid) (subject : Subject) (effect : PolicyEffect)
  | createInvocation (env : InvocationEnv) (decisionEnv : DecisionEnv) (command : CreateInvocationCommand)

inductive Reply where
  | tenant (tenant : Tenant)
  | agent (agent : Agent)
  | model (model : Model)
  | permission (permission : AgentModelPermission)
  | invocation (invocation : Invocation)

def Service.program (s : Service) : Request → Program Reply
  | .createTenant env name => .tenant <$> createTenant s.casefold env name
  | .registerAgent env command => .agent <$> registerAgent s.casefold env command
  | .registerModel env command => .model <$> registerModel s.casefold env command
  | .setPermission env principalId subject effect =>
      .permission <$> setPermission s.sha256 env ⟨subject, effect, principalId.str⟩
  | .createInvocation env decisionEnv command =>
      .invocation <$> createInvocation s.settings env decisionEnv command

/-- The configurations of the control plane, and what leads to them. -/
abbrev Config := Interleave.Config (World Db Lock) (Op Sql) (Op.Res Sql.Res) Error Reply

abbrev Label := Interleave.Label (Op Sql) (Op.Res Sql.Res) Error

/-- A run of the requests from the database `db`. -/
def RunFrom (s : Service) (requests : Interleave.Tid → Request) (db : Db) (tr : List Label)
    (c : Config) : Prop :=
  Interleave.Run database.exec ⟨World.ofDb db, fun i => s.program (requests i)⟩ tr c

end Valor.ControlPlane
