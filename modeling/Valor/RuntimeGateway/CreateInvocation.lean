/-
  Runtime gateway: `CreateInvocationHandler`, over the ports it calls.

  A port may answer anything or raise anything. The handler passes its gates one after
  another: admission, policy, usage limit, cost budget. Each later part of it is a
  definition of its own, which goes on from the gate before.

  `InvocationEnv` is what a call reads from outside: the clock, once when it starts and once
  when it builds its Invocation, and the id of `id_factory`.
-/
import Valor.Errors
import Valor.RuntimeGateway.Usage

namespace Valor.RuntimeGateway

open Python Prog

structure InvocationEnv where
  startedAt : Utc
  completedAt : Utc
  invocationId : Uuid

structure CreateInvocationCommand where
  runtimePrincipalId : String
  tenantId : Uuid
  agentId : Uuid
  modelId : Uuid
  inputText : String
  usageLimit : Int
  perInvocationAllowance : Int

/-! ## Ports -/

structure AgentRuntimeIdentity where
  id : Uuid
  tenantId : Uuid
  deriving DecidableEq

structure ModelRuntimeReference where
  id : Uuid
  tenantId : Uuid
  provider : String
  providerModelReference : String
  deriving DecidableEq

structure ProviderInvocationResult where
  outputText : Str
  usage : Option InvocationUsage
  providerResponseId : Option Str
  deriving DecidableEq

structure RuntimePolicyDecision where
  id : Uuid
  effect : String
  permissionId : Option Uuid
  deriving DecidableEq

inductive Port where
  | tenantExists (tenantId : Uuid)
  | getAgent (agentId : Uuid)
  | getModel (modelId : Uuid)
  | decide (invocationId tenantId agentId modelId : Uuid)
  | consumedTotalUnits (runtimePrincipalId : String) (windowStart windowEnd : Utc)
  | resolveBudget (tenantId : Uuid)
  | attributedCost (tenantId : Uuid) (windowStart windowEnd : Utc)
  | invoke (modelReference inputText : String)
  | resolvePricing (provider providerModelReference : String)
  /-- `invocations.add` in the Unit of Work. -/
  | invocationsAdd (invocation : Invocation)
  | commit
  /-- Leaving the Unit of Work. -/
  | rollback

abbrev Port.Res : Port → Type
  | tenantExists _ => Bool
  | getAgent _ => Option AgentRuntimeIdentity
  | getModel _ => Option ModelRuntimeReference
  | decide .. => RuntimePolicyDecision
  | consumedTotalUnits .. => Int
  | resolveBudget _ => Option TenantCostBudget
  | attributedCost .. => Decimal
  | invoke .. => ProviderInvocationResult
  | resolvePricing .. => Option PricingSnapshot
  | _ => Unit

abbrev Handler := Prog Port Port.Res Error

def ask (port : Port) : Handler port.Res := perform port

/-! ## The handler -/

def orInvocationError {α : Type} : Except InvocationError α → Handler α := lift .invocation

def orValueError {α : Type} : Except ValueError α → Handler α := lift fun e => .valueError e.message

def orOverflow {α : Type} : Except OverflowError α → Handler α := lift fun _ => .overflowError

def orCostError {α : Type} : Except CostError α → Handler α :=
  lift fun
    | .invalidOperation => .invalidOperation
    | .valueError message => .valueError message

/-- `if value is None …: raise e`. -/
def orMissing {α : Type} (value : Option α) (e : Error) : Handler α :=
  match value with
  | some a => .ret a
  | none => .raise e

/-- `_persist`. -/
def persist (invocation : Invocation) : Handler Unit :=
  andFinally .rollback do
    ask (.invocationsAdd invocation)
    ask .commit

/-- What the factories of the Invocation are given. -/
def commonOf (env : InvocationEnv) (command : CreateInvocationCommand) (inputText : String)
    (decision : RuntimePolicyDecision) : Invocation.Common where
  invocationId := env.invocationId
  tenantId := command.tenantId
  agentId := command.agentId
  modelId := command.modelId
  inputText := inputText
  startedAt := env.startedAt
  completedAt := env.completedAt
  policyDecisionId := decision.id
  runtimePrincipalId := command.runtimePrincipalId

/-- The Model of the command, once tenant, Agent and Model are admitted. -/
def admitted (command : CreateInvocationCommand) : Handler ModelRuntimeReference := do
  let «exists» ← ask (.tenantExists command.tenantId)
  raiseWhen (¬«exists») (.tenantNotAvailable command.tenantId)
  let agent ← ask (.getAgent command.agentId)
  let _ ← orMissing (agent.filter (·.tenantId = command.tenantId)) (.agentNotAvailable command.agentId)
  let model ← ask (.getModel command.modelId)
  let model ← orMissing (model.filter (·.tenantId = command.tenantId))
    (.modelNotAvailable command.modelId)
  raiseWhen (model.provider ≠ "openai") (.providerNotSupportedForRuntime model.provider)
  return model

/-- The provider has answered. -/
def succeed (c : Invocation.Common) (model : ModelRuntimeReference)
    (result : ProviderInvocationResult) : Handler Invocation := do
  let pricing ← ask (.resolvePricing model.provider model.providerModelReference)
  let cost ← orCostError (attributeCost result.usage pricing)
  let succeeded ← orInvocationError
    (Invocation.succeeded c result.outputText result.usage result.providerResponseId cost)
  persist succeeded
  return succeeded

/-- All gates are passed. -/
def execute (c : Invocation.Common) (model : ModelRuntimeReference) : Handler Invocation := do
  match ← attempt (Port.invoke model.providerModelReference c.inputText) with
  | .ok result => succeed c model result
  | .error .providerTransportError =>
      let failed ← orInvocationError (Invocation.failed c)
      persist failed
      raise (.providerInvocationFailed c.invocationId)
  | .error e => raise e

/-- The gate of the cost budget. -/
def withinUsage (c : Invocation.Common) (model : ModelRuntimeReference) (window : UsageWindow) :
    Handler Invocation := do
  let budget ← ask (.resolveBudget c.tenantId)
  let budget ← orMissing budget .tenantCostBudgetConfigurationUnavailable
  let cost ← ask (.attributedCost c.tenantId window.start window.end)
  let decision ← orValueError (decideTenantCostBudget cost budget window)
  if decision.allowed then execute c model
  else do
    let costLimited ← orInvocationError
      (Invocation.costLimited c decision.attributedCost decision.budget decision.allowance window)
    persist costLimited
    raise (.invocationCostLimited c.invocationId window.end)

/-- The gate of the usage limit. -/
def allowed (c : Invocation.Common) (command : CreateInvocationCommand)
    (model : ModelRuntimeReference) : Handler Invocation := do
  let window ← orOverflow (utcDayWindow c.startedAt)
  let consumed ← ask (.consumedTotalUnits c.runtimePrincipalId window.start window.end)
  let decision ← orValueError
    (decideUsageLimit consumed command.usageLimit command.perInvocationAllowance window)
  if decision.allowed then withinUsage c model window
  else do
    let limited ← orInvocationError (Invocation.limited c decision.consumedUnits decision.limitUnits
      decision.allowanceUnits decision.window)
    persist limited
    raise (.invocationUsageLimited c.invocationId window.end)

def createInvocation (env : InvocationEnv) (command : CreateInvocationCommand) :
    Handler Invocation := do
  let inputText ← orInvocationError (validatedInput command.inputText)
  let model ← admitted command
  let decision ← ask
    (.decide env.invocationId command.tenantId command.agentId command.modelId)
  let c := commonOf env command inputText decision
  if decision.effect = "allow" then allowed c command model
  else do
    let denied ← orInvocationError (Invocation.denied c)
    persist denied
    raise (.invocationDenied env.invocationId decision.id)

end Valor.RuntimeGateway
