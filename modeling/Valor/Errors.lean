/-
  The exceptions of the services of tenants, assets, permissions and invocations.
-/
import Valor.RuntimeGateway.Invocation

namespace Valor

open Python

inductive Error where
  -- Tenants, Agents and Models
  | tenantNameAlreadyExists
  | agentNameAlreadyExists
  | modelNameAlreadyExists
  | owningTenantNotFound (tenantId : Uuid)
  | invalidProviderModelReference (message : String)
  -- Permissions
  | policyTenantNotAvailable (tenantId : Uuid)
  | policyAgentNotAvailable (agentId : Uuid)
  | policyModelNotAvailable (modelId : Uuid)
  -- Invocations
  | tenantNotAvailable (tenantId : Uuid)
  | agentNotAvailable (agentId : Uuid)
  | modelNotAvailable (modelId : Uuid)
  | providerNotSupportedForRuntime (provider : String)
  | invocationDenied (invocationId decisionId : Uuid)
  | invocationUsageLimited (invocationId : Uuid) (windowEnd : Utc)
  | usageLimitUnavailable
  | tenantCostBudgetConfigurationUnavailable
  | tenantCostBudgetCheckUnavailable
  | invocationCostLimited (invocationId : Uuid) (windowEnd : Utc)
  | providerTransportError
  | providerInvocationFailed (invocationId : Uuid)
  | invocation (error : RuntimeGateway.InvocationError)
  -- Any context
  | valueError (message : String)
  | overflowError
  | invalidOperation
  /-- A SQLAlchemyError, or whatever else a call to the outside raises. -/
  | database
  deriving DecidableEq

end Valor
