/-
  Settings, as their validators leave them.

  A value of one of these types is one that its pydantic model accepts: the fields after
  the data say what was validated. A setting that no modelled function reads is left out;
  the credential of a static principal is kept, since its uniqueness is validated.
-/
import Valor.Python.Decimal
import Valor.Python.Text
import Valor.Python.Uuid

namespace Valor.Settings

open Python

structure PricingEntrySettings where
  provider : String
  providerModelReference : String
  pricingVersion : String
  priceBasisUnits : Int
  inputPricePerBasis : Decimal
  outputPricePerBasis : Decimal
  currency : String
  texts_stripped : trim provider = provider ∧ trim providerModelReference = providerModelReference ∧
    trim pricingVersion = pricingVersion
  provider_length : 1 ≤ len provider ∧ len provider ≤ 50
  providerModelReference_length : 1 ≤ len providerModelReference ∧ len providerModelReference ≤ 255
  pricingVersion_length : 1 ≤ len pricingVersion ∧ len pricingVersion ≤ 255
  priceBasisUnits_pos : 0 < priceBasisUnits
  inputPrice_accepted : 0 ≤ inputPricePerBasis ∧ inputPricePerBasis.Fits 18 12
  outputPrice_accepted : 0 ≤ outputPricePerBasis ∧ outputPricePerBasis.Fits 18 12
  usd : currency = "USD"

structure PricingSettings where
  entries : List PricingEntrySettings
  keys_unique : (entries.map fun e => (e.provider, e.providerModelReference)).Nodup
  versions_unique : (entries.map (·.pricingVersion)).Nodup

structure TenantBudgetEntrySettings where
  tenantId : Uuid
  dailyEstimatedCostBudget : Decimal
  perInvocationCostAllowance : Decimal
  currency : String
  budget_accepted : 0 < dailyEstimatedCostBudget ∧ dailyEstimatedCostBudget.Fits 30 12
  allowance_accepted : 0 < perInvocationCostAllowance ∧ perInvocationCostAllowance.Fits 30 12
  allowance_fits_budget : perInvocationCostAllowance ≤ dailyEstimatedCostBudget
  usd : currency = "USD"

structure TenantBudgetSettings where
  entries : List TenantBudgetEntrySettings
  tenants_unique : (entries.map (·.tenantId)).Nodup

structure RuntimePrincipalSettings where
  principalId : String
  tenantId : Uuid
  agentId : Uuid
  credential : Str
  usageLimit : Int
  perInvocationAllowance : Int
  principalId_stripped : trim principalId = principalId
  principalId_length : 1 ≤ len principalId ∧ len principalId ≤ 255
  credential_length : 32 ≤ credential.len
  usageLimit_pos : 0 < usageLimit
  perInvocationAllowance_pos : 0 < perInvocationAllowance
  allowance_fits_limit : perInvocationAllowance ≤ usageLimit

structure RuntimeAuthenticationSettings where
  principals : List RuntimePrincipalSettings
  principalIds_unique : (principals.map (·.principalId)).Nodup
  credentials_unique : (principals.map (·.credential)).Nodup
  bindings_unique : (principals.map fun p => (p.tenantId, p.agentId)).Nodup

end Valor.Settings
