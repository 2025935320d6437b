/-
  Runtime gateway: the `invocations` table and its repository.

  `InvocationRow.ofInvocation` flattens an Invocation into the columns, as `add` does, and
  `toInvocation` builds one from them, as `get` does. Money is held in units of its last
  decimal. A row is inserted if every CHECK is satisfied; the checks are written as the
  table declares them, with the truth values of SQL.
-/
import Valor.Lib.Sql
import Valor.Lib.Table
import Valor.Postgres
import Valor.RuntimeGateway.Invocation

namespace Valor.RuntimeGateway

open Python Postgres Sql

structure InvocationRow where
  id : Uuid
  tenantId : Uuid
  agentId : Uuid
  modelId : Uuid
  status : String
  inputText : String
  outputText : Option String
  startedAt : Utc
  completedAt : Utc
  policyDecisionId : Option Uuid
  runtimePrincipalId : Option String
  durationMs : Option Int
  inputUnits : Option Int
  outputUnits : Option Int
  totalUnits : Option Int
  providerResponseId : Option String
  usageConsumedUnits : Option Int
  usageLimitUnits : Option Int
  usageAllowanceUnits : Option Int
  usageWindowStart : Option Utc
  usageWindowEnd : Option Utc
  costCurrency : Option String
  costInput : Option Int
  costOutput : Option Int
  costTotal : Option Int
  pricingVersion : Option String
  pricingBasisUnits : Option Int
  pricingInputRate : Option Int
  pricingOutputRate : Option Int
  costBudgetConsumed : Option Int
  costBudgetLimit : Option Int
  costBudgetAllowance : Option Int
  costBudgetWindowStart : Option Utc
  costBudgetWindowEnd : Option Utc
  deriving DecidableEq

instance : Keyed InvocationRow Uuid := ⟨InvocationRow.id⟩

namespace InvocationRow

/-! ## Checks -/

section Checks

variable (row : InvocationRow)

def statusIs (status : String) : Truth := .ofBool (row.status = status)

def statusIsNot (status : String) : Truth := .ofBool (row.status ≠ status)

def ckStatusOutput : Truth :=
  (row.statusIs "succeeded" &&& isNotNull row.outputText) |||
    (.ofBool (row.status ∈ ["failed", "denied", "limited", "cost_limited"]) &&&
      isNull row.outputText)

def ckDurationNonNegative : Truth := test (0 ≤ ·) row.durationMs

def ckInputUnitsNonNegative : Truth := test (0 ≤ ·) row.inputUnits

def ckOutputUnitsNonNegative : Truth := test (0 ≤ ·) row.outputUnits

def ckTotalUnitsNonNegative : Truth := test (0 ≤ ·) row.totalUnits

def ckUsageConsumedNonNegative : Truth := test (0 ≤ ·) row.usageConsumedUnits

def ckUsageLimitPositive : Truth := test (0 < ·) row.usageLimitUnits

def ckUsageAllowancePositive : Truth := test (0 < ·) row.usageAllowanceUnits

/-- An `INTEGER` sum, which raises where it needs more than 32 bits. -/
def addIntegers : Option Int → Option Int → Except DataError (Option Int)
  | some a, some b => (integer (a + b)).map some
  | _, _ => .ok none

def ckLimitedEvidence : Except DataError Truth := do
  let sum ← addIntegers row.usageConsumedUnits row.usageAllowanceUnits
  return (row.statusIs "limited" &&& isNotNull row.usageConsumedUnits &&&
      isNotNull row.usageLimitUnits &&& isNotNull row.usageAllowanceUnits &&&
      isNotNull row.usageWindowStart &&& isNotNull row.usageWindowEnd &&&
      compare (· > ·) sum row.usageLimitUnits &&&
      compare (· ≤ ·) row.usageAllowanceUnits row.usageLimitUnits &&&
      isNull row.totalUnits &&& isNull row.providerResponseId) |||
    (row.statusIsNot "limited" &&& isNull row.usageConsumedUnits &&&
      isNull row.usageLimitUnits &&& isNull row.usageAllowanceUnits &&&
      isNull row.usageWindowStart &&& isNull row.usageWindowEnd)

def ckCostSnapshotComplete : Truth :=
  (isNull row.costCurrency &&& isNull row.costInput &&& isNull row.costOutput &&&
      isNull row.costTotal &&& isNull row.pricingVersion &&& isNull row.pricingBasisUnits &&&
      isNull row.pricingInputRate &&& isNull row.pricingOutputRate) |||
    (test (· = "USD") row.costCurrency &&& test (0 ≤ ·) row.costInput &&&
      test (0 ≤ ·) row.costOutput &&&
      compare (· = ·) row.costTotal (combine (· + ·) row.costInput row.costOutput) &&&
      isNotNull row.pricingVersion &&& test (0 < ·) row.pricingBasisUnits &&&
      test (0 ≤ ·) row.pricingInputRate &&& test (0 ≤ ·) row.pricingOutputRate)

def ckCostBudgetEvidence : Truth :=
  (row.statusIs "cost_limited" &&& isNotNull row.costBudgetConsumed &&&
      isNotNull row.costBudgetLimit &&& isNotNull row.costBudgetAllowance &&&
      isNotNull row.costBudgetWindowStart &&& isNotNull row.costBudgetWindowEnd &&&
      test (0 ≤ ·) row.costBudgetConsumed &&& test (0 < ·) row.costBudgetLimit &&&
      test (0 < ·) row.costBudgetAllowance &&&
      compare (· ≤ ·) row.costBudgetAllowance row.costBudgetLimit &&&
      compare (· > ·) (combine (· + ·) row.costBudgetConsumed row.costBudgetAllowance)
        row.costBudgetLimit &&&
      compare (fun e s : Utc => e.instant > s.instant) row.costBudgetWindowEnd
        row.costBudgetWindowStart &&&
      isNull row.inputUnits &&& isNull row.outputUnits &&& isNull row.totalUnits &&&
      isNull row.providerResponseId &&& isNull row.costTotal) |||
    (row.statusIsNot "cost_limited" &&& isNull row.costBudgetConsumed &&&
      isNull row.costBudgetLimit &&& isNull row.costBudgetAllowance &&&
      isNull row.costBudgetWindowStart &&& isNull row.costBudgetWindowEnd)

/-- The statement raises if a check is false or cannot be evaluated. -/
def checks : Except DataError Unit := do
  let limitedEvidence ← row.ckLimitedEvidence
  constraint ⟨⟩ (row.ckStatusOutput.Satisfied ∧ row.ckDurationNonNegative.Satisfied ∧
    row.ckInputUnitsNonNegative.Satisfied ∧ row.ckOutputUnitsNonNegative.Satisfied ∧
    row.ckTotalUnitsNonNegative.Satisfied ∧ row.ckUsageConsumedNonNegative.Satisfied ∧
    row.ckUsageLimitPositive.Satisfied ∧ row.ckUsageAllowancePositive.Satisfied ∧
    limitedEvidence.Satisfied ∧ row.ckCostSnapshotComplete.Satisfied ∧
    row.ckCostBudgetEvidence.Satisfied)

end Checks

/-! ## Writing -/

/-- The columns that `add` fills from an Invocation. -/
def ofInvocation (i : Invocation) : Except DataError InvocationRow := do
  let inputText ← text i.inputText
  let outputText ← i.outputText.mapM (utf8 >=> text)
  let runtimePrincipalId ← varchar 255 i.runtimePrincipalId
  let durationMs ← i.durationMs.mapM integer
  let inputUnits ← (i.usage.bind (·.inputUnits)).mapM integer
  let outputUnits ← (i.usage.bind (·.outputUnits)).mapM integer
  let totalUnits ← (i.usage.bind (·.totalUnits)).mapM integer
  let providerResponseId ← i.providerResponseId.mapM (utf8 >=> varchar 255)
  let usageConsumedUnits ← i.usageConsumedUnits.mapM integer
  let usageLimitUnits ← i.usageLimitUnits.mapM integer
  let usageAllowanceUnits ← i.usageAllowanceUnits.mapM integer
  let costCurrency ← (i.estimatedCost.map (·.currency)).mapM (varchar 3)
  let costInput ← (i.estimatedCost.map (·.inputCost)).mapM (numeric 30 12)
  let costOutput ← (i.estimatedCost.map (·.outputCost)).mapM (numeric 30 12)
  let costTotal ← (i.estimatedCost.map (·.totalCost)).mapM (numeric 30 12)
  let pricingVersion ← (i.estimatedCost.map (·.pricingVersion)).mapM (varchar 255)
  let pricingBasisUnits ← (i.estimatedCost.map (·.pricingBasisUnits)).mapM integer
  let pricingInputRate ← (i.estimatedCost.map (·.pricingInputRate)).mapM (numeric 18 12)
  let pricingOutputRate ← (i.estimatedCost.map (·.pricingOutputRate)).mapM (numeric 18 12)
  let costBudgetConsumed ← i.costBudgetConsumed.mapM (numeric 30 12)
  let costBudgetLimit ← i.costBudgetLimit.mapM (numeric 30 12)
  let costBudgetAllowance ← i.costBudgetAllowance.mapM (numeric 30 12)
  return {
    inputText, outputText, durationMs, inputUnits, outputUnits, totalUnits, providerResponseId
    usageConsumedUnits, usageLimitUnits, usageAllowanceUnits, costCurrency, costInput, costOutput
    costTotal, pricingVersion, pricingBasisUnits, pricingInputRate, pricingOutputRate
    costBudgetConsumed, costBudgetLimit, costBudgetAllowance
    id := i.id
    tenantId := i.tenantId
    agentId := i.agentId
    modelId := i.modelId
    status := i.status.value
    startedAt := i.startedAt
    completedAt := i.completedAt
    policyDecisionId := some i.policyDecisionId
    runtimePrincipalId := some runtimePrincipalId
    usageWindowStart := i.usageWindowStart
    usageWindowEnd := i.usageWindowEnd
    costBudgetWindowStart := i.costBudgetWindowStart
    costBudgetWindowEnd := i.costBudgetWindowEnd }

/-! ## Reading -/

/-- `_usage_from_row`. -/
def usageFromRow (row : InvocationRow) : Except ValueError (Option InvocationUsage) :=
  if row.inputUnits = none ∧ row.outputUnits = none ∧ row.totalUnits = none then .ok none
  else (InvocationUsage.new row.inputUnits row.outputUnits row.totalUnits).map some

/-- `_cost_from_row`. -/
def costFromRow (row : InvocationRow) : Except ValueError (Option InvocationCost) :=
  match row.costCurrency with
  | none => .ok none
  | some currency =>
      match row.costInput, row.costOutput, row.costTotal, row.pricingVersion,
          row.pricingBasisUnits, row.pricingInputRate, row.pricingOutputRate with
      | some input, some output, some total, some version, some basisUnits, some inputRate,
          some outputRate =>
          (InvocationCost.new currency (numericValue 12 input) (numericValue 12 output)
            (numericValue 12 total) version basisUnits (numericValue 12 inputRate)
            (numericValue 12 outputRate)).map some
      | _, _, _, _, _, _, _ => .error ⟨"Persisted Invocation cost snapshot is incomplete."⟩

/-- What `get` makes of the row it finds; the error is the exception that it raises. -/
def toInvocation (row : InvocationRow) : Except InvocationError (Option Invocation) :=
  match row.policyDecisionId, row.runtimePrincipalId with
  | some policyDecisionId, some runtimePrincipalId =>
      match InvocationStatus.ofValue row.status with
      | none => .error (.valueError ("'" ++ row.status ++ "' is not a valid InvocationStatus"))
      | some status => do
          let usage ← (usageFromRow row).mapError fun e => .valueError e.message
          let estimatedCost ← (costFromRow row).mapError fun e => .valueError e.message
          let invocation ← Invocation.new {
            policyDecisionId, runtimePrincipalId, status, usage, estimatedCost
            id := row.id
            tenantId := row.tenantId
            agentId := row.agentId
            modelId := row.modelId
            inputText := row.inputText
            outputText := row.outputText.map Str.ofString
            startedAt := row.startedAt
            completedAt := row.completedAt
            durationMs := row.durationMs
            providerResponseId := row.providerResponseId.map Str.ofString
            usageConsumedUnits := row.usageConsumedUnits
            usageLimitUnits := row.usageLimitUnits
            usageAllowanceUnits := row.usageAllowanceUnits
            usageWindowStart := row.usageWindowStart
            usageWindowEnd := row.usageWindowEnd
            costBudgetConsumed := row.costBudgetConsumed.map (numericValue 12)
            costBudgetLimit := row.costBudgetLimit.map (numericValue 12)
            costBudgetAllowance := row.costBudgetAllowance.map (numericValue 12)
            costBudgetWindowStart := row.costBudgetWindowStart
            costBudgetWindowEnd := row.costBudgetWindowEnd }
          return some invocation
  | _, _ => .ok none

end InvocationRow

/-! ## The repository -/

/-- `add` and its flush, as far as the row itself decides. -/
def addInvocation (invocations : Table InvocationRow) (i : Invocation) :
    Except DataError (Table InvocationRow) := do
  let row ← InvocationRow.ofInvocation i
  row.checks
  constraint ⟨⟩ (invocations.find? row.id = none)
  return invocations.insert row

/-- `get`. -/
def getInvocation (invocations : Table InvocationRow) (id : Uuid) :
    Except InvocationError (Option Invocation) :=
  match invocations.find? id with
  | none => .ok none
  | some row => row.toInvocation

end Valor.RuntimeGateway
