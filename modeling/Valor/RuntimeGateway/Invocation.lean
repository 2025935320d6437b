/-
  Runtime gateway: the Invocation, one completed runtime request.

  `postInit` is `__post_init__`: it checks the fields in the order of the source and gives
  them back with the texts it has stripped. An Invocation is what `postInit` leaves as it
  is, so its factories cannot build any other. Timestamps come from a clock in UTC or from
  columns, and are never naive.
-/
import Valor.RuntimeGateway.Usage

namespace Valor.RuntimeGateway

open Python

inductive InvocationStatus where
  | succeeded
  | failed
  | denied
  | limited
  | costLimited
  deriving DecidableEq, Repr

/-- `status.value`. -/
def InvocationStatus.value : InvocationStatus → String
  | succeeded => "succeeded"
  | failed => "failed"
  | denied => "denied"
  | limited => "limited"
  | costLimited => "cost_limited"

/-- `InvocationStatus(value)`. -/
def InvocationStatus.ofValue (value : String) : Option InvocationStatus :=
  [succeeded, failed, denied, limited, costLimited].find? (·.value = value)

@[simp] theorem InvocationStatus.ofValue_value (s : InvocationStatus) : ofValue s.value = some s := by
  cases s <;> decide +kernel

theorem InvocationStatus.value_injective : Function.Injective value := by
  intro a b h
  have hvalue := congrArg ofValue h
  simpa using hvalue

/-- The exceptions of `__post_init__`: `InvalidInvocationInput`, `InvalidInvocationOutput` and
    other ValueErrors. -/
inductive InvocationError where
  | invalidInput (message : String)
  | invalidOutput (message : String)
  | valueError (message : String)
  deriving DecidableEq, Repr

def maxInvocationInputLength : Nat := 10000

def maxProviderResponseIdLength : Nat := 255

def validatedInput (value : String) : Except InvocationError String :=
  let canonical := strip value
  if canonical = "" then .error (.invalidInput "Invocation input must not be empty.")
  else if len canonical > maxInvocationInputLength then
    .error (.invalidInput "Invocation input must be at most 10000 characters.")
  else .ok canonical

structure InvocationFields where
  id : Uuid
  tenantId : Uuid
  agentId : Uuid
  modelId : Uuid
  status : InvocationStatus
  inputText : String
  outputText : Option Str
  startedAt : Utc
  completedAt : Utc
  policyDecisionId : Uuid
  runtimePrincipalId : String
  durationMs : Option Int
  usage : Option InvocationUsage
  providerResponseId : Option Str
  usageConsumedUnits : Option Int
  usageLimitUnits : Option Int
  usageAllowanceUnits : Option Int
  usageWindowStart : Option Utc
  usageWindowEnd : Option Utc
  estimatedCost : Option InvocationCost
  costBudgetConsumed : Option Decimal
  costBudgetLimit : Option Decimal
  costBudgetAllowance : Option Decimal
  costBudgetWindowStart : Option Utc
  costBudgetWindowEnd : Option Utc
  deriving DecidableEq

namespace InvocationFields

variable (i : InvocationFields)

def valueErrorWhen (c : Prop) [Decidable c] (message : String) : Except InvocationError Unit :=
  if c then .error (.valueError message) else .ok ()

def checkIdentity : Except InvocationError Unit := do
  valueErrorWhen (strip i.runtimePrincipalId = "")
    "Invocation runtime principal identity must not be empty."
  valueErrorWhen (i.completedAt.instant < i.startedAt.instant)
    "Invocation completion cannot precede its start."
  valueErrorWhen (i.durationMs.any (· < 0)) "Invocation duration must be a non-negative integer."

/-- The provider response identity, stripped. -/
def checkedResponseId : Except InvocationError (Option Str) :=
  match i.providerResponseId with
  | none => .ok none
  | some value =>
      if value.strip = "" ∨ value.strip.len > maxProviderResponseIdLength then
        .error (.valueError "Provider response identity must be between 1 and 255 characters.")
      else .ok (some value.strip)

def checkOutput : Except InvocationError Unit :=
  if i.status = .succeeded then
    if i.outputText.all fun text : Str => text.strip = "" then
      .error (.invalidOutput "A succeeded Invocation requires text output.")
    else .ok ()
  else if i.outputText.isSome then
    .error (.invalidOutput "A failed, denied, or limited Invocation must not retain output.")
  else .ok ()

def checkUsageEvidence : Except InvocationError Unit :=
  if i.status = .limited then
    match i.usageConsumedUnits, i.usageLimitUnits, i.usageAllowanceUnits, i.usageWindowStart,
        i.usageWindowEnd with
    | some consumed, some limit, some allowance, some start, some «end» => do
        valueErrorWhen (i.usage.isSome ∨ i.providerResponseId.isSome)
          "A limited Invocation cannot contain provider telemetry."
        valueErrorWhen (consumed < 0 ∨ limit ≤ 0 ∨ allowance ≤ 0 ∨ allowance > limit ∨
          consumed + allowance ≤ limit) "Limited Invocation usage evidence is inconsistent."
        valueErrorWhen («end».instant ≤ start.instant)
          "Usage-limit window end must follow its start."
    | _, _, _, _, _ => .error (.valueError "A limited Invocation requires usage-limit evidence.")
  else
    valueErrorWhen (i.usageConsumedUnits.isSome ∨ i.usageLimitUnits.isSome ∨
      i.usageAllowanceUnits.isSome ∨ i.usageWindowStart.isSome ∨ i.usageWindowEnd.isSome)
      "Usage-limit evidence belongs only to a limited Invocation."

/-- The evidence against which the tenant's budget was decided; sums are in the default
    context. -/
def checkCostEvidence : Except InvocationError Unit :=
  if i.status = .costLimited then
    match i.costBudgetConsumed, i.costBudgetLimit, i.costBudgetAllowance, i.costBudgetWindowStart,
        i.costBudgetWindowEnd with
    | some consumed, some limit, some allowance, some start, some «end» => do
        valueErrorWhen (consumed < 0 ∨ limit ≤ 0 ∨ allowance ≤ 0 ∨ limit < allowance ∨
          consumed.add Decimal.defaultPrec allowance ≤ limit)
          "Cost-limited Invocation budget evidence is inconsistent."
        valueErrorWhen («end».instant ≤ start.instant)
          "Cost-budget window end must follow its start."
        valueErrorWhen (i.usage.isSome ∨ i.providerResponseId.isSome)
          "A cost-limited Invocation cannot contain provider telemetry."
    | _, _, _, _, _ => .error (.valueError "A cost-limited Invocation requires cost-budget evidence.")
  else
    valueErrorWhen (i.costBudgetConsumed.isSome ∨ i.costBudgetLimit.isSome ∨
      i.costBudgetAllowance.isSome ∨ i.costBudgetWindowStart.isSome ∨ i.costBudgetWindowEnd.isSome)
      "Cost-budget evidence belongs only to a cost-limited Invocation."

def checkEstimatedCost : Except InvocationError Unit :=
  if i.estimatedCost.isSome then do
    valueErrorWhen (i.status ≠ .succeeded)
      "Estimated cost belongs only to a succeeded Invocation."
    valueErrorWhen (¬(i.usage.any fun u => u.inputUnits.isSome && u.outputUnits.isSome))
      "Estimated cost requires input and output usage."
  else .ok ()

def postInit : Except InvocationError InvocationFields := do
  let inputText ← validatedInput i.inputText
  i.checkIdentity
  let providerResponseId ← i.checkedResponseId
  i.checkOutput
  i.checkUsageEvidence
  i.checkCostEvidence
  i.checkEstimatedCost
  return { i with inputText, providerResponseId }

end InvocationFields

/-- The fields of an Invocation: what `__post_init__` accepts and leaves as it is. -/
structure Invocation extends InvocationFields where
  accepted : toInvocationFields.postInit = .ok toInvocationFields
  deriving DecidableEq

theorem validatedInput_ok {value text : String} (h : validatedInput value = .ok text) :
    text = strip value ∧ text ≠ "" ∧ len text ≤ maxInvocationInputLength := by
  unfold validatedInput at h
  dsimp only at h
  split at h
  · cases h
  · next hne =>
    split at h
    · cases h
    · next hlen =>
      cases h
      exact ⟨rfl, hne, by omega⟩

theorem validatedInput_idem {value text : String} (h : validatedInput value = .ok text) :
    validatedInput text = .ok text := by
  obtain ⟨rfl, hne, hlen⟩ := validatedInput_ok h
  have hnot : ¬len (strip value) > maxInvocationInputLength := by omega
  simp only [validatedInput, strip_strip, if_neg hne, if_neg hnot]

theorem InvocationFields.checkedResponseId_ok {i : InvocationFields} {id : Option Str}
    (h : i.checkedResponseId = .ok id) :
    id = i.providerResponseId.map Str.strip ∧
      ∀ value ∈ id, value ≠ "" ∧ value.strip = value ∧ value.len ≤ maxProviderResponseIdLength := by
  unfold checkedResponseId at h
  split at h
  · next hnone =>
    cases h
    simp [hnone]
  · next value hsome =>
    split at h
    · cases h
    · next hok =>
      cases h
      obtain ⟨hne, hlen⟩ := not_or.mp hok
      refine ⟨by rw [hsome]; rfl, ?_⟩
      rintro _ ⟨⟩
      exact ⟨hne, Str.strip_strip value, by omega⟩

theorem InvocationFields.checkedResponseId_of {i : InvocationFields}
    (h : ∀ value ∈ i.providerResponseId,
      value ≠ "" ∧ value.strip = value ∧ value.len ≤ maxProviderResponseIdLength) :
    i.checkedResponseId = .ok i.providerResponseId := by
  unfold checkedResponseId
  cases hid : i.providerResponseId with
  | none => rfl
  | some value =>
    obtain ⟨hne, hstrip, hlen⟩ := h value hid
    have hnot : ¬(value.strip = "" ∨ value.strip.len > maxProviderResponseIdLength) := by
      rw [hstrip]
      exact not_or.mpr ⟨hne, by omega⟩
    dsimp only
    rw [if_neg hnot, hstrip]

/-- The checks of the other fields do not see what `postInit` has stripped. -/
theorem InvocationFields.postInit_idem {i j : InvocationFields} (h : i.postInit = .ok j) :
    j.postInit = .ok j := by
  unfold postInit at h
  obtain ⟨text, htext, h⟩ := Except.bind_ok_cases h
  obtain ⟨_, hidentity, h⟩ := Except.bind_ok_cases h
  obtain ⟨response, hresponse, h⟩ := Except.bind_ok_cases h
  obtain ⟨_, houtput, h⟩ := Except.bind_ok_cases h
  obtain ⟨_, husage, h⟩ := Except.bind_ok_cases h
  obtain ⟨_, hcost, h⟩ := Except.bind_ok_cases h
  obtain ⟨_, hestimated, h⟩ := Except.bind_ok_cases h
  cases h
  obtain ⟨rfl, hvalues⟩ := checkedResponseId_ok hresponse
  unfold postInit
  refine Except.bind_eq_ok (validatedInput_idem htext) ?_
  refine Except.bind_eq_ok (a := ()) hidentity ?_
  refine Except.bind_eq_ok (a := i.providerResponseId.map Str.strip) (checkedResponseId_of hvalues) ?_
  refine Except.bind_eq_ok (a := ()) houtput ?_
  refine Except.bind_eq_ok (a := ()) ?_ ?_
  · simpa only [checkUsageEvidence, Option.isSome_map] using husage
  refine Except.bind_eq_ok (a := ()) ?_ ?_
  · simpa only [checkCostEvidence, Option.isSome_map] using hcost
  exact Except.bind_eq_ok (a := ()) hestimated rfl

/-- Only the texts change. -/
theorem InvocationFields.postInit_eq {i j : InvocationFields} (h : i.postInit = .ok j) :
    j = { i with
      inputText := strip i.inputText
      providerResponseId := i.providerResponseId.map Str.strip } := by
  unfold postInit at h
  obtain ⟨text, htext, h⟩ := Except.bind_ok_cases h
  obtain ⟨_, _, h⟩ := Except.bind_ok_cases h
  obtain ⟨response, hresponse, h⟩ := Except.bind_ok_cases h
  obtain ⟨_, _, h⟩ := Except.bind_ok_cases h
  obtain ⟨_, _, h⟩ := Except.bind_ok_cases h
  obtain ⟨_, _, h⟩ := Except.bind_ok_cases h
  obtain ⟨_, _, h⟩ := Except.bind_ok_cases h
  cases h
  rw [(validatedInput_ok htext).1, (checkedResponseId_ok hresponse).1]

/-! ## What the checks leave -/

section Accepted

variable {i : InvocationFields}

theorem valueErrorWhen_ok {c : Prop} [Decidable c] {message : String} {u : Unit}
    (h : InvocationFields.valueErrorWhen c message = .ok u) : ¬c := by
  unfold InvocationFields.valueErrorWhen at h
  split at h
  · cases h
  · assumption

/-- An accepted value passes every check. -/
structure InvocationFields.Accepted (i : InvocationFields) : Prop where
  input : validatedInput i.inputText = .ok i.inputText
  identity : i.checkIdentity = .ok ()
  responseId : i.checkedResponseId = .ok i.providerResponseId
  output : i.checkOutput = .ok ()
  usageEvidence : i.checkUsageEvidence = .ok ()
  costEvidence : i.checkCostEvidence = .ok ()
  estimatedCost : i.checkEstimatedCost = .ok ()

theorem InvocationFields.postInit_eq_self : i.postInit = .ok i ↔ i.Accepted := by
  constructor
  · intro h
    unfold postInit at h
    obtain ⟨text, htext, h⟩ := Except.bind_ok_cases h
    obtain ⟨_, hidentity, h⟩ := Except.bind_ok_cases h
    obtain ⟨response, hresponse, h⟩ := Except.bind_ok_cases h
    obtain ⟨_, houtput, h⟩ := Except.bind_ok_cases h
    obtain ⟨_, husage, h⟩ := Except.bind_ok_cases h
    obtain ⟨_, hcost, h⟩ := Except.bind_ok_cases h
    obtain ⟨_, hestimated, h⟩ := Except.bind_ok_cases h
    have hfields : ({ i with
        inputText := text
        providerResponseId := response } : InvocationFields) = i :=
      Except.ok.inj h
    have htext' : text = i.inputText := congrArg InvocationFields.inputText hfields
    have hresponse' : response = i.providerResponseId :=
      congrArg InvocationFields.providerResponseId hfields
    subst htext' hresponse'
    exact ⟨htext, hidentity, hresponse, houtput, husage, hcost, hestimated⟩
  · rintro ⟨htext, hidentity, hresponse, houtput, husage, hcost, hestimated⟩
    unfold postInit
    refine Except.bind_eq_ok htext ?_
    refine Except.bind_eq_ok hidentity ?_
    refine Except.bind_eq_ok hresponse ?_
    refine Except.bind_eq_ok houtput ?_
    refine Except.bind_eq_ok husage ?_
    refine Except.bind_eq_ok hcost ?_
    exact Except.bind_eq_ok hestimated rfl

theorem InvocationFields.checkIdentity_ok (h : i.checkIdentity = .ok ()) :
    strip i.runtimePrincipalId ≠ "" ∧ i.startedAt.instant ≤ i.completedAt.instant ∧
      ∀ ms ∈ i.durationMs, 0 ≤ ms := by
  unfold checkIdentity at h
  obtain ⟨_, hprincipal, h⟩ := Except.bind_ok_cases h
  obtain ⟨_, hcompleted, hduration⟩ := Except.bind_ok_cases h
  have hcompleted := valueErrorWhen_ok hcompleted
  have hduration := valueErrorWhen_ok hduration
  refine ⟨valueErrorWhen_ok hprincipal, not_lt.mp hcompleted, ?_⟩
  intro ms hms
  rw [Option.mem_def.mp hms] at hduration
  simpa using hduration

/-- Only a succeeded Invocation has output. -/
theorem InvocationFields.checkOutput_ok (h : i.checkOutput = .ok ()) :
    i.outputText.isSome ↔ i.status = .succeeded := by
  unfold checkOutput at h
  split at h
  · next hs =>
    split at h
    · cases h
    · next hall =>
      have hsome : i.outputText.isSome := by
        cases htext : i.outputText with
        | none => simp [htext] at hall
        | some text => rfl
      simp [hs, hsome]
  · next hs =>
    split at h
    · cases h
    · next hnone => simp [hs, hnone]

/-- The usage evidence of a limited Invocation shows the limit exceeded; no other has any. -/
theorem InvocationFields.checkUsageEvidence_ok (h : i.checkUsageEvidence = .ok ()) :
    (i.status = .limited ∧ i.usage = none ∧ i.providerResponseId = none ∧
      ∃ consumed limit allowance start «end», i.usageConsumedUnits = some consumed ∧
        i.usageLimitUnits = some limit ∧ i.usageAllowanceUnits = some allowance ∧
        i.usageWindowStart = some start ∧ i.usageWindowEnd = some «end» ∧ 0 ≤ consumed ∧
        0 < limit ∧ 0 < allowance ∧ allowance ≤ limit ∧ limit < consumed + allowance) ∨
    (i.status ≠ .limited ∧ i.usageConsumedUnits = none ∧ i.usageLimitUnits = none ∧
      i.usageAllowanceUnits = none ∧ i.usageWindowStart = none ∧ i.usageWindowEnd = none) := by
  unfold checkUsageEvidence at h
  split at h
  · next hs =>
    split at h
    · next consumed limit allowance start «end» hc hl ha hstart hend =>
      obtain ⟨_, htelemetry, h⟩ := Except.bind_ok_cases h
      obtain ⟨_, hevidence, _⟩ := Except.bind_ok_cases h
      have htelemetry := valueErrorWhen_ok htelemetry
      have hevidence := valueErrorWhen_ok hevidence
      simp only [not_or, Option.not_isSome_iff_eq_none, not_lt, not_le] at htelemetry hevidence
      exact .inl ⟨hs, htelemetry.1, htelemetry.2, consumed, limit, allowance, start, «end», hc, hl, ha,
        hstart, hend, hevidence.1, hevidence.2.1, hevidence.2.2.1, hevidence.2.2.2.1,
        hevidence.2.2.2.2⟩
    · cases h
  · next hs =>
    have hnone := valueErrorWhen_ok h
    simp only [not_or, Option.not_isSome_iff_eq_none] at hnone
    exact .inr ⟨hs, hnone⟩

/-- The budget evidence of a cost-limited Invocation, with the sum of the default context. -/
theorem InvocationFields.checkCostEvidence_ok (h : i.checkCostEvidence = .ok ()) :
    (i.status = .costLimited ∧ i.usage = none ∧ i.providerResponseId = none ∧
      ∃ consumed limit allowance start «end», i.costBudgetConsumed = some consumed ∧
        i.costBudgetLimit = some limit ∧ i.costBudgetAllowance = some allowance ∧
        i.costBudgetWindowStart = some start ∧ i.costBudgetWindowEnd = some «end» ∧
        ¬consumed < 0 ∧ ¬limit ≤ 0 ∧ ¬allowance ≤ 0 ∧ ¬limit < allowance ∧
        ¬consumed.add Decimal.defaultPrec allowance ≤ limit ∧ start.instant < «end».instant) ∨
    (i.status ≠ .costLimited ∧ i.costBudgetConsumed = none ∧ i.costBudgetLimit = none ∧
      i.costBudgetAllowance = none ∧ i.costBudgetWindowStart = none ∧
      i.costBudgetWindowEnd = none) := by
  unfold checkCostEvidence at h
  split at h
  · next hs =>
    split at h
    · next consumed limit allowance start «end» hc hl ha hstart hend =>
      obtain ⟨_, hevidence, h⟩ := Except.bind_ok_cases h
      obtain ⟨_, hwindow, htelemetry⟩ := Except.bind_ok_cases h
      have hevidence := valueErrorWhen_ok hevidence
      have hwindow := valueErrorWhen_ok hwindow
      have htelemetry := valueErrorWhen_ok htelemetry
      simp only [not_or, Option.not_isSome_iff_eq_none] at htelemetry hevidence
      exact .inl ⟨hs, htelemetry.1, htelemetry.2, consumed, limit, allowance, start, «end», hc, hl, ha,
        hstart, hend, hevidence.1, hevidence.2.1, hevidence.2.2.1, hevidence.2.2.2.1,
        hevidence.2.2.2.2, not_le.mp hwindow⟩
    · cases h
  · next hs =>
    have hnone := valueErrorWhen_ok h
    simp only [not_or, Option.not_isSome_iff_eq_none] at hnone
    exact .inr ⟨hs, hnone⟩

theorem InvocationFields.checkCostEvidence_of {consumed limit allowance : Decimal}
    {start «end» : Utc} (hs : i.status = .costLimited) (husage : i.usage = none)
    (hresponse : i.providerResponseId = none) (hc : i.costBudgetConsumed = some consumed)
    (hl : i.costBudgetLimit = some limit) (ha : i.costBudgetAllowance = some allowance)
    (hstart : i.costBudgetWindowStart = some start) (hend : i.costBudgetWindowEnd = some «end»)
    (hevidence : ¬consumed < 0 ∧ ¬limit ≤ 0 ∧ ¬allowance ≤ 0 ∧ ¬limit < allowance ∧
      ¬consumed.add Decimal.defaultPrec allowance ≤ limit) (hwindow : start.instant < «end».instant) :
    i.checkCostEvidence = .ok () := by
  obtain ⟨hc0, hl0, ha0, hle, hsum⟩ := hevidence
  have hwindow' : ¬«end».instant ≤ start.instant := not_le.mpr hwindow
  simp only [checkCostEvidence, if_pos hs, hc, hl, ha, hstart, hend, valueErrorWhen, hc0, hl0, ha0,
    hle, hsum, hwindow', husage, hresponse]
  rfl

/-- A cost belongs to a succeeded Invocation with both counts. -/
theorem InvocationFields.checkEstimatedCost_ok (h : i.checkEstimatedCost = .ok ())
    (hcost : i.estimatedCost.isSome) :
    i.status = .succeeded ∧ i.usage.any fun u => u.inputUnits.isSome && u.outputUnits.isSome := by
  unfold checkEstimatedCost at h
  rw [if_pos hcost] at h
  obtain ⟨_, hstatus, husage⟩ := Except.bind_ok_cases h
  exact ⟨not_not.mp (valueErrorWhen_ok hstatus), not_not.mp (valueErrorWhen_ok husage)⟩

end Accepted

namespace Invocation

/-- The constructor. -/
def new (i : InvocationFields) : Except InvocationError Invocation :=
  match h : i.postInit with
  | .ok j => .ok ⟨j, InvocationFields.postInit_idem h⟩
  | .error e => .error e

theorem new_ok {f : InvocationFields} {i : Invocation} (h : new f = .ok i) :
    f.postInit = .ok i.toInvocationFields := by
  unfold new at h
  split at h
  · next j hj =>
    cases h
    exact hj
  · cases h

theorem new_of {f j : InvocationFields} (h : f.postInit = .ok j) :
    new f = .ok ⟨j, InvocationFields.postInit_idem h⟩ := by
  unfold new
  split
  · next j' hj =>
    rw [h] at hj
    cases hj
    rfl
  · next e he =>
    rw [h] at he
    cases he

/-- `_duration_ms`. -/
def elapsedMs (startedAt completedAt : Utc) : Except InvocationError Int :=
  if completedAt.instant < startedAt.instant then
    .error (.valueError "Invocation completion cannot precede its start.")
  else .ok ((completedAt.instant - startedAt.instant) / 1000)

/-- What every factory is given. -/
structure Common where
  invocationId : Uuid
  tenantId : Uuid
  agentId : Uuid
  modelId : Uuid
  inputText : String
  startedAt : Utc
  completedAt : Utc
  policyDecisionId : Uuid
  runtimePrincipalId : String

/-- The fields with the given status and no optional one but the duration. -/
def Common.fields (c : Common) (status : InvocationStatus) (duration : Int) : InvocationFields where
  id := c.invocationId
  tenantId := c.tenantId
  agentId := c.agentId
  modelId := c.modelId
  status := status
  inputText := c.inputText
  outputText := none
  startedAt := c.startedAt
  completedAt := c.completedAt
  policyDecisionId := c.policyDecisionId
  runtimePrincipalId := c.runtimePrincipalId
  durationMs := some duration
  usage := none
  providerResponseId := none
  usageConsumedUnits := none
  usageLimitUnits := none
  usageAllowanceUnits := none
  usageWindowStart := none
  usageWindowEnd := none
  estimatedCost := none
  costBudgetConsumed := none
  costBudgetLimit := none
  costBudgetAllowance := none
  costBudgetWindowStart := none
  costBudgetWindowEnd := none

def succeeded (c : Common) (outputText : Str) (usage : Option InvocationUsage)
    (providerResponseId : Option Str) (estimatedCost : Option InvocationCost) :
    Except InvocationError Invocation := do
  let duration ← elapsedMs c.startedAt c.completedAt
  new { c.fields .succeeded duration with
    outputText := some outputText
    usage
    providerResponseId
    estimatedCost }

def failed (c : Common) : Except InvocationError Invocation := do
  let duration ← elapsedMs c.startedAt c.completedAt
  new (c.fields .failed duration)

def denied (c : Common) : Except InvocationError Invocation := do
  let duration ← elapsedMs c.startedAt c.completedAt
  new (c.fields .denied duration)

def limited (c : Common) (consumedUnits limitUnits allowanceUnits : Int) (window : UsageWindow) :
    Except InvocationError Invocation := do
  let duration ← elapsedMs c.startedAt c.completedAt
  new { c.fields .limited duration with
    usageConsumedUnits := some consumedUnits
    usageLimitUnits := some limitUnits
    usageAllowanceUnits := some allowanceUnits
    usageWindowStart := some window.start
    usageWindowEnd := some window.end }

def costLimited (c : Common) (consumed limit allowance : Decimal) (window : UsageWindow) :
    Except InvocationError Invocation := do
  let duration ← elapsedMs c.startedAt c.completedAt
  new { c.fields .costLimited duration with
    costBudgetConsumed := some consumed
    costBudgetLimit := some limit
    costBudgetAllowance := some allowance
    costBudgetWindowStart := some window.start
    costBudgetWindowEnd := some window.end }

end Invocation

end Valor.RuntimeGateway
