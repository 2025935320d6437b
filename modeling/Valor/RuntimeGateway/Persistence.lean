/-
  What the repository writes it reads back.

  The handler builds every Invocation with one of the five factories (`Built`). Where its
  values fit their columns (`Storable`) and UTF-8 encodes its texts (`Encoded`) the row passes
  every check of the table, and `get` gives the same Invocation again: all fields as they were,
  money as the same value, and no usage for a usage without counts.
-/
import Valor.Python.DecimalValue
import Valor.RuntimeGateway.Repository
import Valor.Settings

namespace Valor.RuntimeGateway

open Python Decimal Postgres Settings

/-! ## Columns -/

theorem divHalfAway_mul (q : Int) {d : Nat} (hd : 0 < d) : divHalfAway (q * d) d = q := by
  have habs : (q * d).natAbs = q.natAbs * d := by rw [Int.natAbs_mul, Int.natAbs_natCast]
  have hsign : (q * d).sign = q.sign := by
    rw [Int.sign_mul, Int.sign_natCast_of_ne_zero (by omega), mul_one]
  unfold divHalfAway
  dsimp only
  rw [habs, hsign, Nat.mul_div_cancel _ hd, Nat.mul_mod_left, if_pos (by omega)]
  exact Int.sign_mul_natAbs q

/-- The value in units of the last of so many decimals. -/
def unitsAt (places : Nat) (a : Decimal) : Int := (a.atPlaces places).getD 0

theorem numeric_of_fits {precision scale : Nat} {a : Decimal} (h : a.Fits precision scale) :
    numeric precision scale a = .ok (unitsAt scale a) ∧
      (numericValue scale (unitsAt scale a)).toRat = a.toRat ∧
      (unitsAt scale a).natAbs < 10 ^ precision := by
  obtain ⟨n, hn, hlt⟩ := fits_iff.mp h
  have hunits : a.atPlaces scale = some n := atPlaces_eq_some.mpr hn
  have hat : unitsAt scale a = n := by rw [unitsAt, hunits, Option.getD_some]
  have hcolumn : (if (-scale : ℤ) ≤ a.exponent then a.scaled (-scale)
      else divHalfAway a.coefficient (10 ^ (-scale - a.exponent).toNat)) = n := by
    unfold atPlaces at hunits
    dsimp only at hunits
    split at hunits
    · next he =>
      rw [if_pos he]
      exact Option.some.inj hunits
    · next he =>
      rw [if_neg he]
      split at hunits
      · next hmod =>
        obtain ⟨q, hq⟩ := Int.dvd_of_emod_eq_zero hmod
        rw [← Option.some.inj hunits, hq, Int.mul_ediv_cancel_left _ (by positivity), mul_comm]
        exact_mod_cast divHalfAway_mul q (d := 10 ^ (-scale - a.exponent).toNat) (by positivity)
      · cases hunits
  refine ⟨?_, ?_, hat ▸ hlt⟩
  · unfold numeric
    dsimp only
    rw [hcolumn, if_pos hlt, hat]
  · rw [hat, hn]
    rfl

theorem mapM_ok {ε α β : Type} {f : α → Except ε β} {g : α → β} {x : Option α}
    (h : ∀ a ∈ x, f a = .ok (g a)) : x.mapM f = .ok (x.map g) := by
  cases x with
  | none => rfl
  | some a =>
    rw [Option.mapM_some, h a rfl]
    rfl

theorem mapM_ok_self {ε α : Type} {f : α → Except ε α} {x : Option α}
    (h : ∀ a ∈ x, f a = .ok a) : x.mapM f = .ok x := by
  simpa using mapM_ok (g := id) h

theorem varchar_of {n : Nat} {s : String} (h : hasNul s = false) (hlen : len s ≤ n) :
    varchar n s = .ok s := by
  rw [varchar, if_neg (by simp [h]), if_pos hlen]

theorem integer_of {n : Int} (h : FitsInteger n) : integer n = .ok n := if_pos h

/-! ## Invocations of the handler -/

/-- What the handler builds, for the runtime principal of a request. -/
inductive Built : Invocation → Prop
  | denied {principal : RuntimePrincipalSettings} {c : Invocation.Common} {i : Invocation}
      (hp : c.runtimePrincipalId = principal.principalId) (hi : Invocation.denied c = .ok i) :
      Built i
  | limited {principal : RuntimePrincipalSettings} {c : Invocation.Common} {i : Invocation}
      {consumed : Int} {window : UsageWindow} {d : UsageLimitDecision}
      (hp : c.runtimePrincipalId = principal.principalId)
      (hw : utcDayWindow c.startedAt = .ok window)
      (hd : decideUsageLimit consumed principal.usageLimit principal.perInvocationAllowance window =
        .ok d) (hnot : d.allowed = false)
      (hi : Invocation.limited c d.consumedUnits d.limitUnits d.allowanceUnits d.window = .ok i) :
      Built i
  | costLimited {principal : RuntimePrincipalSettings} {c : Invocation.Common} {i : Invocation}
      {cost : Decimal} {budget : TenantCostBudget} {window : UsageWindow}
      {d : TenantCostBudgetDecision} (hp : c.runtimePrincipalId = principal.principalId)
      (hw : utcDayWindow c.startedAt = .ok window)
      (hd : decideTenantCostBudget cost budget window = .ok d) (hnot : d.allowed = false)
      (hi : Invocation.costLimited c d.attributedCost d.budget d.allowance window = .ok i) : Built i
  | failed {principal : RuntimePrincipalSettings} {c : Invocation.Common} {i : Invocation}
      (hp : c.runtimePrincipalId = principal.principalId) (hi : Invocation.failed c = .ok i) :
      Built i
  | succeeded {principal : RuntimePrincipalSettings} {c : Invocation.Common} {i : Invocation}
      {outputText : Str} {usage : Option InvocationUsage} {responseId : Option Str}
      {pricing : Option PricingSnapshot} {cost : Option InvocationCost}
      (hp : c.runtimePrincipalId = principal.principalId)
      (hc : attributeCost usage pricing = .ok cost)
      (hi : Invocation.succeeded c outputText usage responseId cost = .ok i) : Built i

/-- What the factories take over and no check of the Invocation repeats. -/
structure Carried (i : InvocationFields) : Prop where
  principal : len i.runtimePrincipalId ≤ 255
  pricing : ∀ cost ∈ i.estimatedCost, len cost.pricingVersion ≤ 255 ∧ 0 < cost.pricingBasisUnits ∧
    0 ≤ cost.pricingInputRate ∧ 0 ≤ cost.pricingOutputRate

theorem attributeCost_ok {usage : Option InvocationUsage} {pricing : Option PricingSnapshot}
    {cost : InvocationCost} (h : attributeCost usage pricing = .ok (some cost)) :
    len cost.pricingVersion ≤ 255 ∧ 0 < cost.pricingBasisUnits ∧ 0 ≤ cost.pricingInputRate ∧
      0 ≤ cost.pricingOutputRate := by
  unfold attributeCost at h
  split at h
  · next pricing =>
    obtain ⟨input, _, h⟩ := Except.bind_ok_cases h
    obtain ⟨output, _, h⟩ := Except.bind_ok_cases h
    obtain ⟨cost', hcost, h⟩ := Except.bind_ok_cases h
    cases h
    cases hnew : InvocationCost.new pricing.currency input output (input.add defaultPrec output)
        pricing.version pricing.basisUnits pricing.inputRate pricing.outputRate with
    | error e =>
      rw [hnew] at hcost
      cases hcost
    | ok cost'' =>
      rw [hnew] at hcost
      cases hcost
      unfold InvocationCost.new at hnew
      split_ifs at hnew
      cases hnew
      exact ⟨pricing.version_length.2, pricing.rates⟩
  · cases h

theorem Built.carried {i : Invocation} (h : Built i) : Carried i.toInvocationFields := by
  have hfields : ∀ {f : InvocationFields}, Invocation.new f = .ok i →
      i.runtimePrincipalId = f.runtimePrincipalId ∧ i.estimatedCost = f.estimatedCost := by
    intro f hf
    have heq := InvocationFields.postInit_eq (Invocation.new_ok hf)
    rw [heq]
    exact ⟨rfl, rfl⟩
  have hnone : ∀ {principal : RuntimePrincipalSettings} {f : InvocationFields},
      Invocation.new f = .ok i → f.runtimePrincipalId = principal.principalId →
      f.estimatedCost = none → Carried i.toInvocationFields := by
    intro principal f hf hp hcost
    obtain ⟨hid, hsame⟩ := hfields hf
    refine ⟨?_, ?_⟩
    · rw [hid, hp]
      exact principal.principalId_length.2
    · rw [hsame, hcost]
      rintro _ ⟨⟩
  cases h with
  | denied hp hi =>
    obtain ⟨ms, _, hi⟩ := Except.bind_ok_cases hi
    exact hnone hi hp rfl
  | limited hp _ _ _ hi =>
    obtain ⟨ms, _, hi⟩ := Except.bind_ok_cases hi
    exact hnone hi hp rfl
  | costLimited hp _ _ _ hi =>
    obtain ⟨ms, _, hi⟩ := Except.bind_ok_cases hi
    exact hnone hi hp rfl
  | failed hp hi =>
    obtain ⟨ms, _, hi⟩ := Except.bind_ok_cases hi
    exact hnone hi hp rfl
  | @succeeded principal _ _ _ _ _ _ _ hp hc hi =>
    obtain ⟨ms, _, hi⟩ := Except.bind_ok_cases hi
    obtain ⟨hid, hsame⟩ := hfields hi
    refine ⟨?_, ?_⟩
    · rw [hid]
      exact (congrArg len hp).trans_le principal.principalId_length.2
    · rw [hsame]
      rintro cost rfl
      exact attributeCost_ok hc

/-! ## The row -/

/-- The values fit their columns: integers of 32 bits, texts without U+0000, money with at
    most 16 digits before the point. -/
structure Storable (i : InvocationFields) : Prop where
  inputText : hasNul i.inputText = false
  outputText : ∀ s ∈ i.outputText, s.hasNul = false
  runtimePrincipalId : hasNul i.runtimePrincipalId = false
  providerResponseId : ∀ s ∈ i.providerResponseId, s.hasNul = false
  durationMs : ∀ n ∈ i.durationMs, FitsInteger n
  inputUnits : ∀ n ∈ i.usage.bind (·.inputUnits), FitsInteger n
  outputUnits : ∀ n ∈ i.usage.bind (·.outputUnits), FitsInteger n
  totalUnits : ∀ n ∈ i.usage.bind (·.totalUnits), FitsInteger n
  usageConsumedUnits : ∀ n ∈ i.usageConsumedUnits, FitsInteger n
  usageLimitUnits : ∀ n ∈ i.usageLimitUnits, FitsInteger n
  usageAllowanceUnits : ∀ n ∈ i.usageAllowanceUnits, FitsInteger n
  usageSum : ∀ n ∈ i.usageConsumedUnits, ∀ m ∈ i.usageAllowanceUnits, FitsInteger (n + m)
  pricingVersion : ∀ cost ∈ i.estimatedCost, hasNul cost.pricingVersion = false
  pricingBasisUnits : ∀ cost ∈ i.estimatedCost, FitsInteger cost.pricingBasisUnits
  cost : ∀ cost ∈ i.estimatedCost, cost.inputCost.Fits 28 12 ∧ cost.outputCost.Fits 28 12 ∧
    cost.totalCost.Fits 28 12
  rates : ∀ cost ∈ i.estimatedCost, cost.pricingInputRate.Fits 18 12 ∧
    cost.pricingOutputRate.Fits 18 12
  costBudgetConsumed : ∀ a ∈ i.costBudgetConsumed, a.Fits 28 12
  costBudgetLimit : ∀ a ∈ i.costBudgetLimit, a.Fits 28 12
  costBudgetAllowance : ∀ a ∈ i.costBudgetAllowance, a.Fits 28 12

/-- The texts of the provider have no lone surrogate. -/
structure Encoded (i : InvocationFields) : Prop where
  outputText : ∀ s ∈ i.outputText, s.hasSurrogate = false
  providerResponseId : ∀ s ∈ i.providerResponseId, s.hasSurrogate = false

theorem Fits.mono {digits digits' places : Nat} {a : Decimal} (hle : digits ≤ digits')
    (h : a.Fits digits places) : a.Fits digits' places := by
  obtain ⟨n, hn, hlt⟩ := fits_iff.mp h
  exact fits_iff.mpr ⟨n, hn, hlt.trans_le (Nat.pow_le_pow_right (by decide) hle)⟩

/-- The row of an Invocation whose values fit. -/
def storedRow (i : InvocationFields) : InvocationRow where
  id := i.id
  tenantId := i.tenantId
  agentId := i.agentId
  modelId := i.modelId
  status := i.status.value
  inputText := i.inputText
  outputText := i.outputText.map Str.scalars
  startedAt := i.startedAt
  completedAt := i.completedAt
  policyDecisionId := some i.policyDecisionId
  runtimePrincipalId := some i.runtimePrincipalId
  durationMs := i.durationMs
  inputUnits := i.usage.bind (·.inputUnits)
  outputUnits := i.usage.bind (·.outputUnits)
  totalUnits := i.usage.bind (·.totalUnits)
  providerResponseId := i.providerResponseId.map Str.scalars
  usageConsumedUnits := i.usageConsumedUnits
  usageLimitUnits := i.usageLimitUnits
  usageAllowanceUnits := i.usageAllowanceUnits
  usageWindowStart := i.usageWindowStart
  usageWindowEnd := i.usageWindowEnd
  costCurrency := i.estimatedCost.map (·.currency)
  costInput := i.estimatedCost.map fun cost => unitsAt 12 cost.inputCost
  costOutput := i.estimatedCost.map fun cost => unitsAt 12 cost.outputCost
  costTotal := i.estimatedCost.map fun cost => unitsAt 12 cost.totalCost
  pricingVersion := i.estimatedCost.map (·.pricingVersion)
  pricingBasisUnits := i.estimatedCost.map (·.pricingBasisUnits)
  pricingInputRate := i.estimatedCost.map fun cost => unitsAt 12 cost.pricingInputRate
  pricingOutputRate := i.estimatedCost.map fun cost => unitsAt 12 cost.pricingOutputRate
  costBudgetConsumed := i.costBudgetConsumed.map (unitsAt 12)
  costBudgetLimit := i.costBudgetLimit.map (unitsAt 12)
  costBudgetAllowance := i.costBudgetAllowance.map (unitsAt 12)
  costBudgetWindowStart := i.costBudgetWindowStart
  costBudgetWindowEnd := i.costBudgetWindowEnd

/-- The columns of a part of the cost. -/
theorem mapM_cost {α β : Type} {cost : Option InvocationCost} {part : InvocationCost → α}
    {f : α → Except DataError β} {g : α → β} (h : ∀ c ∈ cost, f (part c) = .ok (g (part c))) :
    (cost.map part).mapM f = .ok (cost.map fun c => g (part c)) := by
  cases cost with
  | none => rfl
  | some c =>
    rw [Option.map_some, Option.mapM_some, h c rfl]
    rfl

theorem mapM_cost_self {α : Type} {cost : Option InvocationCost} {part : InvocationCost → α}
    {f : α → Except DataError α} (h : ∀ c ∈ cost, f (part c) = .ok (part c)) :
    (cost.map part).mapM f = .ok (cost.map part) :=
  mapM_cost (g := id) h

theorem InvocationRow.ofInvocation_eq {i : Invocation} (hs : Storable i.toInvocationFields)
    (hen : Encoded i.toInvocationFields) (hc : Carried i.toInvocationFields) :
    ofInvocation i = .ok (storedRow i.toInvocationFields) := by
  have hresponse := (InvocationFields.postInit_eq_self.mp i.accepted).responseId
  have hlength := (InvocationFields.checkedResponseId_ok hresponse).2
  unfold ofInvocation
  refine Except.bind_eq_ok (text_of hs.inputText) ?_
  refine Except.bind_eq_ok (mapM_ok fun s h => utf8_then_of (hen.outputText s h)
    (text_of ((Str.hasNul_scalars s).trans (hs.outputText s h)))) ?_
  refine Except.bind_eq_ok (varchar_of hs.runtimePrincipalId hc.principal) ?_
  refine Except.bind_eq_ok (mapM_ok_self fun n h => integer_of (hs.durationMs n h)) ?_
  refine Except.bind_eq_ok (mapM_ok_self fun n h => integer_of (hs.inputUnits n h)) ?_
  refine Except.bind_eq_ok (mapM_ok_self fun n h => integer_of (hs.outputUnits n h)) ?_
  refine Except.bind_eq_ok (mapM_ok_self fun n h => integer_of (hs.totalUnits n h)) ?_
  refine Except.bind_eq_ok (mapM_ok fun s h => utf8_then_of (hen.providerResponseId s h)
    (varchar_of ((Str.hasNul_scalars s).trans (hs.providerResponseId s h))
      ((Str.len_scalars (hen.providerResponseId s h)).trans_le (hlength s h).2.2))) ?_
  refine Except.bind_eq_ok (mapM_ok_self fun n h => integer_of (hs.usageConsumedUnits n h)) ?_
  refine Except.bind_eq_ok (mapM_ok_self fun n h => integer_of (hs.usageLimitUnits n h)) ?_
  refine Except.bind_eq_ok (mapM_ok_self fun n h => integer_of (hs.usageAllowanceUnits n h)) ?_
  refine Except.bind_eq_ok (mapM_cost_self fun c _ => by rw [c.usd]; decide +kernel) ?_
  refine Except.bind_eq_ok (mapM_cost fun c h =>
    (numeric_of_fits (Fits.mono (by decide) (hs.cost c h).1)).1) ?_
  refine Except.bind_eq_ok (mapM_cost fun c h =>
    (numeric_of_fits (Fits.mono (by decide) (hs.cost c h).2.1)).1) ?_
  refine Except.bind_eq_ok (mapM_cost fun c h =>
    (numeric_of_fits (Fits.mono (by decide) (hs.cost c h).2.2)).1) ?_
  refine Except.bind_eq_ok (mapM_cost_self fun c h =>
    varchar_of (hs.pricingVersion c h) (hc.pricing c h).1) ?_
  refine Except.bind_eq_ok (mapM_cost_self fun c h => integer_of (hs.pricingBasisUnits c h)) ?_
  refine Except.bind_eq_ok (mapM_cost fun c h => (numeric_of_fits (hs.rates c h).1).1) ?_
  refine Except.bind_eq_ok (mapM_cost fun c h => (numeric_of_fits (hs.rates c h).2).1) ?_
  refine Except.bind_eq_ok (mapM_ok fun a h =>
    (numeric_of_fits (Fits.mono (by decide) (hs.costBudgetConsumed a h))).1) ?_
  refine Except.bind_eq_ok (mapM_ok fun a h =>
    (numeric_of_fits (Fits.mono (by decide) (hs.costBudgetLimit a h))).1) ?_
  exact Except.bind_eq_ok (mapM_ok fun a h =>
    (numeric_of_fits (Fits.mono (by decide) (hs.costBudgetAllowance a h))).1) rfl

/-! ## The checks -/

section Checks

variable {i : InvocationFields} (ha : i.Accepted) (hs : Storable i) (hc : Carried i)

theorem statusIs_satisfied (status : InvocationStatus) :
    ((storedRow i).statusIs status.value).Satisfied ↔ i.status = status := by
  simp [InvocationRow.statusIs, storedRow, InvocationStatus.value_injective.eq_iff]

theorem statusIsNot_satisfied (status : InvocationStatus) :
    ((storedRow i).statusIsNot status.value).Satisfied ↔ i.status ≠ status := by
  simp [InvocationRow.statusIsNot, storedRow, InvocationStatus.value_injective.eq_iff]

theorem unitsAt_nonneg {digits places : Nat} {a : Decimal} (hf : a.Fits digits places)
    (h : 0 ≤ a) : 0 ≤ unitsAt places a := by
  obtain ⟨n, hn, _⟩ := fits_iff.mp hf
  have hpos : (0 : ℚ) < 10 ^ (-places : ℤ) := by positivity
  rw [le_iff_toRat, toRat_zero, hn] at h
  rw [unitsAt, atPlaces_eq_some.mpr hn, Option.getD_some]
  exact_mod_cast nonneg_of_mul_nonneg_left h hpos

/-- A value in units of its column. -/
theorem toRat_eq_unitsAt {digits places : Nat} {a : Decimal} (hf : a.Fits digits places) :
    a.toRat = unitsAt places a * 10 ^ (-places : ℤ) :=
  (numeric_of_fits hf).2.1.symm

theorem unitsAt_lt {digits places : Nat} {a : Decimal} (hf : a.Fits digits places) :
    unitsAt places a < 10 ^ digits := by
  have hlt := (numeric_of_fits hf).2.2
  zify at hlt
  exact (le_abs_self _).trans_lt hlt

theorem le_iff_unitsAt {digits digits' places : Nat} {a b : Decimal} (ha : a.Fits digits places)
    (hb : b.Fits digits' places) : a ≤ b ↔ unitsAt places a ≤ unitsAt places b := by
  have hpos : (0 : ℚ) < 10 ^ (-places : ℤ) := by positivity
  rw [le_iff_toRat, toRat_eq_unitsAt ha, toRat_eq_unitsAt hb, mul_le_mul_iff_left₀ hpos,
    Int.cast_le]

/-- With at most 16 digits before the point the default context decides as exact sums do. -/
theorem add_le_iff_unitsAt {a b l : Decimal} (ha : a.Fits 28 12) (hb : b.Fits 28 12)
    (hl : l.Fits 28 12) (ha0 : 0 ≤ a) (hb0 : 0 ≤ b) :
    a.add defaultPrec b ≤ l ↔ unitsAt 12 a + unitsAt 12 b ≤ unitsAt 12 l :=
  add_le_iff (by decide) (toRat_eq_unitsAt ha) (toRat_eq_unitsAt hb) (toRat_eq_unitsAt hl)
    (add_nonneg (unitsAt_nonneg ha ha0) (unitsAt_nonneg hb hb0)) (unitsAt_lt hl)

include ha in
theorem storedRow_statusOutput : (storedRow i).ckStatusOutput.Satisfied := by
  have houtput := InvocationFields.checkOutput_ok ha.output
  have hmem : (storedRow i).status ∈ ["failed", "denied", "limited", "cost_limited"] ↔
      i.status ≠ .succeeded := by
    show i.status.value ∈ _ ↔ _
    cases i.status <;> decide +kernel
  simp only [InvocationRow.ckStatusOutput, Sql.Truth.satisfied_or, Sql.Truth.satisfied_and,
    Sql.satisfied_isNotNull, Sql.satisfied_isNull, Sql.Truth.satisfied_ofBool, decide_eq_true_eq,
    hmem]
  by_cases hstatus : i.status = .succeeded
  · refine .inl ⟨(statusIs_satisfied .succeeded).mpr hstatus, ?_⟩
    simpa [storedRow] using houtput.mpr hstatus
  · refine .inr ⟨hstatus, ?_⟩
    have hnone := mt houtput.mp hstatus
    simpa [storedRow] using hnone

include ha in
theorem storedRow_counts :
    (storedRow i).ckDurationNonNegative.Satisfied ∧
      (storedRow i).ckInputUnitsNonNegative.Satisfied ∧
      (storedRow i).ckOutputUnitsNonNegative.Satisfied ∧
      (storedRow i).ckTotalUnitsNonNegative.Satisfied := by
  have hduration := (InvocationFields.checkIdentity_ok ha.identity).2.2
  refine ⟨?_, ?_, ?_, ?_⟩
  · simpa [InvocationRow.ckDurationNonNegative, storedRow] using hduration
  all_goals
    cases husage : i.usage with
    | none => simp [InvocationRow.ckInputUnitsNonNegative, InvocationRow.ckOutputUnitsNonNegative,
        InvocationRow.ckTotalUnitsNonNegative, storedRow, husage]
    | some usage =>
      have hfits := usage.fits
      simp only [usageFits, Bool.and_eq_true, Option.all_eq_true, decide_eq_true_eq] at hfits
      simp [InvocationRow.ckInputUnitsNonNegative, InvocationRow.ckOutputUnitsNonNegative,
        InvocationRow.ckTotalUnitsNonNegative, storedRow, husage]
      grind

include ha in
theorem storedRow_usageEvidence :
    (storedRow i).ckUsageConsumedNonNegative.Satisfied ∧
      (storedRow i).ckUsageLimitPositive.Satisfied ∧
      (storedRow i).ckUsageAllowancePositive.Satisfied := by
  rcases InvocationFields.checkUsageEvidence_ok ha.usageEvidence with
    ⟨_, _, _, consumed, limit, allowance, _, _, hc, hl, hal, _, _, hc0, hl0, ha0, _⟩ |
    ⟨_, hc, hl, hal, _⟩
  all_goals
    simp [InvocationRow.ckUsageConsumedNonNegative, InvocationRow.ckUsageLimitPositive,
      InvocationRow.ckUsageAllowancePositive, storedRow, hc, hl, hal]
  exact ⟨hc0, hl0, ha0⟩

include ha hs in
theorem storedRow_limitedEvidence :
    ∃ t, (storedRow i).ckLimitedEvidence = .ok t ∧ t.Satisfied := by
  rcases InvocationFields.checkUsageEvidence_ok ha.usageEvidence with
    ⟨hstatus, husage, hresponse, consumed, limit, allowance, start, «end», hc, hl, hal, hstart, hend,
      hc0, hl0, ha0, hle, hlt⟩ | ⟨hstatus, hc, hl, hal, hstart, hend⟩
  · have hsum : InvocationRow.addIntegers (storedRow i).usageConsumedUnits
        (storedRow i).usageAllowanceUnits = .ok (some (consumed + allowance)) := by
      show InvocationRow.addIntegers i.usageConsumedUnits i.usageAllowanceUnits = _
      rw [hc, hal, InvocationRow.addIntegers, integer_of (hs.usageSum _ hc _ hal)]
      rfl
    refine ⟨_, Except.bind_eq_ok hsum rfl, ?_⟩
    have hlimited := (statusIs_satisfied .limited).mpr hstatus
    simp only [Sql.Truth.satisfied_or, Sql.Truth.satisfied_and, and_assoc]
    refine .inl ⟨hlimited, ?_⟩
    simp [storedRow, hc, hl, hal, hstart, hend, husage, hresponse, hle, hlt]
  · have hsum : InvocationRow.addIntegers (storedRow i).usageConsumedUnits
        (storedRow i).usageAllowanceUnits = .ok none := by
      show InvocationRow.addIntegers i.usageConsumedUnits i.usageAllowanceUnits = _
      rw [hc, hal]
      rfl
    refine ⟨_, Except.bind_eq_ok hsum rfl, ?_⟩
    have hnot := (statusIsNot_satisfied .limited).mpr hstatus
    simp only [Sql.Truth.satisfied_or, Sql.Truth.satisfied_and, and_assoc]
    refine .inr ⟨hnot, ?_⟩
    simp [storedRow, hc, hl, hal, hstart, hend]

include hs hc in
theorem storedRow_costSnapshot : (storedRow i).ckCostSnapshotComplete.Satisfied := by
  cases hcost : i.estimatedCost with
  | none =>
    simp only [InvocationRow.ckCostSnapshotComplete, Sql.Truth.satisfied_or]
    refine .inl ?_
    simp [storedRow, hcost]
  | some cost =>
    obtain ⟨_, hbasis, hinputRate, houtputRate⟩ := hc.pricing cost hcost
    obtain ⟨hinput, houtput, htotal⟩ := hs.cost cost hcost
    obtain ⟨hinputRate', houtputRate'⟩ := hs.rates cost hcost
    obtain ⟨hinput0, houtput0, _⟩ := cost.not_negative
    have hsum : unitsAt 12 cost.totalCost = unitsAt 12 cost.inputCost + unitsAt 12 cost.outputCost := by
      have hle := (add_le_iff_unitsAt hinput houtput htotal hinput0 houtput0).mp cost.total_eq.2
      have hprec : 0 < defaultPrec := by decide
      have hexact := toRat_add hprec (a := cost.inputCost) (b := cost.outputCost)
        (n := unitsAt 12 cost.inputCost + unitsAt 12 cost.outputCost) (u := -12) (by
          rw [toRat_eq_unitsAt hinput, toRat_eq_unitsAt houtput]
          push_cast
          ring)
      have hi0 := unitsAt_nonneg hinput hinput0
      have ho0 := unitsAt_nonneg houtput houtput0
      have hlt := unitsAt_lt htotal
      rw [roundDigits_of_lt _ (by decide) (by rw [defaultPrec]; omega)] at hexact
      have htotal' := eq_iff_toRat.mp cost.total_eq
      rw [hexact, toRat_eq_unitsAt htotal] at htotal'
      have hpos : (10 : ℚ) ^ (-12 : ℤ) ≠ 0 := by positivity
      exact_mod_cast mul_right_cancel₀ hpos htotal'
    simp only [InvocationRow.ckCostSnapshotComplete, Sql.Truth.satisfied_or]
    refine .inr ?_
    simp [storedRow, hcost, cost.usd, hbasis, hsum, unitsAt_nonneg hinput hinput0,
      unitsAt_nonneg houtput houtput0, unitsAt_nonneg hinputRate' hinputRate,
      unitsAt_nonneg houtputRate' houtputRate, Sql.combine]

include ha hs in
theorem storedRow_costBudgetEvidence : (storedRow i).ckCostBudgetEvidence.Satisfied := by
  rcases InvocationFields.checkCostEvidence_ok ha.costEvidence with
    ⟨hstatus, husage, hresponse, consumed, limit, allowance, start, «end», hc, hl, hal, hstart, hend,
      hc0, hl0, ha0, hle, hsum, hwindow⟩ | ⟨hstatus, hc, hl, hal, hstart, hend⟩
  · have hcost : i.estimatedCost = none := by
      by_contra hne
      have hsucceeded := (InvocationFields.checkEstimatedCost_ok ha.estimatedCost
        (Option.isSome_iff_ne_none.mpr hne)).1
      rw [hstatus] at hsucceeded
      cases hsucceeded
    have hc' := hs.costBudgetConsumed _ hc
    have hl' := hs.costBudgetLimit _ hl
    have hal' := hs.costBudgetAllowance _ hal
    have hnonneg : ∀ {a : Decimal}, a.Fits 28 12 → ¬a < 0 → 0 ≤ unitsAt 12 a := by
      intro a hfits hneg
      refine unitsAt_nonneg hfits ?_
      rw [lt_iff_toRat, not_lt] at hneg
      exact le_iff_toRat.mpr hneg
    have hpositive : ∀ {a : Decimal}, a.Fits 28 12 → ¬a ≤ 0 → 0 < unitsAt 12 a := by
      intro a hfits hneg
      have hpos : (0 : ℚ) < 10 ^ (-12 : ℤ) := by positivity
      rw [le_iff_toRat, toRat_zero, not_le, toRat_eq_unitsAt hfits] at hneg
      exact_mod_cast pos_of_mul_pos_left hneg hpos.le
    have hconsumed := hnonneg hc' hc0
    have hlimit := hpositive hl' hl0
    have hallowance := hpositive hal' ha0
    have hordered : unitsAt 12 allowance ≤ unitsAt 12 limit := by
      rw [lt_iff_toRat, not_lt] at hle
      exact (le_iff_unitsAt hal' hl').mp (le_iff_toRat.mpr hle)
    have hexceeded : unitsAt 12 limit < unitsAt 12 consumed + unitsAt 12 allowance := by
      have hzero : (0 : Decimal).toRat = 0 := toRat_zero
      have hc0' : (0 : Decimal) ≤ consumed := by
        rw [lt_iff_toRat, not_lt] at hc0
        exact le_iff_toRat.mpr hc0
      have ha0' : (0 : Decimal) ≤ allowance := by
        rw [le_iff_toRat, not_le] at ha0
        exact le_iff_toRat.mpr ha0.le
      exact not_le.mp (mt (add_le_iff_unitsAt hc' hal' hl' hc0' ha0').mpr hsum)
    have hlimited := (statusIs_satisfied .costLimited).mpr hstatus
    simp only [InvocationRow.ckCostBudgetEvidence, Sql.Truth.satisfied_or, Sql.Truth.satisfied_and,
      and_assoc]
    refine .inl ⟨hlimited, ?_⟩
    simp [storedRow, hc, hl, hal, hstart, hend, husage, hresponse, hcost, hconsumed, hlimit,
      hallowance, hordered, hexceeded, hwindow, Sql.combine]
  · have hnot := (statusIsNot_satisfied .costLimited).mpr hstatus
    simp only [InvocationRow.ckCostBudgetEvidence, Sql.Truth.satisfied_or, Sql.Truth.satisfied_and,
      and_assoc]
    refine .inr ⟨hnot, ?_⟩
    simp [storedRow, hc, hl, hal, hstart, hend]

include ha hs hc in
/-- The row passes every check of the table. -/
theorem storedRow_checks : (storedRow i).checks = .ok () := by
  obtain ⟨t, ht, hlimited⟩ := storedRow_limitedEvidence ha hs
  obtain ⟨hduration, hinput, houtput, htotal⟩ := storedRow_counts ha
  obtain ⟨hconsumed, hlimit, hallowance⟩ := storedRow_usageEvidence ha
  exact Except.bind_eq_ok ht (constraint_of ⟨storedRow_statusOutput ha, hduration, hinput, houtput,
    htotal, hconsumed, hlimit, hallowance, hlimited, storedRow_costSnapshot hs hc,
    storedRow_costBudgetEvidence ha hs⟩)

end Checks

/-! ## Reading back -/

/-- The usage as it is read back: none if it has no counts. -/
def normalUsage (usage : Option InvocationUsage) : Option InvocationUsage :=
  usage.filter fun u => u.inputUnits.isSome || u.outputUnits.isSome || u.totalUnits.isSome

/-- A cost as text, numbers and values. -/
def InvocationCost.values (cost : InvocationCost) : (String × String × Int) × ℚ × ℚ × ℚ × ℚ × ℚ :=
  ((cost.currency, cost.pricingVersion, cost.pricingBasisUnits), cost.inputCost.toRat,
    cost.outputCost.toRat, cost.totalCost.toRat, cost.pricingInputRate.toRat,
    cost.pricingOutputRate.toRat)

/-- The fields that are neither money nor usage. -/
def InvocationFields.plain (i : InvocationFields) : InvocationFields :=
  { i with
    usage := none
    estimatedCost := none
    costBudgetConsumed := none
    costBudgetLimit := none
    costBudgetAllowance := none }

/-- Equal field by field, money by its value and a usage without counts as none. -/
structure SameInvocation (i j : InvocationFields) : Prop where
  plain : i.plain = j.plain
  usage : normalUsage i.usage = normalUsage j.usage
  estimatedCost : i.estimatedCost.map InvocationCost.values = j.estimatedCost.map InvocationCost.values
  costBudgetConsumed : i.costBudgetConsumed.map toRat = j.costBudgetConsumed.map toRat
  costBudgetLimit : i.costBudgetLimit.map toRat = j.costBudgetLimit.map toRat
  costBudgetAllowance : i.costBudgetAllowance.map toRat = j.costBudgetAllowance.map toRat

theorem InvocationUsage.new_self (u : InvocationUsage) :
    new u.inputUnits u.outputUnits u.totalUnits = .ok u := by
  obtain ⟨input, output, total, hfits⟩ := u
  simp only [usageFits, Bool.and_eq_true, Option.all_eq_true, decide_eq_true_eq] at hfits
  obtain ⟨⟨⟨hi, ho⟩, ht⟩, hle⟩ := hfits
  unfold new
  rw [dif_neg, dif_neg, dif_neg, dif_neg, dif_neg]
  all_goals
    simp only [Option.any_eq_true, decide_eq_true_eq, not_exists, not_and, not_lt]
    grind

theorem usageFromRow_storedRow (i : InvocationFields) :
    (storedRow i).usageFromRow = .ok (normalUsage i.usage) := by
  unfold InvocationRow.usageFromRow
  cases husage : i.usage with
  | none => simp [storedRow, husage, normalUsage]
  | some u =>
    simp only [storedRow, husage, Option.bind_some]
    by_cases hnone : u.inputUnits = none ∧ u.outputUnits = none ∧ u.totalUnits = none
    · have hdrop : ¬(u.inputUnits.isSome || u.outputUnits.isSome || u.totalUnits.isSome) = true := by
        simp [hnone]
      rw [if_pos hnone, normalUsage, Option.filter_some, if_neg hdrop]
    · rw [if_neg hnone, InvocationUsage.new_self]
      have hkeep : (u.inputUnits.isSome || u.outputUnits.isSome || u.totalUnits.isSome) = true := by
        by_contra hno
        simp only [Bool.or_eq_true, not_or, Option.not_isSome_iff_eq_none, and_assoc] at hno
        exact hnone hno
      rw [normalUsage, Option.filter_some, if_pos hkeep]
      rfl

/-- Money has at most 12 decimals. -/
structure Exact (i : InvocationFields) : Prop where
  cost : ∀ cost ∈ i.estimatedCost, ∃ digits, cost.inputCost.Fits digits 12 ∧
    cost.outputCost.Fits digits 12 ∧ cost.totalCost.Fits digits 12
  rates : ∀ cost ∈ i.estimatedCost, ∃ digits, cost.pricingInputRate.Fits digits 12 ∧
    cost.pricingOutputRate.Fits digits 12
  costBudgetConsumed : ∀ a ∈ i.costBudgetConsumed, ∃ digits, a.Fits digits 12
  costBudgetLimit : ∀ a ∈ i.costBudgetLimit, ∃ digits, a.Fits digits 12
  costBudgetAllowance : ∀ a ∈ i.costBudgetAllowance, ∃ digits, a.Fits digits 12

theorem Storable.exact {i : InvocationFields} (hs : Storable i) : Exact i where
  cost cost h := ⟨28, hs.cost cost h⟩
  rates cost h := ⟨18, hs.rates cost h⟩
  costBudgetConsumed a h := ⟨28, hs.costBudgetConsumed a h⟩
  costBudgetLimit a h := ⟨28, hs.costBudgetLimit a h⟩
  costBudgetAllowance a h := ⟨28, hs.costBudgetAllowance a h⟩

section Reading

variable {i : InvocationFields} (ha : i.Accepted) (he : Exact i)

include he

theorem costFromRow_storedRow :
    ∃ cost, (storedRow i).costFromRow = .ok cost ∧
      cost.map InvocationCost.values = i.estimatedCost.map InvocationCost.values := by
  cases hcost : i.estimatedCost with
  | none =>
    refine ⟨none, ?_, rfl⟩
    simp [InvocationRow.costFromRow, storedRow, hcost]
  | some cost =>
    obtain ⟨_, hinput, houtput, htotal⟩ := he.cost cost hcost
    obtain ⟨_, hinputRate, houtputRate⟩ := he.rates cost hcost
    have hinput' := (numeric_of_fits hinput).2.1
    have houtput' := (numeric_of_fits houtput).2.1
    have htotal' := (numeric_of_fits htotal).2.1
    have hnonneg : 0 ≤ numericValue 12 (unitsAt 12 cost.inputCost) ∧
        0 ≤ numericValue 12 (unitsAt 12 cost.outputCost) ∧
        0 ≤ numericValue 12 (unitsAt 12 cost.totalCost) := by
      simp only [le_iff_toRat, hinput', houtput', htotal']
      simpa only [le_iff_toRat] using cost.not_negative
    have hsum : (numericValue 12 (unitsAt 12 cost.totalCost)).eq
        ((numericValue 12 (unitsAt 12 cost.inputCost)).add defaultPrec
          (numericValue 12 (unitsAt 12 cost.outputCost))) := by
      rw [eq_iff_toRat, toRat_add_congr (by decide) hinput' houtput', htotal']
      exact eq_iff_toRat.mp cost.total_eq
    obtain ⟨cost', hnew, hvalues⟩ : ∃ cost', InvocationCost.new cost.currency
        (numericValue 12 (unitsAt 12 cost.inputCost)) (numericValue 12 (unitsAt 12 cost.outputCost))
        (numericValue 12 (unitsAt 12 cost.totalCost)) cost.pricingVersion cost.pricingBasisUnits
        (numericValue 12 (unitsAt 12 cost.pricingInputRate))
        (numericValue 12 (unitsAt 12 cost.pricingOutputRate)) = .ok cost' ∧
        cost'.values = cost.values := by
      refine ⟨_, InvocationCost.new_eq_ok cost.usd hnonneg hsum, ?_⟩
      simp only [InvocationCost.values, hinput', houtput', htotal', (numeric_of_fits hinputRate).2.1,
        (numeric_of_fits houtputRate).2.1]
    refine ⟨some cost', ?_, by rw [Option.map_some, Option.map_some, hvalues]⟩
    simp only [InvocationRow.costFromRow, storedRow, hcost, Option.map_some, hnew]
    rfl

/-- Money as it is read back. -/
def readBack (a : Decimal) : Decimal := numericValue 12 (unitsAt 12 a)

omit he in
theorem toRat_readBack {digits : Nat} {a : Decimal} (h : a.Fits digits 12) :
    (readBack a).toRat = a.toRat :=
  (numeric_of_fits h).2.1

omit he in
theorem map_toRat_readBack {x : Option Decimal} (h : ∀ a ∈ x, ∃ digits, a.Fits digits 12) :
    (x.map readBack).map toRat = x.map toRat := by
  cases x with
  | none => rfl
  | some a =>
    obtain ⟨_, hfits⟩ := h a rfl
    simp only [Option.map_some, toRat_readBack hfits]

/-- The budget evidence decides the same as it is read back. -/
theorem checkCostEvidence_readBack {usage : Option InvocationUsage} {cost : Option InvocationCost}
    (ha : i.Accepted) (hu : i.usage = none → usage = none) :
    ({ i with
      usage := usage
      estimatedCost := cost
      costBudgetConsumed := i.costBudgetConsumed.map readBack
      costBudgetLimit := i.costBudgetLimit.map readBack
      costBudgetAllowance := i.costBudgetAllowance.map readBack } :
      InvocationFields).checkCostEvidence = .ok () := by
  rcases InvocationFields.checkCostEvidence_ok ha.costEvidence with
    ⟨hstatus, husage, hresponse, consumed, limit, allowance, start, «end», hc, hl, hal, hstart, hend,
      hc0, hl0, ha0, hle, hsum, hwindow⟩ | ⟨hstatus, hc, hl, hal, hstart, hend⟩
  · obtain ⟨_, hcfits⟩ := he.costBudgetConsumed _ hc
    obtain ⟨_, hlfits⟩ := he.costBudgetLimit _ hl
    obtain ⟨_, halfits⟩ := he.costBudgetAllowance _ hal
    have hc' := toRat_readBack hcfits
    have hl' := toRat_readBack hlfits
    have hal' := toRat_readBack halfits
    refine InvocationFields.checkCostEvidence_of hstatus (hu husage) hresponse
      (congrArg (Option.map readBack) hc) (congrArg (Option.map readBack) hl)
      (congrArg (Option.map readBack) hal) hstart hend ?_ hwindow
    simp only [lt_iff_toRat, le_iff_toRat, toRat_add_congr (show 0 < defaultPrec by decide) hc' hal',
      hc', hl', hal']
    simp only [lt_iff_toRat, le_iff_toRat] at hc0 hl0 ha0 hle hsum
    exact ⟨hc0, hl0, ha0, hle, hsum⟩
  · unfold InvocationFields.checkCostEvidence
    rw [if_neg hstatus]
    simp [InvocationFields.valueErrorWhen, hc, hl, hal, hstart, hend]

theorem accepted_readBack {cost : Option InvocationCost} (ha : i.Accepted)
    (hcost : cost.isSome → i.estimatedCost.isSome) :
    ({ i with
      usage := normalUsage i.usage
      estimatedCost := cost
      costBudgetConsumed := i.costBudgetConsumed.map readBack
      costBudgetLimit := i.costBudgetLimit.map readBack
      costBudgetAllowance := i.costBudgetAllowance.map readBack } : InvocationFields).Accepted := by
  have hu : i.usage = none → normalUsage i.usage = none := by
    intro h
    rw [h]
    rfl
  refine ⟨ha.input, ha.identity, ha.responseId, ha.output, ?_,
    checkCostEvidence_readBack he ha hu, ?_⟩
  · rcases InvocationFields.checkUsageEvidence_ok ha.usageEvidence with ⟨hstatus, husage, _⟩ | ⟨hstatus, _⟩
    · have hsame := ha.usageEvidence
      simp only [InvocationFields.checkUsageEvidence, husage, normalUsage] at hsame ⊢
      exact hsame
    · have hsame := ha.usageEvidence
      unfold InvocationFields.checkUsageEvidence at hsame ⊢
      rw [if_neg hstatus] at hsame ⊢
      exact hsame
  · unfold InvocationFields.checkEstimatedCost
    split
    · next hsome =>
      obtain ⟨hstatus, hany⟩ := InvocationFields.checkEstimatedCost_ok ha.estimatedCost (hcost hsome)
      have hnormal : normalUsage i.usage = i.usage := by
        cases husage : i.usage with
        | none => rfl
        | some u =>
          rw [husage, Option.any_some, Bool.and_eq_true] at hany
          rw [normalUsage, Option.filter_some, if_pos (by simp [hany.1])]
      rw [hnormal]
      simp only [InvocationFields.valueErrorWhen, hstatus, hany]
      rfl
    · rfl

omit he in
/-- A text without surrogates is read back as it was. -/
theorem map_ofString_scalars {x : Option Str} (h : ∀ s ∈ x, s.hasSurrogate = false) :
    (x.map Str.scalars).map Str.ofString = x := by
  cases x with
  | none => rfl
  | some s => rw [Option.map_some, Option.map_some, Str.ofString_scalars (h s rfl)]

include ha in
theorem toInvocation_exact (hen : Encoded i) :
    ∃ j, (storedRow i).toInvocation = .ok (some j) ∧ SameInvocation j.toInvocationFields i := by
  obtain ⟨cost, hcost, hvalues⟩ := costFromRow_storedRow he
  have hsome : cost.isSome → i.estimatedCost.isSome := by
    intro h
    have hmap := congrArg Option.isSome hvalues
    rwa [Option.isSome_map, Option.isSome_map, h, eq_comm] at hmap
  have haccepted := accepted_readBack he ha hsome
  refine ⟨⟨_, InvocationFields.postInit_eq_self.mpr haccepted⟩, ?_, ?_⟩
  · have hstatus : InvocationStatus.ofValue (storedRow i).status = some i.status :=
      InvocationStatus.ofValue_value i.status
    unfold InvocationRow.toInvocation
    simp only [hstatus]
    refine Except.bind_eq_ok (a := normalUsage i.usage) (by rw [usageFromRow_storedRow]; rfl) ?_
    refine Except.bind_eq_ok (a := cost) (by rw [hcost]; rfl) ?_
    refine Except.bind_eq_ok (Invocation.new_of ?_) rfl
    have houtput := map_ofString_scalars hen.outputText
    have hresponse := map_ofString_scalars hen.providerResponseId
    simp only [storedRow, houtput, hresponse, Option.map_map]
    exact InvocationFields.postInit_eq_self.mpr haccepted
  · exact {
      plain := rfl
      usage := by
        show normalUsage (normalUsage i.usage) = _
        simp [normalUsage, Option.filter_filter]
      estimatedCost := hvalues
      costBudgetConsumed := map_toRat_readBack he.costBudgetConsumed
      costBudgetLimit := map_toRat_readBack he.costBudgetLimit
      costBudgetAllowance := map_toRat_readBack he.costBudgetAllowance }

end Reading

/-- An Invocation of the handler is stored under a new id and read back the same. -/
theorem invocation_persisted {i : Invocation} (hb : Built i) (hs : Storable i.toInvocationFields)
    (hen : Encoded i.toInvocationFields) {invocations : Table InvocationRow}
    (hnew : invocations.find? i.id = none) :
    ∃ row, InvocationRow.ofInvocation i = .ok row ∧ row.checks = .ok () ∧
      addInvocation invocations i = .ok (invocations.insert row) ∧
      ∃ j, getInvocation (invocations.insert row) i.id = .ok (some j) ∧
        SameInvocation j.toInvocationFields i.toInvocationFields := by
  have ha := InvocationFields.postInit_eq_self.mp i.accepted
  have hrow := InvocationRow.ofInvocation_eq hs hen hb.carried
  have hchecks := storedRow_checks ha hs hb.carried
  obtain ⟨j, hj, hsame⟩ := toInvocation_exact ha hs.exact hen
  refine ⟨_, hrow, hchecks, ?_, j, ?_, hsame⟩
  · refine Except.bind_eq_ok hrow ?_
    refine Except.bind_eq_ok hchecks ?_
    exact Except.bind_eq_ok (constraint_of hnew) rfl
  · have hfind : (invocations.insert (storedRow i.toInvocationFields)).find? i.id =
        some (storedRow i.toInvocationFields) := by
      rw [Table.find?_insert, hnew, Option.none_or]
      exact if_pos rfl
    unfold getInvocation
    rw [hfind]
    exact hj

/-! ## A stored Invocation -/

/-- A runtime principal of settings. -/
def samplePrincipal : Settings.RuntimePrincipalSettings where
  principalId := "runtime"
  tenantId := 1
  agentId := 2
  credential := "0123456789abcdef0123456789abcdef"
  usageLimit := 20
  perInvocationAllowance := 20
  principalId_stripped := by decide +kernel
  principalId_length := by decide +kernel
  credential_length := by decide +kernel
  usageLimit_pos := by decide
  perInvocationAllowance_pos := by decide
  allowance_fits_limit := by decide

/-- What a request of that principal gives every factory. -/
def sampleCommon : Invocation.Common where
  invocationId := 3
  tenantId := samplePrincipal.tenantId
  agentId := samplePrincipal.agentId
  modelId := 4
  inputText := " hello "
  startedAt := 0
  completedAt := 1500000
  policyDecisionId := 5
  runtimePrincipalId := samplePrincipal.principalId

def sampleUsage : InvocationUsage := ⟨some 10, some 5, some 15, by decide⟩

def samplePricing : PricingSnapshot where
  provider := "openai"
  providerModelReference := "gpt"
  version := "2"
  basisUnits := 1000
  inputRate := ⟨25, -2⟩
  outputRate := ⟨1, 0⟩
  currency := "USD"
  names := by decide +kernel
  version_length := by decide +kernel
  usd := rfl
  rates := by decide +kernel

def sampleCost : InvocationCost where
  currency := "USD"
  inputCost := ⟨2500000000, -12⟩
  outputCost := ⟨5000000000, -12⟩
  totalCost := ⟨7500000000, -12⟩
  pricingVersion := "2"
  pricingBasisUnits := 1000
  pricingInputRate := ⟨25, -2⟩
  pricingOutputRate := ⟨1, 0⟩
  usd := rfl
  not_negative := by decide +kernel
  total_eq := by decide +kernel

def sampleFields : InvocationFields :=
  { sampleCommon.fields .succeeded 1500 with
    inputText := "hello"
    outputText := some "hi"
    usage := some sampleUsage
    estimatedCost := some sampleCost }

def sampleInvocation : Invocation := ⟨sampleFields, by decide +kernel⟩

theorem sampleInvocation_built : Built sampleInvocation :=
  @Built.succeeded samplePrincipal sampleCommon sampleInvocation "hi" (some sampleUsage) none
    (some samplePricing) (some sampleCost) rfl (by decide +kernel) (by decide +kernel)

theorem sampleInvocation_storable : Storable sampleInvocation.toInvocationFields := by
  constructor <;> decide +kernel

theorem sampleInvocation_encoded : Encoded sampleInvocation.toInvocationFields := by
  constructor <;> decide +kernel

theorem invocation_persisted_sample :
    ∃ row, InvocationRow.ofInvocation sampleInvocation = .ok row ∧ row.checks = .ok () ∧
      addInvocation .empty sampleInvocation = .ok (Table.empty.insert row) ∧
      ∃ j, getInvocation (Table.empty.insert row) sampleInvocation.id = .ok (some j) ∧
        SameInvocation j.toInvocationFields sampleInvocation.toInvocationFields :=
  invocation_persisted sampleInvocation_built sampleInvocation_storable sampleInvocation_encoded
    (Table.find?_empty _)

/-- The same request answered with U+D800 alone, the one character of its output. -/
def surrogateInvocation : Invocation where
  toInvocationFields := { sampleCommon.fields .succeeded 1500 with
    inputText := "hello"
    outputText := some ⟨[.surrogate 0]⟩ }
  accepted := by decide +kernel

theorem surrogateInvocation_built : Built surrogateInvocation :=
  @Built.succeeded samplePrincipal sampleCommon surrogateInvocation ⟨[.surrogate 0]⟩ none none none none rfl
    rfl (by decide +kernel)

/-- The constructors accept it, the values fit their columns, and the driver cannot encode it. -/
theorem surrogateInvocation_not_persisted :
    Built surrogateInvocation ∧ Storable surrogateInvocation.toInvocationFields ∧
      (Table.empty : Table InvocationRow).find? surrogateInvocation.id = none ∧
      addInvocation .empty surrogateInvocation = .error ⟨⟩ := by
  refine ⟨surrogateInvocation_built, ?_, Table.find?_empty _, rfl⟩
  constructor <;> decide +kernel

end Valor.RuntimeGateway
