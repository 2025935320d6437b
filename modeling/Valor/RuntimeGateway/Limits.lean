/-
  The two limits at the edges of their numbers.

  The budget decision adds in the default context of 28 digits, and the settings accept
  amounts of 30. The decision is the exact one unless the budget lies between the exact sum
  and the rounded one (`InRoundingGap`).

  The evidence of a usage rejection is stored in columns of 32 bits, whose sum the table
  checks in 32 bits, while settings and ledgers have no bound. A rejection is recorded
  exactly if that sum fits.
-/
import Valor.RuntimeGateway.Persistence
import Valor.RuntimeGateway.Readers
import Mathlib.Algebra.Order.BigOperators.Group.List

namespace Valor.RuntimeGateway

open Python Decimal Postgres Settings Rounding

/-! ## The budget -/

/-- The limit lies between a sum and that sum rounded half-even to 28 digits. -/
def InRoundingGap (sum limit : Int) : Prop :=
  let q : Int := 10 ^ (digitCount sum.natAbs - defaultPrec)
  if 2 * (sum % q) < q ∨ (2 * (sum % q) = q ∧ sum / q % 2 = 0) then
    sum / q * q ≤ limit ∧ limit < sum
  else sum ≤ limit ∧ limit < (sum / q + 1) * q

instance (sum limit : Int) : Decidable (InRoundingGap sum limit) := by
  unfold InRoundingGap
  infer_instance

/-- The budget of `ConfiguredTenantCostBudgets` for an entry. -/
def budgetOf (entry : TenantBudgetEntrySettings) : Except ValueError TenantCostBudget :=
  TenantCostBudget.new entry.dailyEstimatedCostBudget entry.perInvocationCostAllowance entry.currency

/-- The decision is the one of exact arithmetic, and evidence of a rejection passes the exact
    check of the table. -/
def DecidedExactly (entry : TenantBudgetEntrySettings) (cost : Decimal) (window : UsageWindow) :
    Prop :=
  ∃ budget d, budgetOf entry = .ok budget ∧ decideTenantCostBudget cost budget window = .ok d ∧
    (d.allowed = true ↔ cost.toRat + budget.allowance.toRat ≤ budget.limit.toRat) ∧
    (d.allowed = false → ∀ c i,
      Invocation.costLimited c d.attributedCost d.budget d.allowance window = .ok i →
      ∃ consumed limit allowance, i.costBudgetConsumed = some consumed ∧
        i.costBudgetLimit = some limit ∧ i.costBudgetAllowance = some allowance ∧
        limit.toRat < consumed.toRat + allowance.toRat)

theorem budgetOf_eq (entry : TenantBudgetEntrySettings) :
    ∃ budget, budgetOf entry = .ok budget ∧ budget.limit = entry.dailyEstimatedCostBudget ∧
      budget.allowance = entry.perInvocationCostAllowance := by
  have hp : 0 < entry.dailyEstimatedCostBudget ∧ 0 < entry.perInvocationCostAllowance ∧
      entry.perInvocationCostAllowance ≤ entry.dailyEstimatedCostBudget :=
    ⟨entry.budget_accepted.1, entry.allowance_accepted.1, entry.allowance_fits_budget⟩
  refine ⟨⟨_, _, _, entry.usd, hp⟩, ?_, rfl, rfl⟩
  rw [budgetOf, TenantCostBudget.new, dif_pos entry.usd, dif_pos hp]

/-- The evidence of a cost-limited Invocation is what its factory was given. -/
theorem costLimited_evidence {c : Invocation.Common} {consumed limit allowance : Decimal}
    {window : UsageWindow} {i : Invocation}
    (h : Invocation.costLimited c consumed limit allowance window = .ok i) :
    i.costBudgetConsumed = some consumed ∧ i.costBudgetLimit = some limit ∧
      i.costBudgetAllowance = some allowance := by
  obtain ⟨ms, _, hnew⟩ := Except.bind_ok_cases h
  have hfields := InvocationFields.postInit_eq (Invocation.new_ok hnew)
  rw [hfields]
  exact ⟨rfl, rfl, rfl⟩

/-- The sum of the decision, as a rounding of the exact one. -/
theorem add_le_iff_divHalfEven {a b l : Decimal} {m n k : Int} (ha : a.toRat = m * 10 ^ (-12 : ℤ))
    (hb : b.toRat = n * 10 ^ (-12 : ℤ)) (hl : l.toRat = k * 10 ^ (-12 : ℤ)) :
    a.add defaultPrec b ≤ l ↔
      divHalfEven (m + n) (10 ^ (digitCount (m + n).natAbs - defaultPrec)) *
        10 ^ (digitCount (m + n).natAbs - defaultPrec) ≤ k := by
  have hpow : (0 : ℚ) < 10 ^ (-12 : ℤ) := by positivity
  have hsum : a.toRat + b.toRat = (m + n : ℤ) * 10 ^ (-12 : ℤ) := by
    rw [ha, hb]
    push_cast
    ring
  rw [le_iff_toRat, toRat_add (by decide) hsum, hl, roundDigits, divHalfEven_eq _ (by positivity),
    zpow_add₀ (by norm_num), zpow_natCast, ← mul_assoc, mul_le_mul_iff_left₀ hpow]
  push_cast
  exact_mod_cast Iff.rfl

/-- Rounding decides differently exactly in the gap. -/
theorem divHalfEven_le_iff {sum limit : Int} {q : Nat} (hq : 0 < q) :
    (divHalfEven sum q * q ≤ limit ↔ sum ≤ limit) ↔
      ¬(if 2 * (sum % q) < q ∨ (2 * (sum % q) = q ∧ sum / q % 2 = 0) then
          sum / q * q ≤ limit ∧ limit < sum
        else sum ≤ limit ∧ limit < (sum / q + 1) * q) := by
  have hmod := Int.emod_add_mul_ediv sum q
  have hnonneg := Int.emod_nonneg sum (b := (q : ℤ)) (by omega)
  have hlt := Int.emod_lt_of_pos sum (b := (q : ℤ)) (by omega)
  rw [mul_comm (q : ℤ)] at hmod
  have hup : (sum / q + 1) * q = sum / q * q + q := by ring
  by_cases hdown : 2 * (sum % q) < q ∨ (2 * (sum % q) = q ∧ sum / q % 2 = 0)
  · have hround : divHalfEven sum q = sum / q := by
      unfold divHalfEven
      dsimp only
      split_ifs <;> omega
    rw [if_pos hdown, hround]
    omega
  · have hround : divHalfEven sum q = sum / q + 1 := by
      unfold divHalfEven
      dsimp only
      split_ifs <;> omega
    rw [if_neg hdown, hround, hup]
    omega

/-- The decision on a sum of `NUMERIC(30, 12)` costs, in units of their last decimal, is exact
    unless the limit lies in the rounding gap of that sum and the allowance. -/
theorem decideTenantCostBudget_exact_iff (entry : TenantBudgetEntrySettings) {cost : Decimal}
    {consumed : Nat} (hcost : cost.toRat = consumed * 10 ^ (-12 : ℤ)) (window : UsageWindow) :
    DecidedExactly entry cost window ↔
      ¬InRoundingGap (consumed + unitsAt 12 entry.perInvocationCostAllowance)
        (unitsAt 12 entry.dailyEstimatedCostBudget) := by
  obtain ⟨budget, hbudget, hlimit, hallowance⟩ := budgetOf_eq entry
  rw [← hlimit, ← hallowance]
  have hl : budget.limit.toRat = unitsAt 12 budget.limit * 10 ^ (-12 : ℤ) :=
    toRat_eq_unitsAt (hlimit ▸ entry.budget_accepted.2)
  have ha : budget.allowance.toRat = unitsAt 12 budget.allowance * 10 ^ (-12 : ℤ) :=
    toRat_eq_unitsAt (hallowance ▸ entry.allowance_accepted.2)
  have hpow : (0 : ℚ) < 10 ^ (-12 : ℤ) := by positivity
  have hcost' : cost.toRat = (consumed : ℤ) * 10 ^ (-12 : ℤ) := by exact_mod_cast hcost
  have hnonneg : ¬cost < 0 := by
    rw [lt_iff_toRat, toRat_zero, not_lt, hcost]
    positivity
  have hdecision : decideTenantCostBudget cost budget window = .ok
      ⟨cost.add defaultPrec budget.allowance ≤ budget.limit, cost, budget.limit, budget.allowance,
        window⟩ := if_neg hnonneg
  have hexact : cost.toRat + budget.allowance.toRat ≤ budget.limit.toRat ↔
      consumed + unitsAt 12 budget.allowance ≤ unitsAt 12 budget.limit := by
    rw [hcost', ha, hl, ← add_mul, mul_le_mul_iff_left₀ hpow]
    exact_mod_cast Iff.rfl
  have hgap := @divHalfEven_le_iff (consumed + unitsAt 12 budget.allowance) (unitsAt 12 budget.limit)
    (10 ^ (digitCount (consumed + unitsAt 12 budget.allowance).natAbs - defaultPrec)) (by positivity)
  have hallowed : (cost.add defaultPrec budget.allowance ≤ budget.limit ↔
      cost.toRat + budget.allowance.toRat ≤ budget.limit.toRat) ↔
      ¬InRoundingGap (consumed + unitsAt 12 budget.allowance) (unitsAt 12 budget.limit) := by
    rw [add_le_iff_divHalfEven hcost' ha hl, hexact]
    exact_mod_cast hgap
  rw [← hallowed]
  constructor
  · rintro ⟨budget', d, hbudget', hd, hiff, -⟩
    rw [hbudget] at hbudget'
    cases hbudget'
    rw [hdecision] at hd
    cases hd
    simpa using hiff
  · intro hiff
    refine ⟨budget, _, hbudget, hdecision, by simpa using hiff, ?_⟩
    intro hnot c i hi
    obtain ⟨hc, hl', ha'⟩ := costLimited_evidence hi
    refine ⟨_, _, _, hc, hl', ha', ?_⟩
    have hexceeds := mt hiff.mpr (by simpa using hnot)
    exact not_le.mp hexceeds

def sampleWindow : UsageWindow := ⟨0, 86400000000⟩

/-- A budget of one dollar. -/
def smallBudget : TenantBudgetEntrySettings where
  tenantId := 1
  dailyEstimatedCostBudget := ⟨1, 0⟩
  perInvocationCostAllowance := ⟨5, -2⟩
  currency := "USD"
  budget_accepted := by decide +kernel
  allowance_accepted := by decide +kernel
  allowance_fits_budget := by decide +kernel
  usd := rfl

theorem decideTenantCostBudget_exact_of_small :
    DecidedExactly smallBudget ⟨96, -2⟩ sampleWindow :=
  (@decideTenantCostBudget_exact_iff smallBudget _ 960000000000 (by norm_num [toRat])
    sampleWindow).mpr (by decide +kernel)

/-- A budget of 10 ^ 16 dollars, of which the smallest amount is the allowance. -/
def largeBudget : TenantBudgetEntrySettings where
  tenantId := 1
  dailyEstimatedCostBudget := ⟨10 ^ 16, 0⟩
  perInvocationCostAllowance := ⟨1, -12⟩
  currency := "USD"
  budget_accepted := by decide +kernel
  allowance_accepted := by decide +kernel
  allowance_fits_budget := by decide +kernel
  usd := rfl

/-- A spent budget allows one more allowance: the sum needs 29 digits. -/
theorem largeBudget_not_exact : ¬DecidedExactly largeBudget ⟨10 ^ 28, -12⟩ sampleWindow := by
  rintro ⟨budget, d, hbudget, hd, hiff, -⟩
  have hparts : budget.limit = ⟨10 ^ 16, 0⟩ ∧ budget.allowance = ⟨1, -12⟩ := by
    obtain ⟨budget', hbudget', hlimit, hallowance⟩ := budgetOf_eq largeBudget
    rw [hbudget] at hbudget'
    cases hbudget'
    exact ⟨hlimit, hallowance⟩
  have hcost : ¬(⟨10 ^ 28, -12⟩ : Decimal) < 0 := by decide +kernel
  rw [decideTenantCostBudget, if_neg hcost] at hd
  cases hd
  have hallowed : Decimal.add defaultPrec ⟨10 ^ 28, -12⟩ ⟨1, -12⟩ ≤ ⟨10 ^ 16, 0⟩ := by
    decide +kernel
  simp only [hparts.1, hparts.2, decide_eq_true_eq] at hiff
  have hle := hiff.mp hallowed
  norm_num [toRat] at hle

/-! ## The usage limit -/

/-- A rejected request leaves its evidence: the numbers and their sum fit, and the row of the
    limited Invocation is inserted, if its texts and its duration can be stored. -/
def RejectionRecorded (principal : RuntimePrincipalSettings) (consumed : Int)
    (window : UsageWindow) : Prop :=
  ∃ d, decideUsageLimit consumed principal.usageLimit principal.perInvocationAllowance window =
      .ok d ∧
    (d.allowed = false →
      (FitsInteger d.consumedUnits ∧ FitsInteger d.limitUnits ∧ FitsInteger d.allowanceUnits ∧
        FitsInteger (d.consumedUnits + d.allowanceUnits)) ∧
      ∀ c i, c.runtimePrincipalId = principal.principalId →
        Invocation.limited c d.consumedUnits d.limitUnits d.allowanceUnits d.window = .ok i →
        hasNul i.inputText = false → hasNul i.runtimePrincipalId = false →
        (∀ ms ∈ i.durationMs, FitsInteger ms) →
        ∃ row, InvocationRow.ofInvocation i = .ok row ∧ row.checks = .ok ())

theorem consumedTotalUnits_nonneg {rows : List InvocationRow}
    (h : ∀ row ∈ rows, ∀ n ∈ row.totalUnits, 0 ≤ n) (principalId : String) (start «end» : Utc) :
    0 ≤ consumedTotalUnits rows principalId start «end» := by
  refine List.sum_nonneg ?_
  intro n hn
  obtain ⟨row, hrow, htotal⟩ := List.mem_filterMap.mp hn
  exact h row (List.mem_of_mem_filter hrow) n htotal

/-- The row of a limited Invocation whose numbers fit. -/
theorem limited_inserted {principal : RuntimePrincipalSettings} {c : Invocation.Common}
    {consumed limit allowance : Int} {window : UsageWindow} {i : Invocation}
    (hp : c.runtimePrincipalId = principal.principalId)
    (h : Invocation.limited c consumed limit allowance window = .ok i)
    (hconsumed : FitsInteger consumed) (hlimit : FitsInteger limit)
    (hallowance : FitsInteger allowance) (hsum : FitsInteger (consumed + allowance))
    (hinput : hasNul i.inputText = false) (hprincipal : hasNul i.runtimePrincipalId = false)
    (hduration : ∀ ms ∈ i.durationMs, FitsInteger ms) :
    ∃ row, InvocationRow.ofInvocation i = .ok row ∧ row.checks = .ok () := by
  obtain ⟨ms, _, hnew⟩ := Except.bind_ok_cases h
  have hfields := InvocationFields.postInit_eq (Invocation.new_ok hnew)
  have hnone : i.outputText = none ∧ i.usage = none ∧ i.providerResponseId = none ∧
      i.estimatedCost = none ∧ i.costBudgetConsumed = none ∧ i.costBudgetLimit = none ∧
      i.costBudgetAllowance = none := by
    rw [hfields]
    exact ⟨rfl, rfl, rfl, rfl, rfl, rfl, rfl⟩
  have hsome : i.usageConsumedUnits = some consumed ∧ i.usageLimitUnits = some limit ∧
      i.usageAllowanceUnits = some allowance := by
    rw [hfields]
    exact ⟨rfl, rfl, rfl⟩
  obtain ⟨ho, hu, hr, hcost, hbc, hbl, hba⟩ := hnone
  obtain ⟨hc, hl, ha⟩ := hsome
  have hid : i.runtimePrincipalId = principal.principalId := by
    rw [hfields]
    exact hp
  have hcarried : Carried i.toInvocationFields := by
    refine ⟨?_, ?_⟩
    · rw [hid]
      exact principal.principalId_length.2
    · rw [hcost]
      rintro _ ⟨⟩
  have hstorable : Storable i.toInvocationFields := by
    constructor <;> simp_all
  have hencoded : Encoded i.toInvocationFields := by
    constructor <;> simp_all
  exact ⟨_, InvocationRow.ofInvocation_eq hstorable hencoded hcarried,
    storedRow_checks (InvocationFields.postInit_eq_self.mp i.accepted) hstorable hcarried⟩

/-- Every rejection is recorded exactly if the ledger and one allowance together are within
    the limit, so that there is none, or within 32 bits. -/
theorem usageRejection_recorded_iff (principal : RuntimePrincipalSettings)
    {rows : List InvocationRow}
    (hrows : ∀ row ∈ rows, ∀ n ∈ row.totalUnits, 0 ≤ n ∧ FitsInteger n) (window : UsageWindow) :
    RejectionRecorded principal
        (consumedTotalUnits rows principal.principalId window.start window.end) window ↔
      consumedTotalUnits rows principal.principalId window.start window.end +
          principal.perInvocationAllowance ≤ principal.usageLimit ∨
        consumedTotalUnits rows principal.principalId window.start window.end +
          principal.perInvocationAllowance < 2 ^ 31 := by
  have hnonneg := consumedTotalUnits_nonneg (fun row hrow n hn => (hrows row hrow n hn).1)
    principal.principalId window.start window.end
  generalize consumedTotalUnits rows principal.principalId window.start window.end = consumed at *
  have hlimit := principal.usageLimit_pos
  have hallowance := principal.perInvocationAllowance_pos
  have hle := principal.allowance_fits_limit
  have hdecision : decideUsageLimit consumed principal.usageLimit principal.perInvocationAllowance
      window = .ok ⟨consumed + principal.perInvocationAllowance ≤ principal.usageLimit, consumed,
        principal.usageLimit, principal.perInvocationAllowance, window⟩ := by
    rw [decideUsageLimit, if_neg (by omega), if_neg (by omega)]
  constructor
  · rintro ⟨d, hd, hrecorded⟩
    rw [hdecision] at hd
    cases hd
    by_cases hallowed : consumed + principal.perInvocationAllowance ≤ principal.usageLimit
    · exact .inl hallowed
    · obtain ⟨⟨_, _, _, hsum⟩, _⟩ := hrecorded (by simpa using hallowed)
      exact .inr hsum.2
  · intro hfits
    refine ⟨_, hdecision, ?_⟩
    intro hnot
    have hexceeds : principal.usageLimit < consumed + principal.perInvocationAllowance := by
      simpa using hnot
    have hsum : consumed + principal.perInvocationAllowance < 2 ^ 31 := by omega
    have hall : FitsInteger consumed ∧ FitsInteger principal.usageLimit ∧
        FitsInteger principal.perInvocationAllowance ∧
        FitsInteger (consumed + principal.perInvocationAllowance) := by
      unfold FitsInteger
      omega
    refine ⟨hall, ?_⟩
    intro c i hp hi hinput hprincipal hduration
    exact limited_inserted hp hi hall.1 hall.2.1 hall.2.2.1 hall.2.2.2 hinput hprincipal hduration

/-- A ledger of nothing. -/
theorem usageRejection_recorded_of_empty : RejectionRecorded samplePrincipal 0 sampleWindow :=
  (@usageRejection_recorded_iff samplePrincipal [] (by simp) sampleWindow).mpr
    (.inl (by decide))

/-- A principal with a limit beyond 32 bits, all of it for one request. -/
def unboundedPrincipal : RuntimePrincipalSettings :=
  { samplePrincipal with
    usageLimit := 2 ^ 31
    perInvocationAllowance := 2 ^ 31
    usageLimit_pos := by decide
    perInvocationAllowance_pos := by decide
    allowance_fits_limit := by decide }

/-- One token of usage is enough for a rejection that cannot be recorded. -/
theorem unboundedPrincipal_not_recorded :
    ¬∀ rows : List InvocationRow, (∀ row ∈ rows, ∀ n ∈ row.totalUnits, 0 ≤ n ∧ FitsInteger n) →
      RejectionRecorded unboundedPrincipal (consumedTotalUnits rows unboundedPrincipal.principalId
        sampleWindow.start sampleWindow.end) sampleWindow := by
  intro hall
  have hconsumed : consumedTotalUnits [storedRow sampleFields] unboundedPrincipal.principalId
      sampleWindow.start sampleWindow.end = 15 := by decide +kernel
  obtain ⟨d, hd, hrecorded⟩ := hall [storedRow sampleFields] (by decide +kernel)
  rw [hconsumed] at hd
  have hdecision : decideUsageLimit 15 unboundedPrincipal.usageLimit
      unboundedPrincipal.perInvocationAllowance sampleWindow = .ok ⟨false, 15, 2 ^ 31, 2 ^ 31,
        sampleWindow⟩ := by decide +kernel
  rw [hdecision] at hd
  cases hd
  obtain ⟨⟨_, hlimit, _⟩, _⟩ := hrecorded rfl
  exact absurd hlimit (by decide)

end Valor.RuntimeGateway
