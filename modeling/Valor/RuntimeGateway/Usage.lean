/-
  Runtime gateway: usage and its daily limit, cost and its daily budget.
-/
import Valor.Credential
import Valor.Python.Decimal

namespace Valor.RuntimeGateway

open Python

/-! ## Usage -/

/-- No count is negative, and the total is not less than either of its parts. -/
def usageFits (inputUnits outputUnits totalUnits : Option Int) : Bool :=
  inputUnits.all (0 ≤ ·) && outputUnits.all (0 ≤ ·) && totalUnits.all (0 ≤ ·) &&
    totalUnits.all fun t => inputUnits.all (· ≤ t) && outputUnits.all (· ≤ t)

structure InvocationUsage where
  inputUnits : Option Int
  outputUnits : Option Int
  totalUnits : Option Int
  fits : usageFits inputUnits outputUnits totalUnits
  deriving DecidableEq

def InvocationUsage.new (inputUnits outputUnits totalUnits : Option Int) :
    Except ValueError InvocationUsage :=
  let negative (name : String) : ValueError :=
    ⟨"Invocation usage " ++ name ++ " must not be negative."⟩
  if hi : inputUnits.any (· < 0) then .error (negative "input_units")
  else if ho : outputUnits.any (· < 0) then .error (negative "output_units")
  else if ht : totalUnits.any (· < 0) then .error (negative "total_units")
  else if hti : (totalUnits.any fun t => inputUnits.any (t < ·)) then
    .error ⟨"Total usage must not be less than input usage."⟩
  else if hto : (totalUnits.any fun t => outputUnits.any (t < ·)) then
    .error ⟨"Total usage must not be less than output usage."⟩
  else
    .ok ⟨inputUnits, outputUnits, totalUnits, by
      cases inputUnits <;> cases outputUnits <;> cases totalUnits <;> simp_all [usageFits]⟩

structure UsageWindow where
  start : Utc
  «end» : Utc
  deriving DecidableEq

/-- `utc_day_window` of a time in UTC. -/
def utcDayWindow (at' : Utc) : Except OverflowError UsageWindow := do
  let «end» ← at'.midnight.addDay
  return ⟨at'.midnight, «end»⟩

structure UsageLimitDecision where
  allowed : Bool
  consumedUnits : Int
  limitUnits : Int
  allowanceUnits : Int
  window : UsageWindow
  deriving DecidableEq

def decideUsageLimit (consumedUnits limitUnits allowanceUnits : Int) (window : UsageWindow) :
    Except ValueError UsageLimitDecision :=
  if consumedUnits < 0 then .error ⟨"Consumed usage must not be negative."⟩
  else if limitUnits ≤ 0 ∨ allowanceUnits ≤ 0 ∨ allowanceUnits > limitUnits then
    .error ⟨"Usage limit configuration is invalid."⟩
  else
    .ok ⟨consumedUnits + allowanceUnits ≤ limitUnits, consumedUnits, limitUnits, allowanceUnits,
      window⟩

/-! ## Cost -/

structure PricingSnapshot where
  provider : String
  providerModelReference : String
  version : String
  basisUnits : Int
  inputRate : Decimal
  outputRate : Decimal
  currency : String
  names : strip provider ≠ "" ∧ strip providerModelReference ≠ ""
  version_length : strip version ≠ "" ∧ len version ≤ 255
  usd : currency = "USD"
  rates : 0 < basisUnits ∧ 0 ≤ inputRate ∧ 0 ≤ outputRate
  deriving DecidableEq

def PricingSnapshot.new (provider providerModelReference version : String) (basisUnits : Int)
    (inputRate outputRate : Decimal) (currency : String) : Except ValueError PricingSnapshot :=
  if hn : strip provider ≠ "" ∧ strip providerModelReference ≠ "" then
    if hv : strip version ≠ "" ∧ len version ≤ 255 then
      if hu : currency = "USD" then
        if hr : 0 < basisUnits ∧ 0 ≤ inputRate ∧ 0 ≤ outputRate then
          .ok ⟨provider, providerModelReference, version, basisUnits, inputRate, outputRate, currency,
            hn, hv, hu, hr⟩
        else .error ⟨"Pricing basis must be positive and rates non-negative."⟩
      else .error ⟨"Only USD pricing is supported."⟩
    else .error ⟨"Pricing version must be between 1 and 255 characters."⟩
  else .error ⟨"Pricing provider and model reference must not be empty."⟩

/-- `COST_QUANTUM` is `Decimal("0.000000000001")`. -/
def costExponent : Int := -12

structure InvocationCost where
  currency : String
  inputCost : Decimal
  outputCost : Decimal
  totalCost : Decimal
  pricingVersion : String
  pricingBasisUnits : Int
  pricingInputRate : Decimal
  pricingOutputRate : Decimal
  usd : currency = "USD"
  not_negative : 0 ≤ inputCost ∧ 0 ≤ outputCost ∧ 0 ≤ totalCost
  total_eq : totalCost.eq (inputCost.add Decimal.defaultPrec outputCost)
  deriving DecidableEq

def InvocationCost.new (currency : String) (inputCost outputCost totalCost : Decimal)
    (pricingVersion : String) (pricingBasisUnits : Int)
    (pricingInputRate pricingOutputRate : Decimal) : Except ValueError InvocationCost :=
  if hu : currency = "USD" then
    if hn : 0 ≤ inputCost ∧ 0 ≤ outputCost ∧ 0 ≤ totalCost then
      if ht : totalCost.eq (inputCost.add Decimal.defaultPrec outputCost) then
        .ok ⟨currency, inputCost, outputCost, totalCost, pricingVersion, pricingBasisUnits,
          pricingInputRate, pricingOutputRate, hu, hn, ht⟩
      else .error ⟨"Attributed total cost must equal its components."⟩
    else .error ⟨"Attributed costs must not be negative."⟩
  else .error ⟨"Only USD cost attribution is supported."⟩

/-- What `attribute_cost` can raise. -/
inductive CostError where
  | invalidOperation
  | valueError (message : String)
  deriving DecidableEq

/-- `(Decimal(units) * rate / basis).quantize(COST_QUANTUM)` with 50 digits. -/
def componentCost (units : Int) (rate : Decimal) (basisUnits : Int) :
    Except InvalidOperation Decimal :=
  (((Decimal.ofInt units).mul 50 rate).div 50 (Decimal.ofInt basisUnits)).quantize 50 costExponent

def attributeCost (usage : Option InvocationUsage) (pricing : Option PricingSnapshot) :
    Except CostError (Option InvocationCost) :=
  match usage, pricing with
  | some ⟨some inputUnits, some outputUnits, _, _⟩, some pricing => do
      let inputCost ← (componentCost inputUnits pricing.inputRate pricing.basisUnits).mapError
        fun _ => .invalidOperation
      let outputCost ← (componentCost outputUnits pricing.outputRate pricing.basisUnits).mapError
        fun _ => .invalidOperation
      -- The total is computed in the default context.
      let cost ← (InvocationCost.new pricing.currency inputCost outputCost
        (inputCost.add Decimal.defaultPrec outputCost) pricing.version pricing.basisUnits
        pricing.inputRate pricing.outputRate).mapError fun e => .valueError e.message
      return some cost
  | _, _ => .ok none

theorem InvocationCost.new_eq_ok {currency : String} {inputCost outputCost totalCost : Decimal}
    {pricingVersion : String} {pricingBasisUnits : Int} {pricingInputRate pricingOutputRate : Decimal}
    (hu : currency = "USD") (hn : 0 ≤ inputCost ∧ 0 ≤ outputCost ∧ 0 ≤ totalCost)
    (ht : totalCost.eq (inputCost.add Decimal.defaultPrec outputCost)) :
    new currency inputCost outputCost totalCost pricingVersion pricingBasisUnits pricingInputRate
      pricingOutputRate = .ok ⟨currency, inputCost, outputCost, totalCost, pricingVersion,
        pricingBasisUnits, pricingInputRate, pricingOutputRate, hu, hn, ht⟩ := by
  rw [new, dif_pos hu, dif_pos hn, dif_pos ht]

/-- With both counts and a pricing there is a cost, if the quotients can be rounded. -/
theorem attributeCost_some {usage : InvocationUsage} {inputUnits outputUnits : Int}
    {pricing : PricingSnapshot} {inputCost outputCost : Decimal} {cost : InvocationCost}
    (hi : usage.inputUnits = some inputUnits) (ho : usage.outputUnits = some outputUnits)
    (hinput : componentCost inputUnits pricing.inputRate pricing.basisUnits = .ok inputCost)
    (houtput : componentCost outputUnits pricing.outputRate pricing.basisUnits = .ok outputCost)
    (hcost : InvocationCost.new pricing.currency inputCost outputCost
      (inputCost.add Decimal.defaultPrec outputCost) pricing.version pricing.basisUnits
      pricing.inputRate pricing.outputRate = .ok cost) :
    attributeCost (some usage) (some pricing) = .ok (some cost) := by
  obtain ⟨_, _, _, _⟩ := usage
  dsimp only at hi ho
  subst hi ho
  unfold attributeCost
  refine Except.bind_eq_ok (a := inputCost) (by rw [hinput]; rfl) ?_
  refine Except.bind_eq_ok (a := outputCost) (by rw [houtput]; rfl) ?_
  exact Except.bind_eq_ok (a := cost) (by rw [hcost]; rfl) rfl

/-! ## Tenant cost budgets -/

structure TenantCostBudget where
  limit : Decimal
  allowance : Decimal
  currency : String
  usd : currency = "USD"
  positive : 0 < limit ∧ 0 < allowance ∧ allowance ≤ limit
  deriving DecidableEq

def TenantCostBudget.new (limit allowance : Decimal) (currency : String) :
    Except ValueError TenantCostBudget :=
  if hu : currency = "USD" then
    if hp : 0 < limit ∧ 0 < allowance ∧ allowance ≤ limit then
      .ok ⟨limit, allowance, currency, hu, hp⟩
    else .error ⟨"Tenant cost budget configuration is invalid."⟩
  else .error ⟨"Only USD Tenant cost budgets are supported."⟩

structure TenantCostBudgetDecision where
  allowed : Bool
  attributedCost : Decimal
  budget : Decimal
  allowance : Decimal
  window : UsageWindow
  deriving DecidableEq

def decideTenantCostBudget (attributedCost : Decimal) (budget : TenantCostBudget)
    (window : UsageWindow) : Except ValueError TenantCostBudgetDecision :=
  if attributedCost < 0 then .error ⟨"Attributed Tenant cost must not be negative."⟩
  else
    .ok ⟨attributedCost.add Decimal.defaultPrec budget.allowance ≤ budget.limit, attributedCost,
      budget.limit, budget.allowance, window⟩

end Valor.RuntimeGateway
