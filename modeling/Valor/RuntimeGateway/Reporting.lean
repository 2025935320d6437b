/-
  Runtime gateway: the report on a tenant's Invocations.

  Fifteen aggregates over the rows of a tenant in a range, and two lists of the identities
  with the highest cost. Proved of every store that the handler can produce: the aggregates
  classify the rows without overlap or gap, the lists are the first ten in the order of the
  query, a range splits at any point, and the cost is the one that the budget is decided on.
-/
import Valor.Lib.Grouping
import Valor.RuntimeGateway.Persistence
import Valor.RuntimeGateway.Readers
import Mathlib.Algebra.BigOperators.Ring.Finset
import Mathlib.Algebra.BigOperators.Ring.List

namespace Valor.RuntimeGateway

open Python Decimal Postgres Sql Grouping

/-! ## The report -/

structure InvocationCounts where
  total : Nat
  succeeded : Nat
  failed : Nat
  denied : Nat
  limited : Nat
  costLimited : Nat
  deriving DecidableEq

structure UsageTotals where
  inputUnits : Int
  outputUnits : Int
  totalUnits : Int
  providerExecutedInvocations : Nat
  attributedInvocations : Nat
  unavailableInvocations : Nat
  deriving DecidableEq

structure EstimatedCostTotals where
  currency : String
  total : Decimal
  attributedInvocations : Nat
  unavailableInvocations : Nat
  deriving DecidableEq

/-- `AgentCostBreakdown` and `ModelCostBreakdown`, which differ in what the identity is of. -/
structure CostBreakdown where
  id : Uuid
  invocationCount : Nat
  totalUnits : Int
  usageAttributedInvocations : Nat
  usageUnavailableInvocations : Nat
  estimatedCostTotal : Decimal
  costAttributedInvocations : Nat
  costUnavailableInvocations : Nat
  deriving DecidableEq

structure TenantRuntimeReport where
  tenantId : Uuid
  start : Utc
  «end» : Utc
  invocations : InvocationCounts
  usage : UsageTotals
  estimatedCost : EstimatedCostTotals
  topAgentsByEstimatedCost : List CostBreakdown
  topModelsByEstimatedCost : List CostBreakdown
  agentBreakdownTruncated : Bool
  modelBreakdownTruncated : Bool
  deriving DecidableEq

/-- `TOP_N`. -/
def topN : Nat := 10

/-! ## The statements -/

namespace InvocationRow

variable (row : InvocationRow)

def providerExecuted : Truth := .ofBool (row.status ∈ ["succeeded", "failed"])

def usageKnown : Truth :=
  row.providerExecuted &&& isNotNull row.inputUnits &&& isNotNull row.outputUnits &&&
    isNotNull row.totalUnits

def successful : Truth := row.statusIs "succeeded"

def costKnown : Truth := row.successful &&& isNotNull row.costTotal

end InvocationRow

/-- `count(*) FILTER (WHERE c)`. -/
def countWhere (c : InvocationRow → Truth) (rows : List InvocationRow) : Nat :=
  (rows.filter fun row => (c row).Holds).length

/-- `coalesce(sum(CASE WHEN c THEN x ELSE y END), 0)`: a sum leaves out what is NULL. -/
def sumCase (c : InvocationRow → Truth) (x : InvocationRow → Option Int) (y : Option Int)
    (rows : List InvocationRow) : Int :=
  (rows.filterMap fun row => if (c row).Holds then x row else y).sum

/-- The rows of the WHERE clause. -/
def reportedRows (rows : List InvocationRow) (tenantId : Uuid) (start «end» : Utc) :
    List InvocationRow :=
  rows.filter fun row => row.tenantId = tenantId && row.startedIn start «end»

def invocationCounts (rows : List InvocationRow) : InvocationCounts where
  total := rows.length
  succeeded := countWhere (·.statusIs "succeeded") rows
  failed := countWhere (·.statusIs "failed") rows
  denied := countWhere (·.statusIs "denied") rows
  limited := countWhere (·.statusIs "limited") rows
  costLimited := countWhere (·.statusIs "cost_limited") rows

def usageTotals (rows : List InvocationRow) : UsageTotals where
  inputUnits := sumCase (·.usageKnown) (·.inputUnits) (some 0) rows
  outputUnits := sumCase (·.usageKnown) (·.outputUnits) (some 0) rows
  totalUnits := sumCase (·.usageKnown) (·.totalUnits) (some 0) rows
  providerExecutedInvocations := countWhere (·.providerExecuted) rows
  attributedInvocations := countWhere (·.usageKnown) rows
  unavailableInvocations := countWhere (fun row => row.providerExecuted &&& ~~~row.usageKnown) rows

/-- The sum of the costs, in units of their last decimal. -/
def estimatedCostUnits (rows : List InvocationRow) : Int :=
  sumCase (·.costKnown) (·.costTotal) none rows

def estimatedCostTotals (rows : List InvocationRow) : EstimatedCostTotals where
  currency := "USD"
  total := numericValue 12 (estimatedCostUnits rows)
  attributedInvocations := countWhere (·.costKnown) rows
  unavailableInvocations := countWhere (fun row => row.successful &&& ~~~row.costKnown) rows

/-- One group of `_breakdown_statement`. -/
def costBreakdown (identity : InvocationRow → Uuid) (rows : List InvocationRow) (id : Uuid) :
    CostBreakdown where
  id := id
  invocationCount := (group identity id rows).length
  totalUnits := sumCase (·.usageKnown) (·.totalUnits) (some 0) (group identity id rows)
  usageAttributedInvocations := countWhere (·.usageKnown) (group identity id rows)
  usageUnavailableInvocations :=
    countWhere (fun row => row.providerExecuted &&& ~~~row.usageKnown) (group identity id rows)
  estimatedCostTotal := numericValue 12 (estimatedCostUnits (group identity id rows))
  costAttributedInvocations := countWhere (·.costKnown) (group identity id rows)
  costUnavailableInvocations :=
    countWhere (fun row => row.successful &&& ~~~row.costKnown) (group identity id rows)

/-- `ORDER BY estimated_cost_total DESC, id ASC`. -/
def costOrder (a b : CostBreakdown) : Bool :=
  b.estimatedCostTotal < a.estimatedCostTotal ||
    (b.estimatedCostTotal ≤ a.estimatedCostTotal && a.id.int ≤ b.id.int)

/-- `_breakdown_statement`. -/
def breakdownStatement (identity : InvocationRow → Uuid) (rows : List InvocationRow) :
    List CostBreakdown :=
  ranked costOrder (topN + 1) ((keys identity rows).map (costBreakdown identity rows))

/-- `get_report`. -/
def getReport (rows : List InvocationRow) (tenantId : Uuid) (start «end» : Utc) :
    TenantRuntimeReport :=
  let reported := reportedRows rows tenantId start «end»
  let agentRows := breakdownStatement (·.agentId) reported
  let modelRows := breakdownStatement (·.modelId) reported
  { tenantId, start, «end»
    invocations := invocationCounts reported
    usage := usageTotals reported
    estimatedCost := estimatedCostTotals reported
    topAgentsByEstimatedCost := agentRows.take topN
    topModelsByEstimatedCost := modelRows.take topN
    agentBreakdownTruncated := agentRows.length > topN
    modelBreakdownTruncated := modelRows.length > topN }

/-! ## Rows of the handler -/

/-- A row that the handler has written. -/
def Persisted (row : InvocationRow) : Prop :=
  ∃ i, Built i ∧ InvocationRow.ofInvocation i = .ok row ∧ row.checks = .ok ()

/-- What the aggregates rely on: one of five statuses, usage and cost only with the first. -/
structure Regular (row : InvocationRow) : Prop where
  status : ∃ s : InvocationStatus, row.status = s.value
  inputUnits : row.inputUnits.isSome → row.status = "succeeded"
  outputUnits : row.outputUnits.isSome → row.status = "succeeded"
  totalUnits : row.totalUnits.isSome → row.status = "succeeded"
  costTotal : row.costTotal.isSome → row.status = "succeeded"

theorem Built.usage {i : Invocation} (h : Built i) (hu : i.usage.isSome) : i.status = .succeeded := by
  have hfields : ∀ {f : InvocationFields}, Invocation.new f = .ok i →
      i.status = f.status ∧ i.usage = f.usage := by
    intro f hf
    have heq := InvocationFields.postInit_eq (Invocation.new_ok hf)
    rw [heq]
    exact ⟨rfl, rfl⟩
  have hnone : ∀ {f : InvocationFields}, Invocation.new f = .ok i → f.usage = none → False := by
    intro f hf hno
    rw [(hfields hf).2, hno] at hu
    cases hu
  cases h with
  | denied _ hi =>
    obtain ⟨ms, _, hi⟩ := Except.bind_ok_cases hi
    exact (hnone hi rfl).elim
  | limited _ _ _ _ hi =>
    obtain ⟨ms, _, hi⟩ := Except.bind_ok_cases hi
    exact (hnone hi rfl).elim
  | costLimited _ _ _ _ hi =>
    obtain ⟨ms, _, hi⟩ := Except.bind_ok_cases hi
    exact (hnone hi rfl).elim
  | failed _ hi =>
    obtain ⟨ms, _, hi⟩ := Except.bind_ok_cases hi
    exact (hnone hi rfl).elim
  | succeeded _ _ hi =>
    obtain ⟨ms, _, hi⟩ := Except.bind_ok_cases hi
    exact (hfields hi).1

/-- The columns that the aggregates read, as the Invocation has them. -/
theorem InvocationRow.ofInvocation_ok {i : Invocation} {row : InvocationRow}
    (h : ofInvocation i = .ok row) :
    row.status = i.status.value ∧
      row.inputUnits.isSome = (i.usage.bind (·.inputUnits)).isSome ∧
      row.outputUnits.isSome = (i.usage.bind (·.outputUnits)).isSome ∧
      row.totalUnits.isSome = (i.usage.bind (·.totalUnits)).isSome ∧
      row.costTotal.isSome = i.estimatedCost.isSome := by
  unfold ofInvocation at h
  obtain ⟨_, _, h⟩ := Except.bind_ok_cases h
  obtain ⟨_, _, h⟩ := Except.bind_ok_cases h
  obtain ⟨_, _, h⟩ := Except.bind_ok_cases h
  obtain ⟨_, _, h⟩ := Except.bind_ok_cases h
  obtain ⟨_, hinput, h⟩ := Except.bind_ok_cases h
  obtain ⟨_, houtput, h⟩ := Except.bind_ok_cases h
  obtain ⟨_, htotal, h⟩ := Except.bind_ok_cases h
  obtain ⟨_, _, h⟩ := Except.bind_ok_cases h
  obtain ⟨_, _, h⟩ := Except.bind_ok_cases h
  obtain ⟨_, _, h⟩ := Except.bind_ok_cases h
  obtain ⟨_, _, h⟩ := Except.bind_ok_cases h
  obtain ⟨_, _, h⟩ := Except.bind_ok_cases h
  obtain ⟨_, _, h⟩ := Except.bind_ok_cases h
  obtain ⟨_, _, h⟩ := Except.bind_ok_cases h
  obtain ⟨_, hcost, h⟩ := Except.bind_ok_cases h
  obtain ⟨_, _, h⟩ := Except.bind_ok_cases h
  obtain ⟨_, _, h⟩ := Except.bind_ok_cases h
  obtain ⟨_, _, h⟩ := Except.bind_ok_cases h
  obtain ⟨_, _, h⟩ := Except.bind_ok_cases h
  obtain ⟨_, _, h⟩ := Except.bind_ok_cases h
  obtain ⟨_, _, h⟩ := Except.bind_ok_cases h
  obtain ⟨_, _, h⟩ := Except.bind_ok_cases h
  cases h
  refine ⟨rfl, Except.isSome_mapM hinput, Except.isSome_mapM houtput, Except.isSome_mapM htotal, ?_⟩
  rw [Except.isSome_mapM hcost, Option.isSome_map]

theorem Persisted.regular {row : InvocationRow} (h : Persisted row) : Regular row := by
  obtain ⟨i, hb, hrow, _⟩ := h
  obtain ⟨hstatus, hinput, houtput, htotal, hcost⟩ := InvocationRow.ofInvocation_ok hrow
  have husage : i.usage.isSome → row.status = "succeeded" := by
    intro hu
    rw [hstatus, hb.usage hu]
    rfl
  have hbind : ∀ part : InvocationUsage → Option Int, (i.usage.bind part).isSome → i.usage.isSome := by
    intro part hsome
    cases hu : i.usage with
    | none =>
      rw [hu] at hsome
      cases hsome
    | some u => rfl
  refine ⟨⟨i.status, hstatus⟩, ?_, ?_, ?_, ?_⟩
  · exact fun hsome => husage (hbind _ (hinput ▸ hsome))
  · exact fun hsome => husage (hbind _ (houtput ▸ hsome))
  · exact fun hsome => husage (hbind _ (htotal ▸ hsome))
  · intro hsome
    have haccepted := InvocationFields.postInit_eq_self.mp i.accepted
    have hsucceeded := (InvocationFields.checkEstimatedCost_ok haccepted.estimatedCost
      (hcost ▸ hsome)).1
    rw [hstatus, hsucceeded]
    rfl

/-! ## Aggregates as sums -/

theorem countWhere_eq_sum (c : InvocationRow → Truth) (rows : List InvocationRow) :
    countWhere c rows = (rows.map fun row => if (c row).Holds then 1 else 0).sum := by
  induction rows with
  | nil => rfl
  | cons row rows ih =>
    rw [List.map_cons, List.sum_cons, ← ih]
    by_cases h : (c row).Holds
    · simp [countWhere, h, add_comm]
    · simp [countWhere, h]

theorem sumCase_eq_sum (c : InvocationRow → Truth) (x : InvocationRow → Option Int) (y : Option Int)
    (rows : List InvocationRow) :
    sumCase c x y rows =
      (rows.map fun row => (if (c row).Holds then x row else y).getD 0).sum := by
  induction rows with
  | nil => rfl
  | cons row rows ih =>
    rw [List.map_cons, List.sum_cons, ← ih]
    cases h : (if (c row).Holds then x row else y) with
    | none => simp [sumCase, h]
    | some n => simp [sumCase, h]

/-- A condition that is the other two, which exclude each other. -/
theorem countWhere_add {a b c : InvocationRow → Truth} {rows : List InvocationRow}
    (h : ∀ row ∈ rows, ((c row).Holds ↔ (a row).Holds ∨ (b row).Holds) ∧
      ¬((a row).Holds ∧ (b row).Holds)) :
    countWhere c rows = countWhere a rows + countWhere b rows := by
  rw [countWhere_eq_sum, countWhere_eq_sum, countWhere_eq_sum, ← List.sum_map_add]
  congr 1
  refine List.map_congr_left fun row hrow => ?_
  obtain ⟨hiff, hnot⟩ := h row hrow
  by_cases ha : (a row).Holds
  · have hb : ¬(b row).Holds := fun hb => hnot ⟨ha, hb⟩
    rw [if_pos (hiff.mpr (.inl ha)), if_pos ha, if_neg hb]
  · by_cases hb : (b row).Holds
    · rw [if_pos (hiff.mpr (.inr hb)), if_neg ha, if_pos hb]
    · rw [if_neg (by rw [hiff]; exact not_or.mpr ⟨ha, hb⟩), if_neg ha, if_neg hb]

/-! ## The classification -/

theorem usageKnown_eq (row : InvocationRow) :
    row.usageKnown = .ofBool (decide (row.status ∈ ["succeeded", "failed"]) &&
      row.inputUnits.isSome && row.outputUnits.isSome && row.totalUnits.isSome) := by
  simp [InvocationRow.usageKnown, InvocationRow.providerExecuted, isNotNull]

theorem costKnown_eq (row : InvocationRow) :
    row.costKnown = .ofBool (decide (row.status = "succeeded") && row.costTotal.isSome) := by
  simp [InvocationRow.costKnown, InvocationRow.successful, InvocationRow.statusIs, isNotNull]

/-- Every row has exactly one of the five statuses. -/
theorem length_eq_statuses {rows : List InvocationRow} (h : ∀ row ∈ rows, Regular row) :
    rows.length = countWhere (·.statusIs "succeeded") rows + countWhere (·.statusIs "failed") rows +
      countWhere (·.statusIs "denied") rows + countWhere (·.statusIs "limited") rows +
      countWhere (·.statusIs "cost_limited") rows := by
  have hone : ∀ row ∈ rows, (1 : ℕ) = (if (row.statusIs "succeeded").Holds then 1 else 0) +
      (if (row.statusIs "failed").Holds then 1 else 0) +
      (if (row.statusIs "denied").Holds then 1 else 0) +
      (if (row.statusIs "limited").Holds then 1 else 0) +
      (if (row.statusIs "cost_limited").Holds then 1 else 0) := by
    intro row hrow
    obtain ⟨s, hs⟩ := (h row hrow).status
    simp only [InvocationRow.statusIs, hs, Truth.holds_ofBool, decide_eq_true_eq]
    cases s <;> decide +kernel
  have hlength : rows.length = (rows.map fun _ => 1).sum := by simp
  simp only [countWhere_eq_sum, ← List.sum_map_add]
  rw [hlength]
  exact congrArg List.sum (List.map_congr_left hone)

theorem executed_eq (rows : List InvocationRow) :
    countWhere (·.providerExecuted) rows = countWhere (·.usageKnown) rows +
      countWhere (fun row => row.providerExecuted &&& ~~~row.usageKnown) rows := by
  refine countWhere_add fun row _ => ?_
  simp only [usageKnown_eq, InvocationRow.providerExecuted, Truth.not_ofBool, Truth.ofBool_and,
    Truth.holds_ofBool]
  grind

theorem succeeded_eq (rows : List InvocationRow) :
    countWhere (·.statusIs "succeeded") rows = countWhere (·.costKnown) rows +
      countWhere (fun row => row.successful &&& ~~~row.costKnown) rows := by
  refine countWhere_add fun row _ => ?_
  simp only [costKnown_eq, InvocationRow.successful, InvocationRow.statusIs, Truth.not_ofBool,
    Truth.ofBool_and, Truth.holds_ofBool]
  grind

/-- All three counts of the provider are there. -/
def InvocationRow.usageComplete (row : InvocationRow) : Bool :=
  row.inputUnits.isSome && row.outputUnits.isSome && row.totalUnits.isSome

/-- Usage sums leave out exactly the rows without complete usage. -/
theorem sumCase_usageKnown {rows : List InvocationRow} (h : ∀ row ∈ rows, Regular row)
    (x : InvocationRow → Option Int) :
    sumCase (·.usageKnown) x (some 0) rows = ((rows.filter (·.usageComplete)).filterMap x).sum := by
  induction rows with
  | nil => rfl
  | cons row rows ih =>
    have ih' := ih fun r hr => h r (List.mem_cons_of_mem _ hr)
    have hholds : row.usageKnown.Holds ↔ row.usageComplete := by
      have hinput := (h row List.mem_cons_self).inputUnits
      rw [usageKnown_eq, Truth.holds_ofBool, InvocationRow.usageComplete]
      grind
    rw [sumCase_eq_sum] at ih' ⊢
    rw [List.map_cons, List.sum_cons, ih']
    by_cases hc : row.usageComplete
    · rw [if_pos (hholds.mpr hc), List.filter_cons_of_pos hc]
      cases hx : x row <;> simp [hx]
    · rw [if_neg (mt hholds.mp hc), List.filter_cons_of_neg hc]
      simp

/-- Cost sums leave out nothing: only a succeeded Invocation has a cost. -/
theorem estimatedCostUnits_eq {rows : List InvocationRow} (h : ∀ row ∈ rows, Regular row) :
    estimatedCostUnits rows = (rows.filterMap (·.costTotal)).sum := by
  induction rows with
  | nil => rfl
  | cons row rows ih =>
    have ih' := ih fun r hr => h r (List.mem_cons_of_mem _ hr)
    have hcost := (h row List.mem_cons_self).costTotal
    unfold estimatedCostUnits at ih' ⊢
    rw [sumCase_eq_sum] at ih' ⊢
    rw [List.map_cons, List.sum_cons, ih', costKnown_eq]
    cases ht : row.costTotal with
    | none => simp [ht]
    | some n =>
      have hstatus := hcost (by rw [ht]; rfl)
      simp [ht, hstatus]

theorem toRat_numericValue (n : Int) : (numericValue 12 n).toRat = n * 10 ^ (-12 : ℤ) := rfl

/-! ## The order of the breakdown -/

theorem costOrder_iff {a b : CostBreakdown} :
    costOrder a b = true ↔ b.estimatedCostTotal.toRat < a.estimatedCostTotal.toRat ∨
      (b.estimatedCostTotal.toRat = a.estimatedCostTotal.toRat ∧ a.id.int ≤ b.id.int) := by
  simp only [costOrder, Bool.or_eq_true, Bool.and_eq_true, decide_eq_true_eq, lt_iff_toRat,
    le_iff_toRat]
  constructor
  · rintro (hlt | ⟨hle, hid⟩)
    · exact .inl hlt
    · rcases hle.lt_or_eq with hlt | heq
      · exact .inl hlt
      · exact .inr ⟨heq, hid⟩
  · rintro (hlt | ⟨heq, hid⟩)
    · exact .inl hlt
    · exact .inr ⟨heq.le, hid⟩

theorem costOrder_trans (a b c : CostBreakdown) (hab : costOrder a b) (hbc : costOrder b c) :
    costOrder a c := by
  rw [costOrder_iff] at hab hbc ⊢
  rcases hab with hab | ⟨hab, hid⟩
  · rcases hbc with hbc | ⟨hbc, _⟩
    · exact .inl (hbc.trans hab)
    · exact .inl (hbc ▸ hab)
  · rcases hbc with hbc | ⟨hbc, hid'⟩
    · exact .inl (hab ▸ hbc)
    · exact .inr ⟨hbc.trans hab, hid.trans hid'⟩

theorem costOrder_total (a b : CostBreakdown) : costOrder a b || costOrder b a := by
  rw [Bool.or_eq_true, costOrder_iff, costOrder_iff]
  rcases lt_trichotomy a.estimatedCostTotal.toRat b.estimatedCostTotal.toRat with hlt | heq | hlt
  · exact .inr (.inl hlt)
  · rcases le_total a.id.int b.id.int with hid | hid
    · exact .inl (.inr ⟨heq.symm, hid⟩)
    · exact .inr (.inr ⟨heq, hid⟩)
  · exact .inl (.inl hlt)

/-! ## Breakdowns -/

/-- The aggregates of a breakdown, as sums over the rows of a group. -/
theorem invocationCount_eq (identity : InvocationRow → Uuid) (rows : List InvocationRow) (id : Uuid) :
    (costBreakdown identity rows id).invocationCount = ((group identity id rows).map fun _ => 1).sum := by
  simp [costBreakdown]

theorem estimatedCostTotal_eq (rows : List InvocationRow) :
    (numericValue 12 (estimatedCostUnits rows)).toRat = (rows.map fun row =>
      (((if row.costKnown.Holds then row.costTotal else none).getD 0 : ℤ) : ℚ) *
        10 ^ (-12 : ℤ)).sum := by
  rw [toRat_numericValue, estimatedCostUnits, sumCase_eq_sum, Int.cast_list_sum, List.map_map,
    ← List.sum_map_mul_right]
  rfl

/-- The columns of all groups together. -/
theorem sum_breakdowns {M : Type} [AddCommMonoid M] {identity : InvocationRow → Uuid}
    {rows : List InvocationRow} {listed : List CostBreakdown} {f : CostBreakdown → M}
    {m : InvocationRow → M} (hperm : listed.Perm ((keys identity rows).map (costBreakdown identity rows)))
    (hf : ∀ id, f (costBreakdown identity rows id) = ((group identity id rows).map m).sum) :
    (listed.map f).sum = (rows.map m).sum := by
  rw [(hperm.map f).sum_eq, List.map_map, ← sum_groups identity m rows]
  exact congrArg List.sum (List.map_congr_left fun id _ => hf id)

/-- The first ten identities by cost, each once, and all of them where there are no more. -/
structure BreakdownCorrect (identity : InvocationRow → Uuid) (rows : List InvocationRow)
    (report : TenantRuntimeReport) (listed : List CostBreakdown) (truncated : Bool) : Prop where
  length : listed.length = min topN (keys identity rows).length
  nodup : (listed.map (·.id)).Nodup
  entries : ∀ b ∈ listed, b.id ∈ keys identity rows ∧ b = costBreakdown identity rows b.id
  ordered : listed.Pairwise fun a b => b.estimatedCostTotal.toRat < a.estimatedCostTotal.toRat ∨
    (b.estimatedCostTotal.toRat = a.estimatedCostTotal.toRat ∧ a.id.int < b.id.int)
  highest : ∀ id ∈ keys identity rows, id ∉ listed.map (·.id) → ∀ a ∈ listed,
    (costBreakdown identity rows id).estimatedCostTotal.toRat < a.estimatedCostTotal.toRat ∨
    ((costBreakdown identity rows id).estimatedCostTotal.toRat = a.estimatedCostTotal.toRat ∧
      a.id.int < id.int)
  truncated_iff : truncated = true ↔ topN < (keys identity rows).length
  counts : truncated = false →
    (listed.map (·.invocationCount)).sum = report.invocations.total ∧
    (listed.map (·.usageAttributedInvocations)).sum = report.usage.attributedInvocations ∧
    (listed.map (·.usageUnavailableInvocations)).sum = report.usage.unavailableInvocations ∧
    (listed.map (·.costAttributedInvocations)).sum = report.estimatedCost.attributedInvocations ∧
    (listed.map (·.costUnavailableInvocations)).sum = report.estimatedCost.unavailableInvocations
  sums : truncated = false →
    (listed.map (·.totalUnits)).sum = report.usage.totalUnits ∧
    (listed.map (·.estimatedCostTotal.toRat)).sum = report.estimatedCost.total.toRat

theorem uuid_lt_of_ne {a b : Uuid} (hne : a ≠ b) (h : a.int ≤ b.int) : a.int < b.int := by
  refine lt_of_le_of_ne h fun heq => hne ?_
  cases a
  cases b
  simpa using heq

theorem strict_of_costOrder {a b : CostBreakdown} (hne : a.id ≠ b.id) (h : costOrder a b = true) :
    b.estimatedCostTotal.toRat < a.estimatedCostTotal.toRat ∨
      (b.estimatedCostTotal.toRat = a.estimatedCostTotal.toRat ∧ a.id.int < b.id.int) := by
  rcases costOrder_iff.mp h with hlt | ⟨heq, hid⟩
  · exact .inl hlt
  · exact .inr ⟨heq, uuid_lt_of_ne hne hid⟩

theorem breakdown_correct {identity : InvocationRow → Uuid} {rows : List InvocationRow}
    {report : TenantRuntimeReport} (hinvocations : report.invocations = invocationCounts rows)
    (husage : report.usage = usageTotals rows)
    (hcost : report.estimatedCost = estimatedCostTotals rows) :
    BreakdownCorrect identity rows report ((breakdownStatement identity rows).take topN)
      ((breakdownStatement identity rows).length > topN) := by
  have hids : ((keys identity rows).map (costBreakdown identity rows)).map (·.id) =
      keys identity rows := by
    rw [List.map_map]
    exact List.map_id _
  have hnodup : (((keys identity rows).map (costBreakdown identity rows)).map (·.id)).Nodup := by
    rw [hids]
    exact nodup_keys identity rows
  have hlisted : (breakdownStatement identity rows).take topN =
      ranked costOrder topN ((keys identity rows).map (costBreakdown identity rows)) :=
    take_ranked (Nat.le_succ _)
  have htruncated : (breakdownStatement identity rows).length > topN ↔
      topN < (keys identity rows).length := by
    rw [breakdownStatement, length_ranked, List.length_map]
    omega
  rw [hlisted]
  have hperm : decide ((breakdownStatement identity rows).length > topN) = false →
      (ranked costOrder topN ((keys identity rows).map (costBreakdown identity rows))).Perm
        ((keys identity rows).map (costBreakdown identity rows)) := by
    intro h
    refine ranked_perm ?_
    rw [List.length_map]
    simpa [htruncated] using h
  have hranked : ((ranked costOrder topN ((keys identity rows).map
      (costBreakdown identity rows))).map CostBreakdown.id).Nodup := nodup_map_ranked CostBreakdown.id hnodup
  constructor
  case length => rw [length_ranked, List.length_map]
  case nodup => exact hranked
  case entries =>
    intro b hb
    obtain ⟨id, hid, rfl⟩ := List.mem_map.mp (mem_of_mem_ranked hb)
    exact ⟨hid, rfl⟩
  case ordered =>
    have hdistinct := List.pairwise_map.mp hranked
    have hordered : (ranked costOrder topN ((keys identity rows).map
        (costBreakdown identity rows))).Pairwise fun a b => costOrder a b :=
      ranked_ordered costOrder_trans costOrder_total
    exact (hdistinct.and hordered).imp fun ⟨hne, hle⟩ => strict_of_costOrder hne hle
  case highest =>
    intro id hid hout a ha
    have hmem : costBreakdown identity rows id ∈
        (keys identity rows).map (costBreakdown identity rows) := List.mem_map_of_mem hid
    have hnot : costBreakdown identity rows id ∉
        ranked costOrder topN ((keys identity rows).map (costBreakdown identity rows)) :=
      fun hin => hout (List.mem_map_of_mem (f := (·.id)) hin)
    have hne : a.id ≠ id := fun heq => hout (heq ▸ List.mem_map_of_mem (f := (·.id)) ha)
    exact strict_of_costOrder hne
      (ranked_before costOrder_trans costOrder_total ha hmem hnot)
  case truncated_iff => rw [decide_eq_true_eq, htruncated]
  case counts =>
    intro h
    rw [hinvocations, husage, hcost]
    refine ⟨?_, ?_, ?_, ?_, ?_⟩
    · rw [sum_breakdowns (hperm h) (invocationCount_eq identity rows)]
      simp [invocationCounts]
    all_goals
      rw [sum_breakdowns (hperm h) fun id => countWhere_eq_sum _ (group identity id rows)]
      exact (countWhere_eq_sum _ rows).symm
  case sums =>
    intro h
    rw [husage, hcost]
    constructor
    · rw [sum_breakdowns (hperm h) fun id => sumCase_eq_sum _ _ _ (group identity id rows)]
      exact (sumCase_eq_sum _ _ _ rows).symm
    · rw [sum_breakdowns (hperm h) fun id => estimatedCostTotal_eq (group identity id rows)]
      exact (estimatedCostTotal_eq rows).symm

/-! ## Ranges -/

/-- A range splits at any point. -/
theorem sum_reportedRows {M : Type} [AddCommMonoid M] (m : InvocationRow → M)
    (rows : List InvocationRow) (tenantId : Uuid) {start mid «end» : Utc}
    (h : start.instant ≤ mid.instant) (h' : mid.instant ≤ «end».instant) :
    ((reportedRows rows tenantId start «end»).map m).sum =
      ((reportedRows rows tenantId start mid).map m).sum +
        ((reportedRows rows tenantId mid «end»).map m).sum := by
  induction rows with
  | nil => simp [reportedRows]
  | cons row rows ih =>
    simp only [reportedRows] at ih ⊢
    by_cases ht : row.tenantId = tenantId
    · by_cases hbefore : row.startedAt.instant < mid.instant
      · have hfirst : row.startedIn mid «end» = false := by
          simp only [InvocationRow.startedIn, Bool.and_eq_false_iff, decide_eq_false_iff_not]
          omega
        have hsame : row.startedIn start «end» = row.startedIn start mid := by
          simp only [InvocationRow.startedIn]
          grind
        by_cases hin : row.startedIn start mid
        · simp [ht, hsame, hin, hfirst, ih, add_assoc]
        · simp [ht, hsame, hin, hfirst, ih]
      · have hsecond : row.startedIn start mid = false := by
          simp only [InvocationRow.startedIn, Bool.and_eq_false_iff, decide_eq_false_iff_not]
          omega
        have hsame : row.startedIn start «end» = row.startedIn mid «end» := by
          simp only [InvocationRow.startedIn]
          grind
        by_cases hin : row.startedIn mid «end»
        · simp [ht, hsame, hin, hsecond, ih, add_left_comm]
        · simp [ht, hsame, hin, hsecond, ih]
    · simp [ht, ih]

def InvocationCounts.add (a b : InvocationCounts) : InvocationCounts :=
  ⟨a.total + b.total, a.succeeded + b.succeeded, a.failed + b.failed, a.denied + b.denied,
    a.limited + b.limited, a.costLimited + b.costLimited⟩

def UsageTotals.add (a b : UsageTotals) : UsageTotals :=
  ⟨a.inputUnits + b.inputUnits, a.outputUnits + b.outputUnits, a.totalUnits + b.totalUnits,
    a.providerExecutedInvocations + b.providerExecutedInvocations,
    a.attributedInvocations + b.attributedInvocations,
    a.unavailableInvocations + b.unavailableInvocations⟩

/-- The counts and sums of a range are those of its two parts together. -/
structure SplitsAt (whole first second : TenantRuntimeReport) : Prop where
  invocations : whole.invocations = first.invocations.add second.invocations
  usage : whole.usage = first.usage.add second.usage
  cost : whole.estimatedCost.total.toRat =
    first.estimatedCost.total.toRat + second.estimatedCost.total.toRat
  attributed : whole.estimatedCost.attributedInvocations =
    first.estimatedCost.attributedInvocations + second.estimatedCost.attributedInvocations
  unavailable : whole.estimatedCost.unavailableInvocations =
    first.estimatedCost.unavailableInvocations + second.estimatedCost.unavailableInvocations

theorem getReport_splitsAt (rows : List InvocationRow) (tenantId : Uuid) {start mid «end» : Utc}
    (h : start.instant ≤ mid.instant) (h' : mid.instant ≤ «end».instant) :
    SplitsAt (getReport rows tenantId start «end») (getReport rows tenantId start mid)
      (getReport rows tenantId mid «end») := by
  have hcount : ∀ c, countWhere c (reportedRows rows tenantId start «end») =
      countWhere c (reportedRows rows tenantId start mid) +
        countWhere c (reportedRows rows tenantId mid «end») := by
    intro c
    rw [countWhere_eq_sum, countWhere_eq_sum, countWhere_eq_sum]
    exact sum_reportedRows _ rows tenantId h h'
  have hsum : ∀ c x y, sumCase c x y (reportedRows rows tenantId start «end») =
      sumCase c x y (reportedRows rows tenantId start mid) +
        sumCase c x y (reportedRows rows tenantId mid «end») := by
    intro c x y
    rw [sumCase_eq_sum, sumCase_eq_sum, sumCase_eq_sum]
    exact sum_reportedRows _ rows tenantId h h'
  have hlength : (reportedRows rows tenantId start «end»).length =
      (reportedRows rows tenantId start mid).length +
        (reportedRows rows tenantId mid «end»).length := by
    have hone := sum_reportedRows (fun _ => 1) rows tenantId h h'
    simpa using hone
  constructor
  case invocations =>
    simp only [getReport, invocationCounts, InvocationCounts.add, hlength, hcount]
  case usage => simp only [getReport, usageTotals, UsageTotals.add, hcount, hsum]
  case cost =>
    simp only [getReport, estimatedCostTotals, toRat_numericValue, estimatedCostUnits, hsum]
    push_cast
    ring
  case attributed => exact hcount _
  case unavailable => exact hcount _

/-! ## The whole report -/

theorem attributedCost_toRat (rows : List InvocationRow) (tenantId : Uuid) (start «end» : Utc) :
    (attributedCost rows tenantId start «end»).toRat =
      (((reportedRows rows tenantId start «end»).filterMap (·.costTotal)).sum : ℤ) *
        10 ^ (-12 : ℤ) := by
  unfold attributedCost reportedRows
  dsimp only
  split
  · next hzero => rw [hzero, toRat_zero, Int.cast_zero, zero_mul]
  · rfl

/-- The report on the rows of a tenant in a range. -/
structure ReportCorrect (rows : List InvocationRow) (tenantId : Uuid) (start «end» : Utc)
    (report : TenantRuntimeReport) : Prop where
  total : report.invocations.total = report.invocations.succeeded + report.invocations.failed +
    report.invocations.denied + report.invocations.limited + report.invocations.costLimited
  executed : report.usage.providerExecutedInvocations =
    report.usage.attributedInvocations + report.usage.unavailableInvocations
  succeeded : report.invocations.succeeded =
    report.estimatedCost.attributedInvocations + report.estimatedCost.unavailableInvocations
  inputUnits : report.usage.inputUnits = (((reportedRows rows tenantId start «end»).filter
    (·.usageComplete)).filterMap (·.inputUnits)).sum
  outputUnits : report.usage.outputUnits = (((reportedRows rows tenantId start «end»).filter
    (·.usageComplete)).filterMap (·.outputUnits)).sum
  totalUnits : report.usage.totalUnits = (((reportedRows rows tenantId start «end»).filter
    (·.usageComplete)).filterMap (·.totalUnits)).sum
  cost : report.estimatedCost.total.toRat =
    (((reportedRows rows tenantId start «end»).filterMap (·.costTotal)).sum : ℤ) * 10 ^ (-12 : ℤ)
  agents : BreakdownCorrect (·.agentId) (reportedRows rows tenantId start «end») report
    report.topAgentsByEstimatedCost report.agentBreakdownTruncated
  models : BreakdownCorrect (·.modelId) (reportedRows rows tenantId start «end») report
    report.topModelsByEstimatedCost report.modelBreakdownTruncated
  ranges : ∀ mid : Utc, start.instant ≤ mid.instant → mid.instant ≤ «end».instant →
    SplitsAt report (getReport rows tenantId start mid) (getReport rows tenantId mid «end»)

/-- Of every store that the handler can produce the report is what it says, and over the day
    of a request its cost is what the budget of that request is decided on. -/
theorem getReport_correct {rows : List InvocationRow} (h : ∀ row ∈ rows, Persisted row)
    (tenantId : Uuid) :
    (∀ start «end», ReportCorrect rows tenantId start «end» (getReport rows tenantId start «end»)) ∧
    ∀ at' window, utcDayWindow at' = .ok window →
      (getReport rows tenantId window.start window.end).estimatedCost.total.toRat =
        (attributedCost rows tenantId window.start window.end).toRat := by
  have hregular : ∀ start «end», ∀ row ∈ reportedRows rows tenantId start «end», Regular row :=
    fun start «end» row hrow => (h row (List.mem_of_mem_filter hrow)).regular
  have hcost : ∀ start «end», (getReport rows tenantId start «end»).estimatedCost.total.toRat =
      (((reportedRows rows tenantId start «end»).filterMap (·.costTotal)).sum : ℤ) *
        10 ^ (-12 : ℤ) := by
    intro start «end»
    rw [← estimatedCostUnits_eq (hregular start «end»)]
    rfl
  constructor
  · intro start «end»
    exact {
      total := length_eq_statuses (hregular start «end»)
      executed := executed_eq _
      succeeded := succeeded_eq _
      inputUnits := sumCase_usageKnown (hregular start «end») _
      outputUnits := sumCase_usageKnown (hregular start «end») _
      totalUnits := sumCase_usageKnown (hregular start «end») _
      cost := hcost start «end»
      agents := breakdown_correct rfl rfl rfl
      models := breakdown_correct rfl rfl rfl
      ranges := fun _ hstart hend => getReport_splitsAt rows tenantId hstart hend }
  · intro at' window _
    rw [hcost, attributedCost_toRat]

theorem sampleRow_persisted : Persisted (storedRow sampleFields) :=
  ⟨sampleInvocation, sampleInvocation_built, by decide +kernel, by decide +kernel⟩

/-- The day of the sample. -/
def sampleDay : UsageWindow := ⟨0, 86400000000⟩

theorem getReport_correct_of_sample :
    ReportCorrect [storedRow sampleFields] samplePrincipal.tenantId sampleDay.start sampleDay.end
        (getReport [storedRow sampleFields] samplePrincipal.tenantId sampleDay.start sampleDay.end) ∧
      (getReport [storedRow sampleFields] samplePrincipal.tenantId sampleDay.start
          sampleDay.end).estimatedCost.total.toRat =
        (attributedCost [storedRow sampleFields] samplePrincipal.tenantId sampleDay.start
          sampleDay.end).toRat := by
  obtain ⟨hreport, hcost⟩ := @getReport_correct [storedRow sampleFields]
    (fun _ hrow => List.mem_singleton.mp hrow ▸ sampleRow_persisted) samplePrincipal.tenantId
  exact ⟨hreport _ _, hcost 0 sampleDay rfl⟩

end Valor.RuntimeGateway
