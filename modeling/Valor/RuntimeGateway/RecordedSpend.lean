/-
  Runtime gateway: which executions are recorded.

  Once the provider is called the handler stores one Invocation, unless something raises
  before: the attribution of the cost, the constructor, or the statement that inserts the
  row. For results of the OpenAI adapter, configured pricing and a clock that does not run
  backwards, only the columns can refuse: `recorded_iff` says exactly which values do.
-/
import Valor.RuntimeGateway.Gates
import Valor.RuntimeGateway.Limits
import Valor.RuntimeGateway.OpenaiProvider
import Valor.RuntimeGateway.Persistence

namespace Valor.RuntimeGateway

open Python Postgres Prog Decimal Settings

/-! ## What the handler stores of an execution -/

/-- The Invocation of an execution: of what the provider answered, or of its failure. -/
inductive Gate.Spent (answers : Answers Port Port.Res Error) (c : Invocation.Common)
    (model : ModelRuntimeReference) : Invocation → Prop
  | succeeded {result pricing cost i}
      (answered : answers (.invoke model.providerModelReference c.inputText) = .ok result)
      (priced : answers (.resolvePricing model.provider model.providerModelReference) = .ok pricing)
      (attributed : attributeCost result.usage pricing = .ok cost)
      (hi : Invocation.succeeded c result.outputText result.usage result.providerResponseId cost =
        .ok i) : Spent answers c model i
  | failed {i}
      (answered : answers (.invoke model.providerModelReference c.inputText) =
        .error .providerTransportError)
      (hi : Invocation.failed c = .ok i) : Spent answers c model i

section Spent

variable {answers : Answers Port Port.Res Error} {env : InvocationEnv} {command : CreateInvocationCommand}
  {c : Invocation.Common} {model : ModelRuntimeReference} {inputText : String}
  {decision : RuntimePolicyDecision} {i : Invocation}

theorem mem_succeed {result : ProviderInvocationResult} :
    Port.invocationsAdd i ∈ (succeed c model result).calls answers ↔ ∃ pricing cost,
      answers (.resolvePricing model.provider model.providerModelReference) = .ok pricing ∧
        attributeCost result.usage pricing = .ok cost ∧
        Invocation.succeeded c result.outputText result.usage result.providerResponseId cost = .ok i := by
  simp only [succeed, bind_eq, mem_calls_bind, orCostError, orInvocationError, calls_lift,
    outcome_lift_eq_ok, List.not_mem_nil, false_or, pure_eq, calls_ret, and_false, exists_false, or_false]
  constructor
  · rintro (h | ⟨pricing, hpricing, cost, hcost, i', hi, h⟩)
    · exact absurd (rank_of_mem_ask h) (by simp [Port.rank])
    · cases (mem_persist (by simp [Port.rank])).mp h
      rw [outcome_ask] at hpricing
      exact ⟨pricing, cost, hpricing, hcost, hi⟩
  · rintro ⟨pricing, cost, hpricing, hcost, hi⟩
    exact .inr ⟨pricing, outcome_ask.trans hpricing, cost, hcost, i, hi,
      (mem_persist (by simp [Port.rank])).mpr rfl⟩

theorem mem_execute :
    Port.invocationsAdd i ∈ (execute c model).calls answers ↔ Gate.Spent answers c model i := by
  rw [mem_calls_execute (by simp [Port.rank])]
  constructor
  · rintro (h | ⟨result, hresult, h⟩ | ⟨hfailed, _, hi, hadd⟩)
    · cases h
    · obtain ⟨pricing, cost, hpricing, hcost, hi⟩ := mem_succeed.mp h
      exact .succeeded hresult hpricing hcost hi
    · cases hadd
      exact .failed hfailed hi
  · intro h
    cases h with
    | succeeded answered priced attributed hi =>
      exact .inr (.inl ⟨_, answered, mem_succeed.mpr ⟨_, _, priced, attributed, hi⟩⟩)
    | failed answered hi =>
      exact .inr (.inr ⟨answered, i, hi, rfl⟩)

/-- Behind all gates, what is stored is of the execution. -/
theorem mem_of_passed (h : Gate.Passed answers env command inputText model decision) :
    Port.invocationsAdd i ∈ (createInvocation env command).calls answers ↔
      Gate.Spent answers (commonOf env command inputText decision) model i := by
  obtain ⟨window, d', hcost, hd'⟩ := h
  obtain ⟨d, husage, hd⟩ := hcost.usage
  have hrank : ∀ n ≤ 9, n ≤ (Port.invocationsAdd i).rank := fun n hn => hn
  rw [mem_createInvocation (hrank 4 (by decide))]
  constructor
  · rintro ⟨inputText', model', decision', hdecided, hmem⟩
    obtain ⟨rfl, rfl, rfl⟩ := hdecided.unique husage.policy
    rw [if_pos husage.allowed] at hmem
    obtain ⟨window', e, hwindow, hread, hmem⟩ := (mem_allowed (hrank 5 (by decide))).mp hmem
    obtain ⟨rfl, rfl⟩ := husage.unique ⟨hdecided, husage.allowed, hwindow, hread⟩
    rw [if_pos hd] at hmem
    obtain ⟨e', hread', hmem⟩ := (mem_withinUsage (hrank 7 (by decide))).mp hmem
    obtain rfl := hcost.unique ⟨⟨d, husage, hd⟩, hread'⟩
    rw [if_pos hd'] at hmem
    exact mem_execute.mp hmem
  · intro hspent
    refine ⟨inputText, model, decision, husage.policy, ?_⟩
    rw [if_pos husage.allowed]
    refine (mem_allowed (hrank 5 (by decide))).mpr ⟨window, d, husage.day, husage.decided, ?_⟩
    rw [if_pos hd]
    refine (mem_withinUsage (hrank 7 (by decide))).mpr ⟨d', hcost.decided, ?_⟩
    rw [if_pos hd']
    exact mem_execute.mpr hspent

end Spent

/-! ## What the columns hold -/

/-- A text of the provider that a column holds: without U+0000 and without lone surrogates. -/
def RecordableText (s : Str) : Prop := s.hasNul = false ∧ s.hasSurrogate = false

instance (s : Str) : Decidable (RecordableText s) := inferInstanceAs (Decidable (_ ∧ _))

/-- What is stored of a request fits its columns. The identity of its Principal is not of white
    space only: `strip` also strips separators that the settings keep. -/
structure RecordableRequest (c : Invocation.Common) : Prop where
  identity : strip c.runtimePrincipalId ≠ ""
  inputText : hasNul c.inputText = false
  runtimePrincipalId : hasNul c.runtimePrincipalId = false
  duration : FitsInteger ((c.completedAt.instant - c.startedAt.instant) / 1000)

/-- So does what is stored of an answer; a pricing is stored where both counts are known. -/
structure Recordable (c : Invocation.Common) (result : ProviderInvocationResult)
    (pricing : Option PricingSnapshot) : Prop extends RecordableRequest c where
  outputText : RecordableText result.outputText
  responseId : ∀ id ∈ result.providerResponseId, RecordableText id
  units : ∀ usage ∈ result.usage, (∀ n ∈ usage.inputUnits, FitsInteger n) ∧
    (∀ n ∈ usage.outputUnits, FitsInteger n) ∧ ∀ n ∈ usage.totalUnits, FitsInteger n
  pricing : ∀ p ∈ pricing, (result.usage.any fun u => u.inputUnits.isSome && u.outputUnits.isSome) →
    hasNul p.version = false ∧ FitsInteger p.basisUnits

section Columns

variable {i : Invocation} {row : InvocationRow} {α β ε : Type}

theorem mapM_inv {f : α → Except ε β} {x : Option α} {y : Option β} (h : x.mapM f = .ok y) :
    ∀ a ∈ x, ∃ b, f a = .ok b := by
  rintro a rfl
  rw [Option.mapM_some] at h
  obtain ⟨b, hb, _⟩ := Except.bind_ok_cases h
  exact ⟨b, hb⟩

theorem hasNul_of_varchar {n : Nat} {s t : String} (h : varchar n s = .ok t) : hasNul s = false := by
  unfold varchar at h
  split at h
  · cases h
  · next hn => simpa using hn

theorem fits_of_integers {x y : Option Int} (h : x.mapM integer = .ok y) : ∀ n ∈ x, FitsInteger n := by
  intro n hn
  obtain ⟨m, hm⟩ := mapM_inv h n hn
  exact (integer_ok hm).1

/-- The values of a row fit. -/
theorem fits_of_row (h : InvocationRow.ofInvocation i = .ok row) :
    hasNul i.inputText = false ∧ (∀ s ∈ i.outputText, RecordableText s) ∧
      hasNul i.runtimePrincipalId = false ∧ (∀ n ∈ i.durationMs, FitsInteger n) ∧
      (∀ n ∈ i.usage.bind (·.inputUnits), FitsInteger n) ∧
      (∀ n ∈ i.usage.bind (·.outputUnits), FitsInteger n) ∧
      (∀ n ∈ i.usage.bind (·.totalUnits), FitsInteger n) ∧
      (∀ s ∈ i.providerResponseId, RecordableText s) ∧
      (∀ cost ∈ i.estimatedCost, hasNul cost.pricingVersion = false ∧
        FitsInteger cost.pricingBasisUnits) := by
  unfold InvocationRow.ofInvocation at h
  obtain ⟨_, hinput, h⟩ := Except.bind_ok_cases h
  obtain ⟨_, houtput, h⟩ := Except.bind_ok_cases h
  obtain ⟨_, hprincipal, h⟩ := Except.bind_ok_cases h
  obtain ⟨_, hduration, h⟩ := Except.bind_ok_cases h
  obtain ⟨_, hinputs, h⟩ := Except.bind_ok_cases h
  obtain ⟨_, houtputs, h⟩ := Except.bind_ok_cases h
  obtain ⟨_, htotals, h⟩ := Except.bind_ok_cases h
  obtain ⟨_, hresponse, h⟩ := Except.bind_ok_cases h
  iterate 7 obtain ⟨_, _, h⟩ := Except.bind_ok_cases h
  obtain ⟨_, hversion, h⟩ := Except.bind_ok_cases h
  obtain ⟨_, hbasis, _⟩ := Except.bind_ok_cases h
  refine ⟨(text_ok hinput).1, fun s hs => ?_, hasNul_of_varchar hprincipal, fits_of_integers hduration,
    fits_of_integers hinputs, fits_of_integers houtputs, fits_of_integers htotals, fun s hs => ?_,
    fun cost hcost => ⟨?_, fits_of_integers hbasis _ (Option.mem_map_of_mem _ hcost)⟩⟩
  · obtain ⟨_, ht⟩ := mapM_inv houtput s hs
    obtain ⟨hsurrogate, ht⟩ := utf8_then_ok ht
    exact ⟨(Str.hasNul_scalars s).symm.trans (text_ok ht).1, hsurrogate⟩
  · obtain ⟨_, ht⟩ := mapM_inv hresponse s hs
    obtain ⟨hsurrogate, ht⟩ := utf8_then_ok ht
    exact ⟨(Str.hasNul_scalars s).symm.trans (hasNul_of_varchar ht), hsurrogate⟩
  · obtain ⟨_, ht⟩ := mapM_inv hversion cost.pricingVersion (Option.mem_map_of_mem _ hcost)
    exact hasNul_of_varchar ht

theorem encoded_of_row (h : InvocationRow.ofInvocation i = .ok row) : Encoded i.toInvocationFields := by
  obtain ⟨-, houtput, -, -, -, -, -, hresponse, -⟩ := fits_of_row h
  exact ⟨fun s hs => (houtput s hs).2, fun s hs => (hresponse s hs).2⟩

theorem recordableText_strip (s : Str) : RecordableText s.strip ↔ RecordableText s := by
  rw [RecordableText, Str.hasNul_strip, Str.hasSurrogate_strip, RecordableText]

end Columns

/-! ## The cost -/

section Cost

variable {usage : Option InvocationUsage} {pricing : Option PricingSnapshot}

/-- The parts of an attributed cost. -/
theorem attributeCost_parts {cost : InvocationCost} (h : attributeCost usage pricing = .ok (some cost)) :
    ∃ m n p, usage.bind (·.inputUnits) = some m ∧ usage.bind (·.outputUnits) = some n ∧ pricing = some p ∧
      componentCost m p.inputRate p.basisUnits = .ok cost.inputCost ∧
      componentCost n p.outputRate p.basisUnits = .ok cost.outputCost ∧
      cost.totalCost = cost.inputCost.add defaultPrec cost.outputCost ∧ cost.pricingVersion = p.version ∧
      cost.pricingBasisUnits = p.basisUnits ∧ cost.pricingInputRate = p.inputRate ∧
      cost.pricingOutputRate = p.outputRate := by
  unfold attributeCost at h
  split at h
  · next m n _ _ p =>
    obtain ⟨input, hinput, h⟩ := Except.bind_ok_cases h
    obtain ⟨output, houtput, h⟩ := Except.bind_ok_cases h
    obtain ⟨cost', hcost, h⟩ := Except.bind_ok_cases h
    cases h
    have hnew := Except.mapError_eq_ok.mp hcost
    unfold InvocationCost.new at hnew
    split_ifs at hnew
    cases hnew
    exact ⟨m, n, p, rfl, rfl, rfl, Except.mapError_eq_ok.mp hinput, Except.mapError_eq_ok.mp houtput, rfl,
      rfl, rfl, rfl, rfl⟩
  · cases h

/-- Counts of 32 bits cost what has room in the columns. -/
theorem attributeCost_fits {cost : InvocationCost} (h : attributeCost usage pricing = .ok (some cost))
    (hunits : ∀ u ∈ usage, (∀ n ∈ u.inputUnits, FitsInteger n) ∧ ∀ n ∈ u.outputUnits, FitsInteger n)
    (hpricing : ∀ p ∈ pricing, ∃ entry, pricingOf entry = .ok p) :
    (cost.inputCost.Fits 28 12 ∧ cost.outputCost.Fits 28 12 ∧ cost.totalCost.Fits 28 12) ∧
      cost.pricingInputRate.Fits 18 12 ∧ cost.pricingOutputRate.Fits 18 12 := by
  obtain ⟨m, n, p, hm, hn, hp, hinput, houtput, htotal, -, -, hrate, hrate'⟩ := attributeCost_parts h
  obtain ⟨entry, hentry⟩ := hpricing p hp
  obtain ⟨hbasis, hin, hout⟩ := pricingOf_ok hentry
  obtain ⟨u, hu, hm⟩ := Option.bind_eq_some_iff.mp hm
  obtain ⟨u', hu', hn⟩ := Option.bind_eq_some_iff.mp hn
  obtain rfl : u = u' := Option.some.inj (hu.symm.trans hu')
  obtain ⟨hfits, hfits'⟩ := hunits u hu
  have hnonneg : 0 ≤ m ∧ 0 ≤ n := by
    have hparts := u.fits
    rw [hm, hn] at hparts
    simp only [usageFits, Option.all_some, Bool.and_eq_true, decide_eq_true_eq] at hparts
    exact ⟨hparts.1.1.1, hparts.1.1.2⟩
  obtain ⟨r, hr, hr0⟩ := rate_units entry.inputPrice_accepted
  obtain ⟨s, hs, hs0⟩ := rate_units entry.outputPrice_accepted
  obtain ⟨c, hcost, hc0⟩ :=
    componentCost_ok ⟨hnonneg.1, (hfits m hm).2⟩ hr hr0 entry.priceBasisUnits_pos
  obtain ⟨d, hcost', hd0⟩ :=
    componentCost_ok ⟨hnonneg.2, (hfits' n hn).2⟩ hs hs0 entry.priceBasisUnits_pos
  rw [hin, hbasis, hcost] at hinput
  rw [hout, hbasis, hcost'] at houtput
  have hroom : ∀ k : Int, 0 ≤ k → k < 2 ^ 33 * 10 ^ 18 →
      (⟨k, costExponent⟩ : Decimal).Fits 28 12 := by
    intro k hk hk'
    exact fits_iff.mpr ⟨k, rfl, by omega⟩
  refine ⟨⟨?_, ?_, ?_⟩, hrate ▸ hin ▸ entry.inputPrice_accepted.2,
    hrate' ▸ hout ▸ entry.outputPrice_accepted.2⟩
  · rw [← Except.ok.inj hinput]
    exact hroom c hc0.1 (by omega)
  · rw [← Except.ok.inj houtput]
    exact hroom d hd0.1 (by omega)
  · rw [htotal, ← Except.ok.inj hinput, ← Except.ok.inj houtput, PricedUsage.add_costUnits hc0 hd0]
    exact hroom (c + d) (by omega) (by omega)

/-- A cost is attributed where both counts and a pricing are known. -/
theorem attributeCost_isSome {cost : Option InvocationCost} {p : PricingSnapshot}
    (h : attributeCost usage (some p) = .ok cost)
    (hboth : usage.any fun u => u.inputUnits.isSome && u.outputUnits.isSome) :
    ∃ cost', cost = some cost' ∧ cost'.pricingVersion = p.version ∧
      cost'.pricingBasisUnits = p.basisUnits := by
  have hsome : cost ≠ none := by
    rintro rfl
    rcases usage with _ | ⟨_ | m, _ | n, total, hfits⟩
    · cases hboth
    · cases hboth
    · cases hboth
    · cases hboth
    · obtain ⟨_, _, h⟩ := Except.bind_ok_cases h
      obtain ⟨_, _, h⟩ := Except.bind_ok_cases h
      obtain ⟨_, _, h⟩ := Except.bind_ok_cases h
      cases h
  obtain ⟨cost', rfl⟩ := Option.ne_none_iff_exists'.mp hsome
  obtain ⟨_, _, p', _, _, hp, _, _, _, hversion, hbasis, _⟩ := attributeCost_parts h
  cases hp
  exact ⟨cost', rfl, hversion, hbasis⟩

end Cost

/-! ## Recorded executions -/

/-- The handler stores an Invocation of which the table takes the row. -/
def Recorded (answers : Answers Port Port.Res Error) (env : InvocationEnv)
    (command : CreateInvocationCommand) : Prop :=
  ∃ i row, .invocationsAdd i ∈ (createInvocation env command).calls answers ∧
    InvocationRow.ofInvocation i = .ok row ∧ row.checks = .ok ()

section Recorded

variable {answers : Answers Port Port.Res Error} {env : InvocationEnv} {command : CreateInvocationCommand}
  {c : Invocation.Common} {principal : RuntimePrincipalSettings} {model : ModelRuntimeReference}
  {inputText : String} {decision : RuntimePolicyDecision} {i : Invocation} {row : InvocationRow}
  {result : ProviderInvocationResult} {pricing : Option PricingSnapshot}

/-- What a factory of an execution makes. -/
structure Executed (c : Invocation.Common) (outputText : Option Str) (usage : Option InvocationUsage)
    (responseId : Option Str) (cost : Option InvocationCost) (i : Invocation) : Prop where
  inputText : i.inputText = strip c.inputText
  runtimePrincipalId : i.runtimePrincipalId = c.runtimePrincipalId
  durationMs : i.durationMs = some ((c.completedAt.instant - c.startedAt.instant) / 1000)
  outputText : i.outputText = outputText
  usage : i.usage = usage
  responseId : i.providerResponseId = responseId.map Str.strip
  cost : i.estimatedCost = cost
  usageEvidence : i.usageConsumedUnits = none ∧ i.usageLimitUnits = none ∧ i.usageAllowanceUnits = none
  costEvidence : i.costBudgetConsumed = none ∧ i.costBudgetLimit = none ∧ i.costBudgetAllowance = none

theorem elapsedMs_ok {startedAt completedAt : Utc} {ms : Int}
    (h : Invocation.elapsedMs startedAt completedAt = .ok ms) :
    ms = (completedAt.instant - startedAt.instant) / 1000 := by
  unfold Invocation.elapsedMs at h
  split at h
  · cases h
  · cases h
    rfl

theorem executed_of_succeeded {outputText : Str} {usage : Option InvocationUsage}
    {responseId : Option Str} {cost : Option InvocationCost}
    (h : Invocation.succeeded c outputText usage responseId cost = .ok i) :
    Executed c (some outputText) usage responseId cost i := by
  obtain ⟨ms, hms, hnew⟩ := Except.bind_ok_cases h
  obtain rfl := elapsedMs_ok hms
  have hfields := InvocationFields.postInit_eq (Invocation.new_ok hnew)
  constructor <;> rw [hfields] <;> first | rfl | exact ⟨rfl, rfl, rfl⟩

theorem executed_of_failed (h : Invocation.failed c = .ok i) : Executed c none none none none i := by
  obtain ⟨ms, hms, hnew⟩ := Except.bind_ok_cases h
  obtain rfl := elapsedMs_ok hms
  have hfields := InvocationFields.postInit_eq (Invocation.new_ok hnew)
  constructor <;> rw [hfields] <;> first | rfl | exact ⟨rfl, rfl, rfl⟩

/-- An execution whose request fits is stored if its answer fits too. -/
theorem Executed.storable {outputText : Option Str} {usage : Option InvocationUsage}
    {responseId : Option Str} {cost : Option InvocationCost}
    (h : Executed c outputText usage responseId cost i) (hc : RecordableRequest c)
    (houtput : ∀ s ∈ outputText, RecordableText s) (hresponse : ∀ s ∈ responseId, RecordableText s)
    (hunits : ∀ u ∈ usage, (∀ n ∈ u.inputUnits, FitsInteger n) ∧ (∀ n ∈ u.outputUnits, FitsInteger n) ∧
      ∀ n ∈ u.totalUnits, FitsInteger n)
    (hpricing : ∀ a ∈ cost, hasNul a.pricingVersion = false ∧ FitsInteger a.pricingBasisUnits)
    (hcost : ∀ a ∈ cost, (a.inputCost.Fits 28 12 ∧ a.outputCost.Fits 28 12 ∧ a.totalCost.Fits 28 12) ∧
      a.pricingInputRate.Fits 18 12 ∧ a.pricingOutputRate.Fits 18 12) :
    Storable i.toInvocationFields := by
  obtain ⟨hu, hl, ha⟩ := h.usageEvidence
  obtain ⟨hbc, hbl, hba⟩ := h.costEvidence
  constructor
  case inputText =>
    rw [h.inputText, hasNul_strip]
    exact hc.inputText
  case runtimePrincipalId =>
    rw [h.runtimePrincipalId]
    exact hc.runtimePrincipalId
  case durationMs =>
    rw [h.durationMs]
    rintro _ ⟨⟩
    exact hc.duration
  case outputText =>
    rw [h.outputText]
    exact fun s hs => (houtput s hs).1
  case providerResponseId =>
    rw [h.responseId]
    intro s hs
    obtain ⟨t, ht, rfl⟩ := Option.map_eq_some_iff.mp hs
    rw [Str.hasNul_strip]
    exact (hresponse t ht).1
  case inputUnits | outputUnits | totalUnits =>
    rw [h.usage]
    intro n hn
    obtain ⟨u, hu, hn⟩ := Option.bind_eq_some_iff.mp hn
    first | exact (hunits u hu).1 n hn | exact (hunits u hu).2.1 n hn | exact (hunits u hu).2.2 n hn
  case pricingVersion | pricingBasisUnits | cost | rates =>
    rw [h.cost]
    intro a ha
    first
    | exact (hpricing a ha).1
    | exact (hpricing a ha).2
    | exact (hcost a ha).1
    | exact (hcost a ha).2
  all_goals simp [hu, hl, hbc, hbl, hba, ha]

theorem Executed.encoded {outputText : Option Str} {usage : Option InvocationUsage}
    {responseId : Option Str} {cost : Option InvocationCost}
    (h : Executed c outputText usage responseId cost i) (houtput : ∀ s ∈ outputText, RecordableText s)
    (hresponse : ∀ s ∈ responseId, RecordableText s) : Encoded i.toInvocationFields := by
  constructor
  · rw [h.outputText]
    exact fun s hs => (houtput s hs).2
  · rw [h.responseId]
    intro s hs
    obtain ⟨t, ht, rfl⟩ := Option.map_eq_some_iff.mp hs
    rw [Str.hasSurrogate_strip]
    exact (hresponse t ht).2

/-- What is stored of an execution has the values of its request. -/
theorem Executed.request {outputText : Option Str} {usage : Option InvocationUsage}
    {responseId : Option Str} {cost : Option InvocationCost}
    (h : Executed c outputText usage responseId cost i) (hrow : InvocationRow.ofInvocation i = .ok row) :
    RecordableRequest c := by
  obtain ⟨hinput, -, hprincipal, hduration, -⟩ := fits_of_row hrow
  rw [h.inputText, hasNul_strip] at hinput
  rw [h.runtimePrincipalId] at hprincipal
  have hidentity := InvocationFields.checkIdentity_ok
    (InvocationFields.postInit_eq_self.mp i.accepted).identity
  rw [h.runtimePrincipalId] at hidentity
  exact ⟨hidentity.1, hinput, hprincipal, hduration _ h.durationMs⟩

/-- The answer of the provider is stored exactly if it and its request fit. -/
theorem recorded_answer (hp : command.runtimePrincipalId = principal.principalId)
    (htimes : env.startedAt.instant ≤ env.completedAt.instant)
    (hpassed : Gate.Passed answers env command inputText model decision)
    (hpriced : answers (.resolvePricing model.provider model.providerModelReference) = .ok pricing)
    (hpricing : ∀ p ∈ pricing, ∃ entry, pricingOf entry = .ok p)
    (hanswer : answers (.invoke model.providerModelReference inputText) = .ok result)
    {response : ResponseValue} (hadapter : OpenaiResponsesProvider.resultOf response = .ok result) :
    Recorded answers env command ↔
      Recordable (commonOf env command inputText decision) result pricing := by
  unfold OpenaiResponsesProvider.resultOf at hadapter
  split at hadapter
  · cases hadapter
  next houtput =>
  have hid : ∀ id ∈ result.providerResponseId,
      id ≠ "" ∧ id.strip = id ∧ id.len ≤ maxProviderResponseIdLength := by
    cases hadapter
    intro id hmem
    obtain ⟨rfl, hne, hlen⟩ := providerResponseIdOf_eq.mp hmem
    exact ⟨hne, Str.strip_strip _, hlen⟩
  have houtput' : result.outputText.strip ≠ "" := by
    cases hadapter
    exact houtput
  constructor
  · rintro ⟨i, row, hadd, hrow, _⟩
    cases (mem_of_passed hpassed).mp hadd with
    | failed answered hi =>
      rw [show (commonOf env command inputText decision).inputText = inputText from rfl, hanswer] at answered
      cases answered
    | @succeeded result' pricing' cost _ answered priced attributed hi =>
      obtain rfl : result = result' := Except.ok.inj (hanswer.symm.trans answered)
      obtain rfl : pricing = pricing' := Except.ok.inj (hpriced.symm.trans priced)
      have hexecuted := executed_of_succeeded hi
      obtain ⟨-, houtputs, -, -, hinputUnits, houtputUnits, htotalUnits, hresponses, hcosts⟩ := fits_of_row hrow
      rw [hexecuted.usage] at hinputUnits houtputUnits htotalUnits
      refine ⟨hexecuted.request hrow, houtputs _ hexecuted.outputText, fun id hmem => ?_, fun u hu => ?_,
        fun p hp hboth => ?_⟩
      · have hstripped := hresponses id.strip (by rw [hexecuted.responseId, hmem]; rfl)
        exact (recordableText_strip id).mp hstripped
      · rw [hu] at hinputUnits houtputUnits htotalUnits
        exact ⟨hinputUnits, houtputUnits, htotalUnits⟩
      · rw [hp] at attributed
        obtain ⟨a, rfl, hversion, hbasis⟩ := attributeCost_isSome attributed hboth
        rw [← hversion, ← hbasis]
        exact hcosts a hexecuted.cost
  · intro hfits
    have hunits : ∀ u ∈ result.usage, (∀ n ∈ u.inputUnits, n < 2 ^ 31) ∧ ∀ n ∈ u.outputUnits, n < 2 ^ 31 :=
      fun u hu => ⟨fun n hn => ((hfits.units u hu).1 n hn).2, fun n hn => ((hfits.units u hu).2.1 n hn).2⟩
    obtain ⟨cost, hcost, hboth⟩ := attributeCost_total hunits hpricing
    have hready : (commonOf env command inputText decision).Ready := by
      obtain ⟨window, d, hcostDecided, _⟩ := hpassed
      obtain ⟨d', husage, _⟩ := hcostDecided.usage
      exact ⟨⟨inputText, validatedInput_idem husage.policy.input⟩, hfits.identity, htimes⟩
    obtain ⟨i, hi, _⟩ := Invocation.succeeded_ok hready houtput' hid hboth
    have hexecuted := executed_of_succeeded hi
    have hparts : ∀ a ∈ cost, attributeCost result.usage pricing = .ok (some a) := by
      rintro a rfl
      exact hcost
    have htext : ∀ s ∈ some result.outputText, RecordableText s := by
      rintro _ ⟨⟩
      exact hfits.outputText
    have hencoded := hexecuted.encoded htext hfits.responseId
    have hstorable := hexecuted.storable hfits.toRecordableRequest htext hfits.responseId hfits.units
      (fun a ha => by
        obtain ⟨m, n, p, hm, hn, hpr, _, _, _, hversion, hbasis, _⟩ := attributeCost_parts (hparts a ha)
        rw [hversion, hbasis]
        exact hfits.pricing p hpr (hboth (by rw [ha]; rfl)))
      (fun a ha => attributeCost_fits (hparts a ha)
        (fun u hu => ⟨(hfits.units u hu).1, (hfits.units u hu).2.1⟩) hpricing)
    have hbuilt : Built i := .succeeded hp hcost hi
    refine ⟨i, _, (mem_of_passed hpassed).mpr (.succeeded hanswer hpriced hcost hi),
      InvocationRow.ofInvocation_eq hstorable hencoded hbuilt.carried, ?_⟩
    exact storedRow_checks (InvocationFields.postInit_eq_self.mp i.accepted) hstorable hbuilt.carried

theorem Invocation.failed_ok (hc : c.Ready) : ∃ i, Invocation.failed c = .ok i := by
  obtain ⟨⟨text, hinput⟩, hprincipal, htimes⟩ := hc
  set duration := (c.completedAt.instant - c.startedAt.instant) / 1000 with hduration
  have hnonneg : ¬duration < 0 := by omega
  have helapsed : Invocation.elapsedMs c.startedAt c.completedAt = .ok duration :=
    if_neg (not_lt.mpr htimes)
  have hidentity : (c.fields .failed duration).checkIdentity = .ok () := by
    unfold InvocationFields.checkIdentity
    refine Except.bind_eq_ok (a := ()) (if_neg hprincipal) ?_
    refine Except.bind_eq_ok (a := ()) (if_neg (not_lt.mpr htimes)) ?_
    exact if_neg (by simpa [Invocation.Common.fields] using hnonneg)
  have hpost : (c.fields .failed duration).postInit =
      .ok { c.fields .failed duration with inputText := text } := by
    unfold InvocationFields.postInit
    refine Except.bind_eq_ok (a := text) hinput ?_
    refine Except.bind_eq_ok (a := ()) hidentity ?_
    refine Except.bind_eq_ok (a := none) rfl ?_
    refine Except.bind_eq_ok (a := ()) rfl (Except.bind_eq_ok (a := ()) rfl ?_)
    exact Except.bind_eq_ok (a := ()) rfl (Except.bind_eq_ok (a := ()) rfl rfl)
  exact ⟨_, Except.bind_eq_ok helapsed (Invocation.new_of hpost)⟩

/-- A failure of the transport is stored exactly if its request fits. -/
theorem recorded_failure (hp : command.runtimePrincipalId = principal.principalId)
    (htimes : env.startedAt.instant ≤ env.completedAt.instant)
    (hpassed : Gate.Passed answers env command inputText model decision)
    (hanswer : answers (.invoke model.providerModelReference inputText) =
      .error .providerTransportError) :
    Recorded answers env command ↔ RecordableRequest (commonOf env command inputText decision) := by
  constructor
  · rintro ⟨i, row, hadd, hrow, _⟩
    cases (mem_of_passed hpassed).mp hadd with
    | succeeded answered _ _ hi =>
      rw [show (commonOf env command inputText decision).inputText = inputText from rfl, hanswer] at answered
      cases answered
    | failed _ hi => exact (executed_of_failed hi).request hrow
  · intro hfits
    have hready : (commonOf env command inputText decision).Ready := by
      obtain ⟨window, d, hcostDecided, _⟩ := hpassed
      obtain ⟨d', husage, _⟩ := hcostDecided.usage
      exact ⟨⟨inputText, validatedInput_idem husage.policy.input⟩, hfits.identity, htimes⟩
    obtain ⟨i, hi⟩ := Invocation.failed_ok hready
    have hstorable : Storable i.toInvocationFields := by
      refine (executed_of_failed hi).storable hfits ?_ ?_ ?_ ?_ ?_
      all_goals
        rintro _ ⟨⟩
    have hencoded : Encoded i.toInvocationFields := by
      refine (executed_of_failed hi).encoded ?_ ?_
      all_goals
        rintro _ ⟨⟩
    have hbuilt : Built i := .failed hp hi
    refine ⟨i, _, (mem_of_passed hpassed).mpr (.failed hanswer hi),
      InvocationRow.ofInvocation_eq hstorable hencoded hbuilt.carried, ?_⟩
    exact storedRow_checks (InvocationFields.postInit_eq_self.mp i.accepted) hstorable hbuilt.carried

end Recorded

/-- Once all gates are passed, for a Runtime Principal of the settings, configured pricing and a
    clock that does not run backwards: an answer of the OpenAI adapter is stored exactly if the
    columns hold it, and so is a failure of the transport. Nothing else prevents it. -/
theorem spend_recorded (principal : RuntimePrincipalSettings) (answers : Answers Port Port.Res Error)
    (env : InvocationEnv) (command : CreateInvocationCommand) (inputText : String)
    (model : ModelRuntimeReference) (decision : RuntimePolicyDecision) (pricing : Option PricingSnapshot)
    (hp : command.runtimePrincipalId = principal.principalId)
    (htimes : env.startedAt.instant ≤ env.completedAt.instant)
    (hpriced : answers (.resolvePricing model.provider model.providerModelReference) = .ok pricing)
    (hpricing : ∀ p ∈ pricing, ∃ entry, pricingOf entry = .ok p)
    (hpassed : Gate.Passed answers env command inputText model decision) :
    (∀ response result, OpenaiResponsesProvider.resultOf response = .ok result →
      answers (.invoke model.providerModelReference inputText) = .ok result →
      (Recorded answers env command ↔
        Recordable (commonOf env command inputText decision) result pricing)) ∧
    (answers (.invoke model.providerModelReference inputText) = .error .providerTransportError →
      (Recorded answers env command ↔
        RecordableRequest (commonOf env command inputText decision))) := by
  refine ⟨fun response result hadapter hanswer => ?_, fun hanswer => ?_⟩
  · exact recorded_answer hp htimes hpassed hpriced hpricing hanswer hadapter
  · exact recorded_failure hp htimes hpassed hanswer

/-- Ports that let a request pass, and a provider that answers with the response. -/
def openPorts (budget : TenantCostBudget) (response : ResponseValue) : Answers Port Port.Res Error
  | .tenantExists _ => .ok true
  | .getAgent _ => .ok (some ⟨2, 1⟩)
  | .getModel _ => .ok (some ⟨3, 1, "openai", "gpt"⟩)
  | .decide .. => .ok ⟨4, "allow", none⟩
  | .consumedTotalUnits .. => .ok 0
  | .resolveBudget _ => .ok (some budget)
  | .attributedCost .. => .ok 0
  | .invoke .. => (OpenaiResponsesProvider.resultOf response).mapError fun _ => .providerTransportError
  | .resolvePricing .. => .ok none
  | .invocationsAdd _ | .commit | .rollback => .ok ()

def sampleEnv : InvocationEnv := ⟨0, 1500000, 5⟩

def sampleCommand : CreateInvocationCommand := ⟨samplePrincipal.principalId, 1, 2, 3, "hello", 20, 20⟩

def dailyBudget : TenantCostBudget := ⟨⟨1, 0⟩, ⟨1, 0⟩, "USD", rfl, by decide +kernel⟩

theorem openPorts_passed (response : ResponseValue) : Gate.Passed (openPorts dailyBudget response)
    sampleEnv sampleCommand "hello" ⟨3, 1, "openai", "gpt"⟩ ⟨4, "allow", none⟩ :=
  ⟨sampleWindow, _, ⟨⟨_, ⟨⟨by decide +kernel, ⟨rfl, ⟨_, rfl, rfl⟩, rfl, rfl, rfl⟩, rfl⟩, rfl,
    by decide +kernel, 0, rfl, rfl⟩, rfl⟩, _, _, rfl, rfl, rfl⟩, by decide +kernel⟩

/-- A text is stored; a text with U+0000 or with a lone surrogate is paid for and not stored. -/
theorem spend_recorded_three :
    Recorded (openPorts dailyBudget ⟨"resp_1", "text", none⟩) sampleEnv sampleCommand ∧
    ¬Recorded (openPorts dailyBudget ⟨"resp_1", "te\x00xt", none⟩) sampleEnv sampleCommand ∧
    ¬Recorded (openPorts dailyBudget ⟨"resp_1", ⟨[.surrogate 0]⟩, none⟩) sampleEnv sampleCommand := by
  have hiff : ∀ response result, OpenaiResponsesProvider.resultOf response = .ok result →
      (Recorded (openPorts dailyBudget response) sampleEnv sampleCommand ↔
        Recordable (commonOf sampleEnv sampleCommand "hello" ⟨4, "allow", none⟩) result none) := by
    intro response result hresult
    refine (spend_recorded samplePrincipal (openPorts dailyBudget response) sampleEnv sampleCommand "hello"
      ⟨3, 1, "openai", "gpt"⟩ ⟨4, "allow", none⟩ none rfl (by decide) rfl nofun
      (openPorts_passed response)).1 response result hresult ?_
    exact Except.mapError_eq_ok.mpr hresult
  refine ⟨(hiff _ ⟨"text", none, some "resp_1"⟩ (by decide +kernel)).mpr ?_, fun h => ?_, fun h => ?_⟩
  · exact ⟨⟨by decide +kernel, by decide +kernel, by decide +kernel, by decide +kernel⟩, by decide +kernel,
      by decide +kernel, nofun, nofun⟩
  · have hfits := (hiff _ ⟨"te\x00xt", none, some "resp_1"⟩ (by decide +kernel)).mp h
    exact absurd hfits.outputText (by decide +kernel)
  · have hfits := (hiff _ ⟨⟨[.surrogate 0]⟩, none, some "resp_1"⟩ (by decide +kernel)).mp h
    exact absurd hfits.outputText (by decide +kernel)

end Valor.RuntimeGateway
