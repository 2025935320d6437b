/-
  Runtime gateway: the gates of `CreateInvocationHandler`.

  Whatever the ports answer or raise, the handler goes through them in one order
  (`createInvocation_ascends`), so that it asks each at most once and what they answer is a
  function of the port (`Lib/Answers`). `Gate` says of such answers which gates are passed.
  The theorem `gates` says that every port is asked exactly if the gates before it are
  passed, the provider among them, and which Invocation and which exception a refusal makes.
-/
import Valor.Lib.Answers
import Valor.RuntimeGateway.CreateInvocation

namespace Valor.RuntimeGateway

open Python Prog

/-- The order in which the handler asks its ports. -/
def Port.rank : Port → Nat
  | tenantExists _ => 0
  | getAgent _ => 1
  | getModel _ => 2
  | decide .. => 3
  | consumedTotalUnits .. => 4
  | resolveBudget _ => 5
  | attributedCost .. => 6
  | invoke .. => 7
  | resolvePricing .. => 8
  | invocationsAdd _ => 9
  | commit => 10
  | rollback => 11

/-! ## The order of the ports -/

section Order

variable {c : Invocation.Common} {command : CreateInvocationCommand} {model : ModelRuntimeReference}
  {n m : Nat} {α β : Type}

/-- A program that goes on in the order of the ports. -/
abbrev Ascends (n : Nat) (p : Handler α) : Prop := Accepts (ascending Port.rank) (fun _ _ => True) n p

theorem ascends_ask {p : Port} {f : p.Res → Handler β} (h : n ≤ p.rank)
    (hf : ∀ a, Ascends (p.rank + 1) (f a)) : Ascends n ((ask p).bind f) :=
  accepts_perform_bind h (fun _ => trivial) hf

theorem ascends_lift {ε : Type} {g : ε → Error} {x : Except ε α} {f : α → Handler β}
    (hf : ∀ a, Ascends n (f a)) : Ascends n ((lift g x).bind f) :=
  accepts_lift (fun _ _ => trivial) fun a _ => hf a

theorem ascends_orMissing {x : Option α} {e : Error} {f : α → Handler β} (hf : ∀ a, Ascends n (f a)) :
    Ascends n ((orMissing x e).bind f) := by
  cases x with
  | none => exact .raise trivial
  | some a => exact hf a

theorem ascends_raiseWhen {p : Prop} [Decidable p] {e : Error} {f : Unit → Handler β}
    (hf : Ascends n (f ())) : Ascends n ((raiseWhen p e).bind f) :=
  accepts_raiseWhen (fun _ => trivial) fun _ => hf

theorem ascends_persist {invocation : Invocation} {f : Unit → Handler β} (h : n ≤ 9)
    (hf : ∀ t, Ascends t (f ())) : Ascends n ((persist invocation).bind f) := by
  have hbody : Accepts (ascending Port.rank) (fun t _ => t ≤ 11) n
      ((ask (.invocationsAdd invocation)).bind fun _ => ask .commit) := by
    refine accepts_perform_bind h (fun _ => show (10 : Nat) ≤ 11 by decide) fun _ => ?_
    exact accepts_perform Port.commit (Nat.le_refl 10) fun _ => Nat.le_refl 11
  have hpersist : Ascends n (persist invocation) :=
    hbody.andFinally (fun _ _ ht => ht) (fun _ _ _ _ => trivial) fun _ _ _ _ => trivial
  exact hpersist.bind (fun _ _ _ => trivial) fun t _ _ => hf t

/-- An Invocation that is stored before an exception. -/
theorem ascends_refuse {x : Except InvocationError Invocation} {e : Error} (h : n ≤ 9) :
    Ascends n ((orInvocationError x).bind fun i => (persist i).bind fun _ => (raise e : Handler α)) :=
  ascends_lift fun _ => ascends_persist h fun _ => .raise trivial

theorem execute_ascends : Ascends 7 (execute c model) := by
  refine .call (Nat.le_refl 7) fun r => ?_
  cases r with
  | ok result =>
    refine ascends_ask (Nat.le_refl 8) fun pricing => ?_
    refine ascends_lift fun cost => ascends_lift fun succeeded => ?_
    exact ascends_persist (Nat.le_refl 9) fun _ => .ret trivial
  | error e =>
    cases e with
    | providerTransportError => exact ascends_refuse (Nat.le_of_ble_eq_true rfl)
    | _ => exact .raise trivial

theorem withinUsage_ascends {window : UsageWindow} : Ascends 5 (withinUsage c model window) := by
  refine ascends_ask (Nat.le_refl 5) fun budget => ascends_orMissing fun budget => ?_
  refine ascends_ask (Nat.le_refl 6) fun cost => ascends_lift fun d => ?_
  split
  · exact execute_ascends
  · exact ascends_refuse (Nat.le_of_ble_eq_true rfl)

theorem allowed_ascends : Ascends 4 (allowed c command model) := by
  refine ascends_lift fun window => ascends_ask (Nat.le_refl 4) fun consumed => ascends_lift fun d => ?_
  split
  · exact withinUsage_ascends
  · exact ascends_refuse (Nat.le_of_ble_eq_true rfl)

theorem createInvocation_ascends (env : InvocationEnv) (command : CreateInvocationCommand) :
    Ascends 0 (createInvocation env command) := by
  refine ascends_lift fun inputText => ?_
  simp only [admitted, bind_eq, bind_assoc]
  refine ascends_ask (Nat.le_refl 0) fun «exists» => ascends_raiseWhen ?_
  refine ascends_ask (Nat.le_refl 1) fun agent => ascends_orMissing fun agent => ?_
  refine ascends_ask (Nat.le_refl 2) fun model => ascends_orMissing fun model => ascends_raiseWhen ?_
  refine ascends_ask (Nat.le_refl 3) fun decision => ?_
  split
  · exact allowed_ascends
  · exact ascends_refuse (Nat.le_of_ble_eq_true rfl)

end Order

/-! ## What the gates say -/

namespace Gate

variable (answers : Answers Port Port.Res Error) (env : InvocationEnv) (command : CreateInvocationCommand)

/-- Tenant, Agent and Model are admitted. -/
structure Admitted (model : ModelRuntimeReference) : Prop where
  tenant : answers (.tenantExists command.tenantId) = .ok true
  agent : ∃ agent, answers (.getAgent command.agentId) = .ok (some agent) ∧
    agent.tenantId = command.tenantId
  found : answers (.getModel command.modelId) = .ok (some model)
  owned : model.tenantId = command.tenantId
  supported : model.provider = "openai"

/-- The policy decided. -/
structure Decided (inputText : String) (model : ModelRuntimeReference)
    (decision : RuntimePolicyDecision) : Prop where
  input : validatedInput command.inputText = .ok inputText
  admitted : Admitted answers command model
  decided : answers (.decide env.invocationId command.tenantId command.agentId command.modelId) =
    .ok decision

/-- The policy allowed, and the usage limit decided. -/
structure UsageDecided (inputText : String) (model : ModelRuntimeReference)
    (decision : RuntimePolicyDecision) (window : UsageWindow) (d : UsageLimitDecision) : Prop where
  policy : Decided answers env command inputText model decision
  allowed : decision.effect = "allow"
  day : utcDayWindow env.startedAt = .ok window
  decided : ∃ consumed,
    answers (.consumedTotalUnits command.runtimePrincipalId window.start window.end) = .ok consumed ∧
    decideUsageLimit consumed command.usageLimit command.perInvocationAllowance window = .ok d

/-- The usage limit allowed, and the cost budget decided. -/
structure CostDecided (inputText : String) (model : ModelRuntimeReference)
    (decision : RuntimePolicyDecision) (window : UsageWindow) (d : TenantCostBudgetDecision) : Prop where
  usage : ∃ d, UsageDecided answers env command inputText model decision window d ∧ d.allowed = true
  decided : ∃ budget cost, answers (.resolveBudget command.tenantId) = .ok (some budget) ∧
    answers (.attributedCost command.tenantId window.start window.end) = .ok cost ∧
    decideTenantCostBudget cost budget window = .ok d

/-- All gates are passed. -/
def Passed (inputText : String) (model : ModelRuntimeReference) (decision : RuntimePolicyDecision) : Prop :=
  ∃ window d, CostDecided answers env command inputText model decision window d ∧ d.allowed = true

/-- The first gate that refuses, with the Invocation that it stores and what it raises. -/
inductive Refused : Invocation → Error → Prop
  | denied {inputText model decision i} (decided : Decided answers env command inputText model decision)
      (refuses : decision.effect ≠ "allow")
      (hi : Invocation.denied (commonOf env command inputText decision) = .ok i) :
      Refused i (.invocationDenied env.invocationId decision.id)
  | limited {inputText model decision window d i}
      (decided : UsageDecided answers env command inputText model decision window d)
      (refuses : d.allowed = false)
      (hi : Invocation.limited (commonOf env command inputText decision) d.consumedUnits d.limitUnits
        d.allowanceUnits d.window = .ok i) :
      Refused i (.invocationUsageLimited env.invocationId window.end)
  | costLimited {inputText model decision window d i}
      (decided : CostDecided answers env command inputText model decision window d)
      (refuses : d.allowed = false)
      (hi : Invocation.costLimited (commonOf env command inputText decision) d.attributedCost d.budget
        d.allowance window = .ok i) :
      Refused i (.invocationCostLimited env.invocationId window.end)

end Gate

/-! ## One gate after another -/

section Gates

variable {answers : Answers Port Port.Res Error} {env : InvocationEnv} {command : CreateInvocationCommand}
  {c : Invocation.Common} {model : ModelRuntimeReference} {window : UsageWindow} {p : Port}
  {α β : Type} {e : Error}

theorem outcome_orMissing_eq_ok {x : Option α} {a : α} :
    (orMissing x e).outcome answers = .ok a ↔ x = some a := by
  cases x <;> simp [orMissing]

@[simp] theorem calls_orMissing {x : Option α} : (orMissing x e).calls answers = [] := by
  cases x <;> rfl

@[simp] theorem calls_ask : (ask p).calls answers = [p] := calls_perform

@[simp] theorem outcome_ask : (ask p).outcome answers = answers p := outcome_perform

theorem outcome_admitted_eq_ok :
    (admitted command).outcome answers = .ok model ↔ Gate.Admitted answers command model := by
  simp only [admitted, bind_eq, outcome_bind_eq_ok, outcome_raiseWhen_eq_ok, outcome_orMissing_eq_ok,
    Option.filter_eq_some_iff, decide_eq_true_eq]
  constructor
  · rintro ⟨«exists», htenant, _, hexists, found, hfound, agent, ⟨rfl, hagent⟩, found', hfound', _,
      ⟨rfl, howned⟩, _, hprovider, h⟩
    cases h
    rw [outcome_ask] at htenant hfound hfound'
    rw [not_not] at hexists hprovider
    subst hexists
    exact ⟨htenant, ⟨agent, hfound, hagent⟩, hfound', howned, hprovider⟩
  · rintro ⟨htenant, ⟨agent, hagent, hsame⟩, hmodel, howned, hprovider⟩
    refine ⟨true, outcome_ask.trans htenant, (), by simp, some agent, outcome_ask.trans hagent, agent,
      ⟨rfl, hsame⟩, some model, outcome_ask.trans hmodel, model, ⟨rfl, howned⟩, (), by simpa using hprovider,
      rfl⟩

theorem rank_of_mem_ask {p' : Port} (h : p ∈ (ask p').calls answers) : p.rank = p'.rank := by
  rw [calls_ask, List.mem_singleton] at h
  rw [h]

theorem rank_of_mem_admitted (h : p ∈ (admitted command).calls answers) : p.rank ≤ 2 := by
  simp only [admitted, bind_eq, mem_calls_bind, calls_raiseWhen, calls_orMissing, List.not_mem_nil,
    false_or, pure_eq, calls_ret, and_false, exists_false, or_false] at h
  rcases h with h | ⟨_, _, _, _, h | ⟨_, _, _, _, h⟩⟩
  all_goals
    rw [rank_of_mem_ask h]
    simp [Port.rank]

/-- What `_persist` asks, before it commits. -/
theorem mem_persist {i : Invocation} (hp : p.rank ≤ 9) :
    p ∈ (persist i).calls answers ↔ p = .invocationsAdd i := by
  rw [persist, calls_andFinally, bind_eq, List.mem_append, mem_calls_bind, calls_ask, calls_ask]
  constructor
  · rintro ((h | ⟨_, _, h⟩) | h)
    · exact List.mem_singleton.mp h
    · rw [List.mem_singleton.mp h] at hp
      exact absurd hp (by decide)
    · rw [List.mem_singleton.mp h] at hp
      exact absurd hp (by decide)
  · rintro rfl
    exact .inl (.inl (List.mem_singleton_self _))

theorem mem_refuse {x : Except InvocationError Invocation} (hp : p.rank ≤ 9) :
    p ∈ ((orInvocationError x).bind fun i => (persist i).bind fun _ =>
      (raise e : Handler α)).calls answers ↔ ∃ i, x = .ok i ∧ p = .invocationsAdd i := by
  simp only [orInvocationError, mem_calls_bind, calls_lift, outcome_lift_eq_ok, calls_raise,
    List.not_mem_nil, false_or, and_false, exists_false, or_false, mem_persist hp]

/-- Before it stores the Invocation a refusal asks nothing. -/
theorem not_mem_refuse {x : Except InvocationError Invocation} (hp : p.rank ≤ 8) :
    p ∉ ((orInvocationError x).bind fun i => (persist i).bind fun _ =>
      (raise e : Handler α)).calls answers := by
  intro h
  obtain ⟨_, _, rfl⟩ := (mem_refuse (by omega)).mp h
  simp [Port.rank] at hp

theorem mem_createInvocation (hp : 4 ≤ p.rank) :
    p ∈ (createInvocation env command).calls answers ↔
      ∃ inputText model decision, Gate.Decided answers env command inputText model decision ∧
        p ∈ (if decision.effect = "allow" then allowed (commonOf env command inputText decision) command model
          else (orInvocationError (Invocation.denied (commonOf env command inputText decision))).bind
            fun denied => (persist denied).bind fun _ =>
              raise (.invocationDenied env.invocationId decision.id)).calls answers := by
  simp only [createInvocation, bind_eq, mem_calls_bind, orInvocationError, calls_lift, outcome_lift_eq_ok,
    List.not_mem_nil, false_or, outcome_admitted_eq_ok]
  constructor
  · rintro ⟨inputText, hinput, h | ⟨model, hmodel, h | ⟨decision, hdecision, h⟩⟩⟩
    · have hrank := rank_of_mem_admitted h
      omega
    · rw [rank_of_mem_ask h] at hp
      simp [Port.rank] at hp
    · rw [outcome_ask] at hdecision
      exact ⟨inputText, model, decision, ⟨hinput, hmodel, hdecision⟩, h⟩
  · rintro ⟨inputText, model, decision, ⟨hinput, hmodel, hdecision⟩, h⟩
    exact ⟨inputText, hinput, .inr ⟨model, hmodel, .inr ⟨decision, outcome_ask.trans hdecision, h⟩⟩⟩

theorem mem_allowed (hp : 5 ≤ p.rank) :
    p ∈ (allowed c command model).calls answers ↔ ∃ window d, utcDayWindow c.startedAt = .ok window ∧
      (∃ consumed, answers (.consumedTotalUnits c.runtimePrincipalId window.start window.end) =
        .ok consumed ∧
        decideUsageLimit consumed command.usageLimit command.perInvocationAllowance window = .ok d) ∧
      p ∈ (if d.allowed then withinUsage c model window
        else (orInvocationError (Invocation.limited c d.consumedUnits d.limitUnits d.allowanceUnits
          d.window)).bind fun limited => (persist limited).bind fun _ =>
            raise (.invocationUsageLimited c.invocationId window.end)).calls answers := by
  simp only [allowed, bind_eq, mem_calls_bind, orOverflow, orValueError, calls_lift, outcome_lift_eq_ok,
    List.not_mem_nil, false_or]
  constructor
  · rintro ⟨window, hwindow, h | ⟨consumed, hconsumed, d, hd, h⟩⟩
    · rw [rank_of_mem_ask h] at hp
      simp [Port.rank] at hp
    · rw [outcome_ask] at hconsumed
      exact ⟨window, d, hwindow, ⟨consumed, hconsumed, hd⟩, h⟩
  · rintro ⟨window, d, hwindow, ⟨consumed, hconsumed, hd⟩, h⟩
    exact ⟨window, hwindow, .inr ⟨consumed, outcome_ask.trans hconsumed, d, hd, h⟩⟩

theorem mem_withinUsage (hp : 7 ≤ p.rank) :
    p ∈ (withinUsage c model window).calls answers ↔ ∃ d,
      (∃ budget cost, answers (.resolveBudget c.tenantId) = .ok (some budget) ∧
        answers (.attributedCost c.tenantId window.start window.end) = .ok cost ∧
        decideTenantCostBudget cost budget window = .ok d) ∧
      p ∈ (if d.allowed then execute c model
        else (orInvocationError (Invocation.costLimited c d.attributedCost d.budget d.allowance
          window)).bind fun costLimited => (persist costLimited).bind fun _ =>
            raise (.invocationCostLimited c.invocationId window.end)).calls answers := by
  simp only [withinUsage, bind_eq, mem_calls_bind, orValueError, calls_lift, outcome_lift_eq_ok,
    List.not_mem_nil, false_or, calls_orMissing, outcome_orMissing_eq_ok]
  constructor
  · rintro (h | ⟨_, hbudget, budget, rfl, h | ⟨cost, hcost, d, hd, h⟩⟩)
    · rw [rank_of_mem_ask h] at hp
      simp [Port.rank] at hp
    · rw [rank_of_mem_ask h] at hp
      simp [Port.rank] at hp
    · rw [outcome_ask] at hbudget hcost
      exact ⟨d, ⟨budget, cost, hbudget, hcost, hd⟩, h⟩
  · rintro ⟨d, ⟨budget, cost, hbudget, hcost, hd⟩, h⟩
    exact .inr ⟨_, outcome_ask.trans hbudget, budget, rfl, .inr ⟨cost, outcome_ask.trans hcost, d, hd, h⟩⟩

theorem invoke_not_mem_succeed {result : ProviderInvocationResult} {reference inputText : String} :
    Port.invoke reference inputText ∉ (succeed c model result).calls answers := by
  intro h
  simp only [succeed, bind_eq, mem_calls_bind, orCostError, orInvocationError, calls_lift,
    List.not_mem_nil, false_or, pure_eq, calls_ret, and_false, exists_false, or_false] at h
  rcases h with h | ⟨_, _, _, _, _, _, h⟩
  · exact absurd (rank_of_mem_ask h) (by simp [Port.rank])
  · exact Port.noConfusion ((mem_persist (by simp [Port.rank])).mp h)

/-- The provider is called first, and what it answers decides what is stored. -/
theorem mem_calls_execute (hp : p.rank ≤ 9) :
    p ∈ (execute c model).calls answers ↔
      p = .invoke model.providerModelReference c.inputText ∨
      (∃ result, answers (.invoke model.providerModelReference c.inputText) = .ok result ∧
        p ∈ (succeed c model result).calls answers) ∨
      (answers (.invoke model.providerModelReference c.inputText) = .error .providerTransportError ∧
        ∃ i, Invocation.failed c = .ok i ∧ p = .invocationsAdd i) := by
  refine List.mem_cons.trans (or_congr_right ?_)
  cases hr : answers (.invoke model.providerModelReference c.inputText) with
  | ok result => simp
  | error e =>
    cases e with
    | providerTransportError => simpa using mem_refuse hp
    | _ => simp

/-- The provider is called once, by the Model that is admitted. -/
theorem invoke_mem_execute {reference inputText : String} :
    Port.invoke reference inputText ∈ (execute c model).calls answers ↔
      reference = model.providerModelReference ∧ inputText = c.inputText := by
  rw [mem_calls_execute (by simp [Port.rank])]
  constructor
  · rintro (h | ⟨_, _, h⟩ | ⟨_, _, _, h⟩)
    · cases h
      exact ⟨rfl, rfl⟩
    · exact absurd h invoke_not_mem_succeed
    · cases h
  · rintro ⟨rfl, rfl⟩
    exact .inl rfl

theorem invoke_mem_iff {reference inputText : String} :
    Port.invoke reference inputText ∈ (createInvocation env command).calls answers ↔
      ∃ model decision, Gate.Passed answers env command inputText model decision ∧
        reference = model.providerModelReference := by
  rw [mem_createInvocation (by simp [Port.rank])]
  constructor
  · rintro ⟨inputText', model, decision, hdecided, h⟩
    split at h
    · next hallow =>
      obtain ⟨window, d, hwindow, husage, h⟩ := (mem_allowed (by simp [Port.rank])).mp h
      split at h
      · next hd =>
        obtain ⟨d', hcost, h⟩ := (mem_withinUsage (by simp [Port.rank])).mp h
        split at h
        · next hd' =>
          obtain ⟨rfl, rfl⟩ := invoke_mem_execute.mp h
          exact ⟨model, decision, ⟨window, d', ⟨⟨d, ⟨hdecided, hallow, hwindow, husage⟩, hd⟩, hcost⟩, hd'⟩,
            rfl⟩
        · exact absurd h (not_mem_refuse (by simp [Port.rank]))
      · exact absurd h (not_mem_refuse (by simp [Port.rank]))
    · exact absurd h (not_mem_refuse (by simp [Port.rank]))
  · rintro ⟨model, decision, ⟨window, d', ⟨⟨d, ⟨hdecided, hallow, hwindow, husage⟩, hd⟩, hcost⟩, hd'⟩, rfl⟩
    refine ⟨inputText, model, decision, hdecided, ?_⟩
    rw [if_pos hallow]
    refine (mem_allowed (by simp [Port.rank])).mpr ⟨window, d, hwindow, husage, ?_⟩
    rw [if_pos hd]
    refine (mem_withinUsage (by simp [Port.rank])).mpr ⟨d', hcost, ?_⟩
    rw [if_pos hd']
    exact invoke_mem_execute.mpr ⟨rfl, rfl⟩

/-! ## Refusals -/

section Unique

variable {inputText inputText' : String} {model' : ModelRuntimeReference}
  {decision decision' : RuntimePolicyDecision} {window' : UsageWindow} {d d' : UsageLimitDecision}
  {b b' : TenantCostBudgetDecision}

theorem Gate.Decided.unique (h : Gate.Decided answers env command inputText model decision)
    (h' : Gate.Decided answers env command inputText' model' decision') :
    inputText = inputText' ∧ model = model' ∧ decision = decision' := by
  refine ⟨Except.ok.inj (h.input.symm.trans h'.input), ?_, Except.ok.inj (h.decided.symm.trans h'.decided)⟩
  exact Option.some.inj (Except.ok.inj (h.admitted.found.symm.trans h'.admitted.found))

theorem Gate.UsageDecided.unique (h : Gate.UsageDecided answers env command inputText model decision window d)
    (h' : Gate.UsageDecided answers env command inputText' model' decision' window' d') :
    window = window' ∧ d = d' := by
  obtain rfl : window = window' := Except.ok.inj (h.day.symm.trans h'.day)
  obtain ⟨consumed, hread, hd⟩ := h.decided
  obtain ⟨consumed', hread', hd'⟩ := h'.decided
  obtain rfl : consumed = consumed' := Except.ok.inj (hread.symm.trans hread')
  exact ⟨rfl, Except.ok.inj (hd.symm.trans hd')⟩

theorem Gate.CostDecided.unique (h : Gate.CostDecided answers env command inputText model decision window b)
    (h' : Gate.CostDecided answers env command inputText' model' decision' window' b') : b = b' := by
  obtain ⟨_, husage, _⟩ := h.usage
  obtain ⟨_, husage', _⟩ := h'.usage
  obtain ⟨rfl, _⟩ := husage.unique husage'
  obtain ⟨budget, cost, hbudget, hread, hb⟩ := h.decided
  obtain ⟨budget', cost', hbudget', hread', hb'⟩ := h'.decided
  obtain rfl : budget = budget' := Option.some.inj (Except.ok.inj (hbudget.symm.trans hbudget'))
  obtain rfl : cost = cost' := Except.ok.inj (hread.symm.trans hread')
  exact Except.ok.inj (hb.symm.trans hb')

/-- No gate that refuses is passed. -/
theorem Gate.Refused.not_passed {i : Invocation} (h : Gate.Refused answers env command i e) :
    ¬Gate.Passed answers env command inputText model decision := by
  rintro ⟨window, b, hcost, hb⟩
  obtain ⟨d, husage, hd⟩ := hcost.usage
  cases h with
  | denied decided refuses _ =>
    obtain ⟨_, _, rfl⟩ := decided.unique husage.policy
    exact refuses husage.allowed
  | limited decided refuses _ =>
    obtain ⟨_, rfl⟩ := decided.unique husage
    rw [hd] at refuses
    cases refuses
  | costLimited decided refuses _ =>
    obtain rfl := decided.unique hcost
    rw [hb] at refuses
    cases refuses

end Unique

theorem refused_iff {i : Invocation} :
    (Port.invocationsAdd i ∈ (createInvocation env command).calls answers ∧
      ∀ reference inputText,
        Port.invoke reference inputText ∉ (createInvocation env command).calls answers) ↔
      ∃ e, Gate.Refused answers env command i e := by
  constructor
  · rintro ⟨hadd, hnever⟩
    obtain ⟨inputText, model, decision, hdecided, h⟩ := (mem_createInvocation (by simp [Port.rank])).mp hadd
    split at h
    · next hallow =>
      obtain ⟨window, d, hwindow, husage, h⟩ := (mem_allowed (by simp [Port.rank])).mp h
      have hlimit : Gate.UsageDecided answers env command inputText model decision window d :=
        ⟨hdecided, hallow, hwindow, husage⟩
      split at h
      · next hd =>
        obtain ⟨d', hcost, h⟩ := (mem_withinUsage (by simp [Port.rank])).mp h
        have hbudget : Gate.CostDecided answers env command inputText model decision window d' :=
          ⟨⟨d, hlimit, hd⟩, hcost⟩
        split at h
        · next hd' =>
          exact absurd (invoke_mem_iff.mpr ⟨model, decision, ⟨window, d', hbudget, hd'⟩, rfl⟩)
            (hnever _ _)
        · next hd' =>
          obtain ⟨_, hi, h⟩ := (mem_refuse (by simp [Port.rank])).mp h
          cases h
          exact ⟨_, .costLimited hbudget (by simpa using hd') hi⟩
      · next hd =>
        obtain ⟨_, hi, h⟩ := (mem_refuse (by simp [Port.rank])).mp h
        cases h
        exact ⟨_, .limited hlimit (by simpa using hd) hi⟩
    · next hdeny =>
      obtain ⟨_, hi, h⟩ := (mem_refuse (by simp [Port.rank])).mp h
      cases h
      exact ⟨_, .denied hdecided hdeny hi⟩
  · rintro ⟨e, h⟩
    refine ⟨?_, fun reference inputText hcalled => ?_⟩
    · cases h with
      | @denied inputText model decision _ decided refuses hi =>
        refine (mem_createInvocation (by simp [Port.rank])).mpr ⟨inputText, model, decision, decided, ?_⟩
        rw [if_neg refuses]
        exact (mem_refuse (by simp [Port.rank])).mpr ⟨i, hi, rfl⟩
      | @limited inputText model decision window d _ decided refuses hi =>
        refine (mem_createInvocation (by simp [Port.rank])).mpr
          ⟨inputText, model, decision, decided.policy, ?_⟩
        rw [if_pos decided.allowed]
        refine (mem_allowed (by simp [Port.rank])).mpr ⟨window, d, decided.day, decided.decided, ?_⟩
        rw [refuses, if_neg Bool.false_ne_true]
        exact (mem_refuse (by simp [Port.rank])).mpr ⟨i, hi, rfl⟩
      | @costLimited inputText model decision window d' _ decided refuses hi =>
        obtain ⟨d, husage, hd⟩ := decided.usage
        refine (mem_createInvocation (by simp [Port.rank])).mpr
          ⟨inputText, model, decision, husage.policy, ?_⟩
        rw [if_pos husage.allowed]
        refine (mem_allowed (by simp [Port.rank])).mpr ⟨window, d, husage.day, husage.decided, ?_⟩
        rw [if_pos hd]
        refine (mem_withinUsage (by simp [Port.rank])).mpr ⟨d', decided.decided, ?_⟩
        rw [refuses, if_neg Bool.false_ne_true]
        exact (mem_refuse (by simp [Port.rank])).mpr ⟨i, hi, rfl⟩
    · obtain ⟨_, _, hpassed, _⟩ := invoke_mem_iff.mp hcalled
      exact h.not_passed hpassed

theorem outcome_lift_of_ok {ε : Type} {g : ε → Error} {x : Except ε α} {a : α} (h : x = .ok a) :
    (lift g x : Handler α).outcome answers = .ok a :=
  outcome_lift_eq_ok.mpr h

/-- What is stored without a failure is followed by the exception of the gate. -/
theorem outcome_refuse {x : Except InvocationError Invocation} {i : Invocation} (hi : x = .ok i)
    (hadd : answers (.invocationsAdd i) = .ok ()) (hcommit : answers .commit = .ok ())
    (hrollback : answers .rollback = .ok ()) :
    ((orInvocationError x).bind fun i => (persist i).bind fun _ =>
      (raise e : Handler α)).outcome answers = .error e := by
  have hpersist : (persist i).outcome answers = .ok () := by
    rw [persist, outcome_andFinally_of_ok hrollback, bind_eq,
      outcome_bind_of_ok (outcome_ask.trans hadd)]
    exact outcome_ask.trans hcommit
  rw [orInvocationError, outcome_bind_of_ok (outcome_lift_of_ok hi), outcome_bind_of_ok hpersist,
    outcome_raise]

section Outcomes

variable {inputText : String} {decision : RuntimePolicyDecision}

theorem outcome_of_decided (h : Gate.Decided answers env command inputText model decision) :
    (createInvocation env command).outcome answers =
      (if decision.effect = "allow" then allowed (commonOf env command inputText decision) command model
        else (orInvocationError (Invocation.denied (commonOf env command inputText decision))).bind
          fun denied => (persist denied).bind fun _ =>
            raise (.invocationDenied env.invocationId decision.id)).outcome answers := by
  refine (outcome_bind_of_ok (outcome_lift_of_ok h.input)).trans ?_
  refine (outcome_bind_of_ok (outcome_admitted_eq_ok.mpr h.admitted)).trans ?_
  exact outcome_bind_of_ok (outcome_ask.trans h.decided)

theorem outcome_of_usage {d : UsageLimitDecision}
    (h : Gate.UsageDecided answers env command inputText model decision window d) :
    (createInvocation env command).outcome answers =
      (if d.allowed then withinUsage (commonOf env command inputText decision) model window
        else (orInvocationError (Invocation.limited (commonOf env command inputText decision)
          d.consumedUnits d.limitUnits d.allowanceUnits d.window)).bind fun limited =>
            (persist limited).bind fun _ =>
              raise (.invocationUsageLimited env.invocationId window.end)).outcome answers := by
  obtain ⟨consumed, hread, hd⟩ := h.decided
  rw [outcome_of_decided h.policy, if_pos h.allowed]
  refine (outcome_bind_of_ok (outcome_lift_of_ok h.day)).trans ?_
  refine (outcome_bind_of_ok (outcome_ask.trans hread)).trans ?_
  exact outcome_bind_of_ok (outcome_lift_of_ok hd)

theorem outcome_of_cost {d : TenantCostBudgetDecision}
    (h : Gate.CostDecided answers env command inputText model decision window d) :
    (createInvocation env command).outcome answers =
      (if d.allowed then execute (commonOf env command inputText decision) model
        else (orInvocationError (Invocation.costLimited (commonOf env command inputText decision)
          d.attributedCost d.budget d.allowance window)).bind fun costLimited =>
            (persist costLimited).bind fun _ =>
              raise (.invocationCostLimited env.invocationId window.end)).outcome answers := by
  obtain ⟨d', husage, hd'⟩ := h.usage
  obtain ⟨budget, cost, hbudget, hread, hd⟩ := h.decided
  rw [outcome_of_usage husage, if_pos hd']
  refine (outcome_bind_of_ok (outcome_ask.trans hbudget)).trans ?_
  refine (outcome_bind_of_ok (outcome_orMissing_eq_ok.mpr rfl)).trans ?_
  refine (outcome_bind_of_ok (outcome_ask.trans hread)).trans ?_
  exact outcome_bind_of_ok (outcome_lift_of_ok hd)

end Outcomes

theorem Gate.Refused.outcome {i : Invocation} (h : Gate.Refused answers env command i e)
    (hadd : answers (.invocationsAdd i) = .ok ()) (hcommit : answers .commit = .ok ())
    (hrollback : answers .rollback = .ok ()) :
    (createInvocation env command).outcome answers = .error e := by
  cases h with
  | denied decided refuses hi =>
    rw [outcome_of_decided decided, if_neg refuses]
    exact outcome_refuse hi hadd hcommit hrollback
  | limited decided refuses hi =>
    rw [outcome_of_usage decided, refuses, if_neg Bool.false_ne_true]
    exact outcome_refuse hi hadd hcommit hrollback
  | costLimited decided refuses hi =>
    rw [outcome_of_cost decided, refuses, if_neg Bool.false_ne_true]
    exact outcome_refuse hi hadd hcommit hrollback

/-! ## The ledgers -/

/-- The ledger of the usage limit is read once the policy allows. -/
theorem consumedTotalUnits_mem_iff {principalId : String} {start «end» : Utc} :
    Port.consumedTotalUnits principalId start «end» ∈ (createInvocation env command).calls answers ↔
      ∃ inputText model decision window, Gate.Decided answers env command inputText model decision ∧
        decision.effect = "allow" ∧ utcDayWindow env.startedAt = .ok window ∧
        principalId = command.runtimePrincipalId ∧ start = window.start ∧ «end» = window.end := by
  rw [mem_createInvocation (by simp [Port.rank])]
  constructor
  · rintro ⟨inputText, model, decision, hdecided, h⟩
    split at h
    · next hallow =>
      simp only [allowed, bind_eq, mem_calls_bind, orOverflow, orValueError, calls_lift,
        outcome_lift_eq_ok, List.not_mem_nil, false_or] at h
      obtain ⟨window, hwindow, h | ⟨_, _, d, _, h⟩⟩ := h
      · rw [calls_ask, List.mem_singleton] at h
        cases h
        exact ⟨inputText, model, decision, window, hdecided, hallow, hwindow, rfl, rfl, rfl⟩
      · split at h
        · exact absurd (withinUsage_ascends.le_rank h) (by simp [Port.rank])
        · exact absurd h (not_mem_refuse (by simp [Port.rank]))
    · exact absurd h (not_mem_refuse (by simp [Port.rank]))
  · rintro ⟨inputText, model, decision, window, hdecided, hallow, hwindow, rfl, rfl, rfl⟩
    refine ⟨inputText, model, decision, hdecided, ?_⟩
    rw [if_pos hallow]
    simp only [allowed, bind_eq, mem_calls_bind, orOverflow, calls_lift, outcome_lift_eq_ok,
      List.not_mem_nil, false_or]
    exact ⟨window, hwindow, .inl (by rw [calls_ask]; exact List.mem_singleton_self _)⟩

/-- That of the cost budget is read once the usage limit allows and there is a budget. -/
theorem attributedCost_mem_iff {tenantId : Uuid} {start «end» : Utc} :
    Port.attributedCost tenantId start «end» ∈ (createInvocation env command).calls answers ↔
      ∃ inputText model decision window d budget,
        Gate.UsageDecided answers env command inputText model decision window d ∧ d.allowed = true ∧
        answers (.resolveBudget command.tenantId) = .ok (some budget) ∧ tenantId = command.tenantId ∧
        start = window.start ∧ «end» = window.end := by
  rw [mem_createInvocation (by simp [Port.rank])]
  constructor
  · rintro ⟨inputText, model, decision, hdecided, h⟩
    split at h
    · next hallow =>
      obtain ⟨window, d, hwindow, husage, h⟩ := (mem_allowed (by simp [Port.rank])).mp h
      split at h
      · next hd =>
        simp only [withinUsage, bind_eq, mem_calls_bind, orValueError, calls_lift, outcome_lift_eq_ok,
          List.not_mem_nil, false_or, calls_orMissing, outcome_orMissing_eq_ok] at h
        rcases h with h | ⟨_, hbudget, budget, rfl, h | ⟨_, _, d', _, h⟩⟩
        · exact absurd (rank_of_mem_ask h) (by simp [Port.rank])
        · rw [calls_ask, List.mem_singleton] at h
          cases h
          rw [outcome_ask] at hbudget
          exact ⟨inputText, model, decision, window, d, budget, ⟨hdecided, hallow, hwindow, husage⟩, hd,
            hbudget, rfl, rfl, rfl⟩
        · split at h
          · exact absurd (execute_ascends.le_rank h) (by simp [Port.rank])
          · exact absurd h (not_mem_refuse (by simp [Port.rank]))
      · exact absurd h (not_mem_refuse (by simp [Port.rank]))
    · exact absurd h (not_mem_refuse (by simp [Port.rank]))
  · rintro ⟨inputText, model, decision, window, d, budget, husage, hd, hbudget, rfl, rfl, rfl⟩
    refine ⟨inputText, model, decision, husage.policy, ?_⟩
    rw [if_pos husage.allowed]
    refine (mem_allowed (by simp [Port.rank])).mpr ⟨window, d, husage.day, husage.decided, ?_⟩
    rw [if_pos hd]
    simp only [withinUsage, bind_eq, mem_calls_bind, calls_orMissing, outcome_orMissing_eq_ok,
      List.not_mem_nil, false_or]
    refine .inr ⟨_, outcome_ask.trans hbudget, budget, rfl, .inl ?_⟩
    rw [calls_ask]
    exact List.mem_singleton_self _

/-- Whatever the ports do, each is asked at most once, in one order, so that their answers are a
    function. Given the answers: each ledger is read exactly if the gates before it are passed,
    and the provider is called exactly if all are, with the Model that was admitted. Otherwise the
    only Invocation that is stored is that of the first gate that refuses, with what this gate
    compared, and where nothing fails its exception is what the caller gets. -/
theorem gates (env : InvocationEnv) (command : CreateInvocationCommand) :
    (∀ evs q, Path (createInvocation env command) evs q →
      (evs.map (·.op.rank)).Pairwise (· < ·) ∧ (q.Finished → ∃ answers : Answers Port Port.Res Error,
        (∀ e ∈ evs, answers e.op = e.answer) ∧
          (createInvocation env command).calls answers = evs.map (·.op))) ∧
    ∀ answers : Answers Port Port.Res Error,
      (∀ principalId start «end»,
        .consumedTotalUnits principalId start «end» ∈ (createInvocation env command).calls answers ↔
          ∃ inputText model decision window, Gate.Decided answers env command inputText model decision ∧
            decision.effect = "allow" ∧ utcDayWindow env.startedAt = .ok window ∧
            principalId = command.runtimePrincipalId ∧ start = window.start ∧ «end» = window.end) ∧
      (∀ tenantId start «end»,
        .attributedCost tenantId start «end» ∈ (createInvocation env command).calls answers ↔
          ∃ inputText model decision window d budget,
            Gate.UsageDecided answers env command inputText model decision window d ∧ d.allowed = true ∧
            answers (.resolveBudget command.tenantId) = .ok (some budget) ∧ tenantId = command.tenantId ∧
            start = window.start ∧ «end» = window.end) ∧
      (∀ reference inputText,
        .invoke reference inputText ∈ (createInvocation env command).calls answers ↔
          ∃ model decision, Gate.Passed answers env command inputText model decision ∧
            reference = model.providerModelReference) ∧
      (∀ i, (.invocationsAdd i ∈ (createInvocation env command).calls answers ∧
          ∀ reference inputText,
            .invoke reference inputText ∉ (createInvocation env command).calls answers) ↔
        ∃ e, Gate.Refused answers env command i e) ∧
      ∀ i e, Gate.Refused answers env command i e → answers (.invocationsAdd i) = .ok () →
        answers .commit = .ok () → answers .rollback = .ok () →
        (createInvocation env command).outcome answers = .error e := by
  refine ⟨fun evs q hpath => ⟨?_, fun hq => ?_⟩, fun answers => ⟨fun _ _ _ => consumedTotalUnits_mem_iff,
    fun _ _ _ => attributedCost_mem_iff, fun _ _ => invoke_mem_iff, fun i => refused_iff,
    fun i e h => h.outcome⟩⟩
  · exact ((createInvocation_ascends env command).ascends hpath).1
  · have : Nonempty Error := ⟨.database⟩
    obtain ⟨answers, hanswers, hcalls, _⟩ := (createInvocation_ascends env command).answered hpath hq
    exact ⟨answers, hanswers, hcalls⟩

end Gates

end Valor.RuntimeGateway
