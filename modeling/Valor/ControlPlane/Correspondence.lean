/-
  The control plane: Invocations and their decisions.

  The decision is committed by one transaction and the Invocation by a later one, and the
  handler holds nothing but the answer of the adapter in between. What `Commit.conclude` says
  of the database is what is needed: the decision that the Invocation names is stored.
-/
import Valor.ControlPlane.PolicyHistory

namespace Valor.ControlPlane

open Python Postgres ManagementAudit IdentityTenancy AssetRegistry PolicyRisk RuntimeGateway
  Prog Interleave ReadCommitted Settings

/-- The Invocation names the decision, which was made for it. -/
structure Corresponds (invocation : InvocationRow) (d : DecisionRow) : Prop where
  id : invocation.policyDecisionId = some d.id
  invocationId : d.invocationId = invocation.id
  subject : d.subject = ⟨invocation.tenantId, invocation.agentId, invocation.modelId⟩
  denied : invocation.status = InvocationStatus.denied.value ↔ d.effect = .deny

theorem InvocationStatus.value_eq_denied {status : InvocationStatus} :
    status.value = InvocationStatus.denied.value ↔ status = .denied := by
  cases status <;> decide

section Corresponds

variable {s : Service} {requests : Tid → Request} {tr : List Label} {c c' : Config} {l : Label}

/-- What a request stores as its Invocation names the decision that it has stored before. -/
theorem corresponds_of_concluded {command : CreateInvocationCommand} {env : InvocationEnv}
    {inputText : String} {decision : RuntimePolicyDecision} {invocation : Invocation}
    {row : InvocationRow} {evs : List Event} {db : Db}
    (hdecided : Decided env.invocationId (subjectOf command) decision db)
    (hconcluded : Concluded s.settings command (commonOf env command inputText decision) evs
      decision.effect invocation)
    (hrow : InvocationRow.ofInvocation invocation = .ok row) :
    ∃ d ∈ db.decisions, d.id = decision.id ∧ Corresponds row d := by
  obtain ⟨d, hd, hid, hinvocation, hsubject, _, heffect⟩ := hdecided
  obtain ⟨status, hmade, hdenied⟩ := hconcluded.madeOf
  obtain ⟨hrid, htenant, hagent, hmodel, hstatus, _, hdecision⟩ := ofInvocation_ok hrow
  refine ⟨d, hd, hid, ?_, ?_, ?_, ?_⟩
  · rw [hdecision, hmade.policyDecisionId, hid]
    rfl
  · rw [hinvocation, hrid, hmade.id]
    rfl
  · rw [hsubject, htenant, hagent, hmodel, hmade.tenantId, hmade.agentId, hmade.modelId]
    rfl
  · rw [hstatus, hmade.status, InvocationStatus.value_eq_denied, hdenied, ← heffect, ne_eq,
      PolicyEffect.value_eq_allow]
    cases d.effect <;> simp

/-- A new Invocation is committed by its request, after its decision. -/
theorem new_invocation (h : RunFrom s requests Db.empty tr c) (hs : Step database.exec c l c')
    {row : InvocationRow} (hnew : row ∈ c'.world.db.invocations) (hold : row ∉ c.world.db.invocations) :
    l = committed l.tid ∧ ∃ env decisionEnv command d,
      requests l.tid = .createInvocation env decisionEnv command ∧ row.id = env.invocationId ∧
      d ∈ c.world.db.decisions ∧ d.id = decisionEnv.decisionId ∧ Corresponds row d := by
  obtain hdb | ⟨hl, hc⟩ := step_cases h hs
  · rw [hdb] at hnew
    exact absurd hnew hold
  · refine ⟨hl, ?_⟩
    generalize requests l.tid = request at hc
    generalize c'.world.db = db' at hc hnew
    cases hc with
    | createTenant | registerAgent | registerModel | setPermission | decide => exact absurd hnew hold
    | @conclude env decisionEnv command _ _ inputText decision invocation row' _ _ hdecided hid _
        hconcluded hrow _ _ =>
      rcases Table.mem_insert.mp hnew with hnew | ⟨rfl, _⟩
      · exact absurd hnew hold
      · obtain ⟨d, hd, hdid, hcorresponds⟩ := corresponds_of_concluded hdecided hconcluded hrow
        obtain ⟨_, hmade, _⟩ := hconcluded.madeOf
        exact ⟨env, decisionEnv, command, d, rfl, (ofInvocation_ok hrow).1.trans hmade.id, hd,
          hdid.trans hid, hcorresponds⟩

/-- Every stored Invocation has its decision. -/
theorem corresponds_of_run (h : RunFrom s requests Db.empty tr c) :
    ∀ row ∈ c.world.db.invocations, ∃ d ∈ c.world.db.decisions, Corresponds row d := by
  unfold RunFrom at h
  induction h with
  | nil => exact fun row hrow => absurd hrow (Table.not_mem_empty row)
  | @snoc c c' tr l h hs ih =>
    have hlater : Later c.world.db c'.world.db := RunFrom.later_of h (.snoc (.nil c) hs)
    intro row hrow
    by_cases hold : row ∈ c.world.db.invocations
    · obtain ⟨d, hd, hcorresponds⟩ := ih row hold
      exact ⟨d, hlater.decisions d hd, hcorresponds⟩
    · obtain ⟨_, _, _, _, d, _, _, hd, _, hcorresponds⟩ := new_invocation h hs hrow hold
      exact ⟨d, hlater.decisions d hd, hcorresponds⟩

/-- The provider is called when a decision of the request that allows is stored. -/
theorem decided_before_call (h : RunFrom s requests Db.empty tr c) {i : Tid}
    {reference inputText : String} {r : Except Error ProviderInvocationResult}
    (hs : Step database.exec c ⟨i, ⟨.sql (.invoke reference inputText), r⟩⟩ c') :
    ∃ env decisionEnv command d, requests i = .createInvocation env decisionEnv command ∧
      d ∈ c.world.db.decisions ∧ d.id = decisionEnv.decisionId ∧ d.invocationId = env.invocationId ∧
      d.subject = subjectOf command ∧ d.effect = .allow := by
  have hpromise := step_promised h hs
  dsimp only at hpromise
  cases hrequest : requests i with
  | createInvocation env decisionEnv command =>
    rw [hrequest] at hpromise
    obtain ⟨decision, hid, heffect, d, hd, hdid, hinvocation, hsubject, _, hvalue⟩ := hpromise
    exact ⟨env, decisionEnv, command, d, rfl, hd, hdid.trans hid, hinvocation, hsubject,
      PolicyEffect.value_eq_allow.mp (hvalue.trans heffect)⟩
  | _ =>
    rw [hrequest] at hpromise
    exact hpromise.elim

/-- From the empty database, whatever requests are interleaved: every Invocation names exactly
    one decision, which was made for it and for no other. The decision is committed before the
    Invocation, and before any call of the provider by its request. -/
theorem invocations_correspond (s : Service) (requests : Tid → Request) (tr : List Label) (c : Config)
    (h : RunFrom s requests Db.empty tr c) :
    (∀ row ∈ c.world.db.invocations, ∃ d ∈ c.world.db.decisions, Corresponds row d ∧
      ∀ d' ∈ c.world.db.decisions, row.policyDecisionId = some d'.id → d' = d) ∧
    (∀ row ∈ c.world.db.invocations, ∀ row' ∈ c.world.db.invocations,
      row.policyDecisionId = row'.policyDecisionId → row = row') ∧
    (∀ l c' row, Step database.exec c l c' → row ∈ c'.world.db.invocations →
      row ∉ c.world.db.invocations → l = committed l.tid ∧ ∃ d ∈ c.world.db.decisions, Corresponds row d ∧
        ∀ tr₁ tr₂ reference inputText r,
          tr = tr₁ ++ ⟨l.tid, ⟨.sql (.invoke reference inputText), r⟩⟩ :: tr₂ →
          ∃ c₁, RunFrom s requests Db.empty tr₁ c₁ ∧ d ∈ c₁.world.db.decisions) ∧
    (∀ i reference inputText r c',
      Step database.exec c ⟨i, ⟨.sql (.invoke reference inputText), r⟩⟩ c' →
      ∃ env decisionEnv command d, requests i = .createInvocation env decisionEnv command ∧
        d ∈ c.world.db.decisions ∧ d.id = decisionEnv.decisionId ∧ d.invocationId = env.invocationId ∧
        d.subject = subjectOf command ∧ d.effect = .allow) := by
  have hall := corresponds_of_run h
  refine ⟨fun row hrow => ?_, fun row hrow row' hrow' hsame => ?_, fun l c' row hs hnew hold => ?_,
    fun i reference inputText r c' hs => decided_before_call h hs⟩
  · obtain ⟨d, hd, hcorresponds⟩ := hall row hrow
    refine ⟨d, hd, hcorresponds, fun d' hd' hid => Table.eq_of_key hd' hd ?_⟩
    exact Option.some.inj (hid.symm.trans hcorresponds.id)
  · obtain ⟨d, hd, hcorresponds⟩ := hall row hrow
    obtain ⟨d', hd', hcorresponds'⟩ := hall row' hrow'
    have hid : some d.id = some d'.id := hcorresponds.id.symm.trans (hsame.trans hcorresponds'.id)
    obtain rfl : d = d' := Table.eq_of_key hd hd' (Option.some.inj hid)
    exact Table.eq_of_key hrow hrow' (hcorresponds.invocationId.symm.trans hcorresponds'.invocationId)
  · obtain ⟨hl, env, decisionEnv, command, d, hrequest, _, hd, hid, hcorresponds⟩ :=
      new_invocation h hs hnew hold
    refine ⟨hl, d, hd, hcorresponds, ?_⟩
    rintro tr₁ tr₂ reference inputText r rfl
    obtain ⟨c₁, hrun, hrest⟩ := Run.split h
    obtain ⟨_, hcall, _⟩ := hrest.uncons
    obtain ⟨_, _, _, d', hrequest', hd', hid', _⟩ := decided_before_call hrun hcall
    rw [hrequest] at hrequest'
    cases hrequest'
    have hlater := RunFrom.later_of hrun hrest
    obtain rfl : d = d' := Table.eq_of_key hd (hlater.decisions d' hd') (hid.trans hid'.symm)
    exact ⟨c₁, hrun, hd'⟩

end Corresponds

/-- The same service, with a budget for tenant 1. -/
def exampleBudgeted : Service :=
  { exampleControlPlane with
    settings := ⟨⟨[{
      tenantId := 1
      dailyEstimatedCostBudget := ⟨100, 0⟩
      perInvocationCostAllowance := ⟨2, 0⟩
      currency := "USD"
      budget_accepted := by decide +kernel
      allowance_accepted := by decide +kernel
      allowance_fits_budget := by decide +kernel
      usd := rfl }], List.nodup_singleton _⟩, exampleControlPlane.settings.pricing⟩ }

/-- `n` operations of thread `i`, where the provider answers. -/
def answeredTurns (i : Tid) (n : Nat) : List (Tid × Choice) :=
  List.replicate n (i, ⟨false, 20, .ok ⟨"hello", none, none⟩⟩)

/-- The status and the decision of the stored Invocation. -/
def statusOf (invocationId : Uuid) (db : Db) : Option (String × Option Uuid) :=
  (db.invocations.find? invocationId).map fun row => (row.status, row.policyDecisionId)

/-- A denied Invocation, and one that the provider has answered. -/
theorem invocations_correspond_two : ∃ c : Config,
    statusOf 50 c.world.db = some ("denied", some 60) ∧
    statusOf 51 c.world.db = some ("succeeded", some 61) ∧
    ∀ row ∈ c.world.db.invocations, ∃ d ∈ c.world.db.decisions, Corresponds row d ∧
      ∀ d' ∈ c.world.db.decisions, row.policyDecisionId = some d'.id → d' = d := by
  obtain ⟨tr, c, hrun, ht⟩ := schedule_any database.exec
    ⟨World.ofDb Db.empty, fun i => exampleBudgeted.program (exampleEvaluations i)⟩
    (turns 0 3 0 ++ turns 1 5 0 ++ turns 2 5 0 ++
      turns 3 9 10 ++ answeredTurns 4 10 ++ turns 3 3 20 ++
      answeredTurns 5 18 ++ answeredTurns 4 3)
    (fun (_, c) => decide (statusOf 50 c.world.db = some ("denied", some 60)) &&
      decide (statusOf 51 c.world.db = some ("succeeded", some 61))) (by decide +kernel)
  simp only [Bool.and_eq_true, decide_eq_true_eq] at ht
  exact ⟨c, ht.1, ht.2, (invocations_correspond _ _ _ _ hrun).1⟩

end Valor.ControlPlane
