/-
  The control plane: no row mixes two tenants.

  The foreign keys of a row check each of its ids alone. That its Agent and its Model belong
  to its own tenant is checked by the admissions, in sessions before the write; no request
  moves or removes an Agent or a Model, so what was admitted stays admitted (`Later.admitted`),
  and `Owned` is an invariant of the commits.
-/
import Valor.ControlPlane.Correspondence

namespace Valor.ControlPlane

open Python Postgres ManagementAudit IdentityTenancy AssetRegistry PolicyRisk RuntimeGateway
  Prog Interleave ReadCommitted

/-- Whose Agent and Model an Invocation is about. -/
def InvocationRow.subject (row : InvocationRow) : Subject := ⟨row.tenantId, row.agentId, row.modelId⟩

/-- Every row refers to a tenant that exists, and to an Agent and a Model of that tenant. -/
structure Owned (db : Db) : Prop where
  agents : ∀ a ∈ db.agents, db.tenants.find? a.tenantId ≠ none
  models : ∀ m ∈ db.models, db.tenants.find? m.tenantId ≠ none
  permissions : ∀ p ∈ db.permissions, Admitted p.subject db
  decisions : ∀ d ∈ db.decisions, Admitted d.subject db
  invocations : ∀ i ∈ db.invocations, Admitted (InvocationRow.subject i) db

section Owned

variable {db db' : Db}

theorem Later.admitted (h : Later db db') {subject : Subject} (ha : Admitted subject db) :
    Admitted subject db' := by
  obtain ⟨a, hmem, hagent⟩ := ha.agent
  obtain ⟨m, hmem', hmodel⟩ := ha.model
  exact ⟨h.tenant ha.tenant, ⟨a, h.agents a hmem, hagent⟩, m, h.models m hmem', hmodel⟩

theorem Owned.empty : Owned Db.empty := by
  constructor <;> exact fun r hr => absurd hr (Table.not_mem_empty r)

/-- What is owned stays owned; the rows that are new are left to show. -/
theorem Owned.next (h : Owned db) (hlater : Later db db')
    (hagents : ∀ a ∈ db'.agents, a ∉ db.agents → db'.tenants.find? a.tenantId ≠ none)
    (hmodels : ∀ m ∈ db'.models, m ∉ db.models → db'.tenants.find? m.tenantId ≠ none)
    (hpermissions : ∀ p ∈ db'.permissions, p ∉ db.permissions → Admitted p.subject db')
    (hdecisions : ∀ d ∈ db'.decisions, d ∉ db.decisions → Admitted d.subject db')
    (hinvocations : ∀ i ∈ db'.invocations, i ∉ db.invocations →
      Admitted (InvocationRow.subject i) db') : Owned db' := by
  refine ⟨fun a ha => ?_, fun m hm => ?_, fun p hp => ?_, fun d hd => ?_, fun i hi => ?_⟩
  · by_cases hold : a ∈ db.agents
    · exact hlater.tenant (h.agents a hold)
    · exact hagents a ha hold
  · by_cases hold : m ∈ db.models
    · exact hlater.tenant (h.models m hold)
    · exact hmodels m hm hold
  · by_cases hold : p ∈ db.permissions
    · exact hlater.admitted (h.permissions p hold)
    · exact hpermissions p hp hold
  · by_cases hold : d ∈ db.decisions
    · exact hlater.admitted (h.decisions d hold)
    · exact hdecisions d hd hold
  · by_cases hold : i ∈ db.invocations
    · exact hlater.admitted (h.invocations i hold)
    · exact hinvocations i hi hold

theorem agent_registered {casefold : String → String} {agentId tenantId : Uuid} {name : String}
    {createdAt : Datetime} {agent : Agent}
    (h : Agent.register casefold agentId tenantId name createdAt = .ok agent) :
    agent.id = agentId ∧ agent.tenantId = tenantId := by
  obtain ⟨_, _, h⟩ := Except.bind_ok_cases h
  obtain ⟨_, _, h⟩ := Except.bind_ok_cases h
  cases h
  exact ⟨rfl, rfl⟩

theorem model_registered {casefold : String → String} {modelId tenantId : Uuid} {name : String}
    {provider : Provider} {reference : String} {createdAt : Datetime} {model : Model}
    (h : Model.register casefold modelId tenantId name provider reference createdAt = .ok model) :
    model.id = modelId ∧ model.tenantId = tenantId := by
  obtain ⟨_, _, h⟩ := Except.bind_ok_cases h
  obtain ⟨_, _, h⟩ := Except.bind_ok_cases h
  obtain ⟨_, _, h⟩ := Except.bind_ok_cases h
  cases h
  exact ⟨rfl, rfl⟩

/-- The row that an insert adds. -/
theorem eq_of_new {R K : Type} [Keyed R K] [DecidableEq K] {t : Table R} {row r : R}
    (h : r ∈ t.insert row) (hnew : r ∉ t) : r = row := by
  rcases Table.mem_insert.mp h with hold | ⟨heq, _⟩
  · exact absurd hold hnew
  · exact heq

theorem Owned.commit {s : Service} {r : Request} {evs : List Event} (h : Owned db)
    (hc : Commit s r evs db db') : Owned db' := by
  have hlater := hc.later
  cases hc with
  | createTenant =>
    exact h.next hlater (fun _ hr hn => absurd hr hn) (fun _ hr hn => absurd hr hn)
      (fun _ hr hn => absurd hr hn) (fun _ hr hn => absurd hr hn) fun _ hr hn => absurd hr hn
  | @registerAgent env command _ _ agent row made hrow tenant =>
    refine h.next hlater (fun a ha hnew => ?_) (fun _ hr hn => absurd hr hn)
      (fun _ hr hn => absurd hr hn) (fun _ hr hn => absurd hr hn) fun _ hr hn => absurd hr hn
    obtain rfl := eq_of_new ha hnew
    rw [(ofAgent_ok hrow).2, (agent_registered made).2]
    exact tenant
  | @registerModel env command _ _ model row made hrow tenant =>
    refine h.next hlater (fun _ hr hn => absurd hr hn) (fun m hm hnew => ?_)
      (fun _ hr hn => absurd hr hn) (fun _ hr hn => absurd hr hn) fun _ hr hn => absurd hr hn
    obtain rfl := eq_of_new hm hnew
    rw [(ofModel_ok hrow).2, (model_registered made).2]
    exact tenant
  | @setPermission env principalId subject effect _ _ before now previous proposed effective record
      _ _ _ _ admitted =>
    refine h.next hlater (fun _ hr hn => absurd hr hn) (fun _ hr hn => absurd hr hn)
      (fun p hp hnew => ?_) (fun _ hr hn => absurd hr hn) fun _ hr hn => absurd hr hn
    have hsubject : p.subject = subject := by
      rcases mem_upsertPermission.mp hp with rfl | ⟨hold, _⟩
      · dsimp only
        cases hfound : db.permissions.find? subject with
        | none => rfl
        | some row => exact (Table.find?_some hfound).2
      · exact absurd hold hnew
    rw [hsubject]
    exact hlater.admitted admitted
  | @decide env decisionEnv command _ _ before permission decision row _ _ admitted made hrow _ =>
    refine h.next hlater (fun _ hr hn => absurd hr hn) (fun _ hr hn => absurd hr hn)
      (fun _ hr hn => absurd hr hn) (fun d hd hnew => ?_) fun _ hr hn => absurd hr hn
    obtain rfl := eq_of_new hd hnew
    rw [(ofDecision_ok hrow).2.2.1, (ofPermission_made made).2.2.1]
    exact hlater.admitted admitted
  | @conclude env decisionEnv command _ _ inputText decision invocation row _ admitted _ _ _
      concluded hrow _ _ =>
    refine h.next hlater (fun _ hr hn => absurd hr hn) (fun _ hr hn => absurd hr hn)
      (fun _ hr hn => absurd hr hn) (fun _ hr hn => absurd hr hn) fun i hi hnew => ?_
    obtain rfl := eq_of_new hi hnew
    obtain ⟨_, hmade, _⟩ := concluded.madeOf
    obtain ⟨_, htenant, hagent, hmodel, _⟩ := ofInvocation_ok hrow
    have hsubject : InvocationRow.subject i = subjectOf command := by
      rw [InvocationRow.subject, htenant, hagent, hmodel, hmade.tenantId, hmade.agentId, hmade.modelId]
      rfl
    rw [hsubject]
    exact hlater.admitted admitted

end Owned

section Runs

variable {s : Service} {requests : Tid → Request} {tr : List Label} {c : Config}

/-- The permission that a decision names is that of its own subject. -/
theorem decision_permission (h : RunFrom s requests Db.empty tr c) {d : DecisionRow}
    (hd : d ∈ c.world.db.decisions) {permissionId : Uuid} (hid : permissionId ∈ d.permissionId) :
    ∃ p ∈ c.world.db.permissions, p.id = permissionId ∧ p.subject = d.subject := by
  obtain ⟨i, tr₁, _, hdecided⟩ := decided_of_run h d hd
  obtain ⟨tr₂, htr⟩ := hdecided.reading
  rw [hdecided.permissionId, Option.mem_map] at hid
  obtain ⟨put, hput, rfl⟩ := hid
  -- The first command of a history stays the first one.
  have hfirst : (history requests d.subject tr).head? = some put := by
    rw [htr, history, List.filterMap_append, List.head?_append]
    exact Option.or_eq_some_iff.mpr (.inl hput)
  have hstored := (stored_of_run h).id d.subject
  rw [hfirst, Option.map_some, Option.map_eq_some_iff] at hstored
  obtain ⟨row, hrow, hid⟩ := hstored
  obtain ⟨hmem, hsubject⟩ := Table.find?_some hrow
  exact ⟨row, hmem, hid, hsubject⟩

/-- From the empty database, whatever requests are interleaved: no row mixes two tenants. Agents
    and Models have a tenant; permissions, decisions and Invocations are about an Agent and a
    Model of their own tenant, and so are the permission of a decision and the decision of an
    Invocation. -/
theorem tenants_closed (s : Service) (requests : Tid → Request) (tr : List Label) (c : Config)
    (h : RunFrom s requests Db.empty tr c) : Owned c.world.db ∧
    (∀ d ∈ c.world.db.decisions, ∀ permissionId ∈ d.permissionId, ∃ p ∈ c.world.db.permissions,
      p.id = permissionId ∧ p.subject = d.subject) ∧
    ∀ i ∈ c.world.db.invocations, ∃ d ∈ c.world.db.decisions, i.policyDecisionId = some d.id ∧
      d.subject = InvocationRow.subject i := by
  refine ⟨h.invariant .empty fun _ _ _ _ howned hc => howned.commit hc,
    fun d hd _ hid => decision_permission h hd hid, fun i hi => ?_⟩
  obtain ⟨d, hd, hcorresponds⟩ := corresponds_of_run h i hi
  exact ⟨d, hd, hcorresponds.id, hcorresponds.subject⟩

end Runs

/-- A tenant with its Agent and Model, and two Invocations: one denied, one answered. -/
theorem exampleEvaluations_run : ∃ tr c, RunFrom exampleBudgeted exampleEvaluations Db.empty tr c ∧
    statusOf 50 c.world.db = some ("denied", some 60) ∧
    statusOf 51 c.world.db = some ("succeeded", some 61) := by
  obtain ⟨tr, c, hrun, ht⟩ := schedule_any database.exec
    ⟨World.ofDb Db.empty, fun i => exampleBudgeted.program (exampleEvaluations i)⟩
    (turns 0 3 0 ++ turns 1 5 0 ++ turns 2 5 0 ++ turns 3 9 10 ++ answeredTurns 4 10 ++
      turns 3 3 20 ++ answeredTurns 5 18 ++ answeredTurns 4 3)
    (fun t => decide (statusOf 50 t.2.world.db = some ("denied", some 60)) &&
      decide (statusOf 51 t.2.world.db = some ("succeeded", some 61))) (by decide +kernel)
  simp only [Bool.and_eq_true, decide_eq_true_eq] at ht
  exact ⟨tr, c, hrun, ht⟩

theorem tenants_closed_two : ∃ c : Config, statusOf 51 c.world.db = some ("succeeded", some 61) ∧
    Owned c.world.db ∧ ∀ i ∈ c.world.db.invocations, ∃ d ∈ c.world.db.decisions,
      i.policyDecisionId = some d.id ∧ d.subject = InvocationRow.subject i := by
  obtain ⟨tr, c, hrun, _, hanswered⟩ := exampleEvaluations_run
  obtain ⟨howned, _, hdecided⟩ := tenants_closed _ _ _ _ hrun
  exact ⟨c, hanswered, howned, hdecided⟩

end Valor.ControlPlane
