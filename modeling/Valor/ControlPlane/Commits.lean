/-
  The control plane: what its requests commit.

  Rows are only added, and of a permission nothing but effect and update time changes
  (`Later`). `Commit` describes each commit by what its transaction has done and by the
  database of that moment: an admission that was read before still holds then, and the row
  that an upsert found is still the one.

  A request for an Invocation commits twice, its decision first. What it knows at its second
  commit, and before it calls the provider, is that the first one is there (`Decided`).
-/
import Valor.ControlPlane.Service
import Valor.Lib.Path

namespace Valor.ControlPlane

open Python Postgres ManagementAudit IdentityTenancy AssetRegistry PolicyRisk RuntimeGateway
  Prog Interleave ReadCommitted

abbrev Event := Prog.Event (Op Sql) (Op.Res Sql.Res) Error

/-! ## Growth -/

/-- From an earlier committed database to a later one. -/
structure Later (db db' : Db) : Prop where
  tenants : ∀ r ∈ db.tenants, r ∈ db'.tenants
  agents : ∀ r ∈ db.agents, r ∈ db'.agents
  models : ∀ r ∈ db.models, r ∈ db'.models
  permissions : ∀ subject r, db.permissions.find? subject = some r →
    ∃ r', db'.permissions.find? subject = some r' ∧ r'.id = r.id ∧ r'.createdAt = r.createdAt
  decisions : ∀ r ∈ db.decisions, r ∈ db'.decisions
  invocations : ∀ r ∈ db.invocations, r ∈ db'.invocations
  audits : db.audits <+: db'.audits

theorem Later.refl (db : Db) : Later db db :=
  ⟨fun _ => id, fun _ => id, fun _ => id, fun _ r h => ⟨r, h, rfl, rfl⟩, fun _ => id, fun _ => id,
    List.prefix_refl _⟩

theorem Later.trans {a b c : Db} (h : Later a b) (h' : Later b c) : Later a c := by
  refine ⟨fun r hr => h'.tenants r (h.tenants r hr), fun r hr => h'.agents r (h.agents r hr),
    fun r hr => h'.models r (h.models r hr), ?_, fun r hr => h'.decisions r (h.decisions r hr),
    fun r hr => h'.invocations r (h.invocations r hr), h.audits.trans h'.audits⟩
  intro subject r hr
  obtain ⟨r₁, hr₁, hid₁, hcreated₁⟩ := h.permissions subject r hr
  obtain ⟨r₂, hr₂, hid₂, hcreated₂⟩ := h'.permissions subject r₁ hr₁
  exact ⟨r₂, hr₂, hid₂.trans hid₁, hcreated₂.trans hcreated₁⟩

section Growth

variable {db : Db}

theorem later_insertTenant (row : TenantRow) : Later db (db.insertTenant row) :=
  { Later.refl db with tenants := fun _ => Table.mem_insert_of_mem }

theorem later_insertAgent (row : AgentRow) : Later db (db.insertAgent row) :=
  { Later.refl db with agents := fun _ => Table.mem_insert_of_mem }

theorem later_insertModel (row : ModelRow) : Later db (db.insertModel row) :=
  { Later.refl db with models := fun _ => Table.mem_insert_of_mem }

theorem find?_upsertPermission (values : PermissionRow) (subject : Subject) :
    (db.upsertPermission values).permissions.find? subject =
      if subject = values.subject then
        some ((db.permissions.find? subject).elim values (·.set values))
      else db.permissions.find? subject :=
  Table.find?_upsert ..

theorem later_upsertPermission (values : PermissionRow) : Later db (db.upsertPermission values) := by
  refine { Later.refl db with permissions := fun subject r hr => ?_ }
  rw [find?_upsertPermission, hr]
  split
  · exact ⟨_, rfl, rfl, rfl⟩
  · exact ⟨r, rfl, rfl, rfl⟩

theorem later_insertDecision (row : DecisionRow) : Later db (db.insertDecision row) :=
  { Later.refl db with decisions := fun _ => Table.mem_insert_of_mem }

theorem later_insertInvocation (row : InvocationRow) : Later db (db.insertInvocation row) :=
  { Later.refl db with invocations := fun _ => Table.mem_insert_of_mem }

theorem later_appendAudit (record : Record) : Later db (db.appendAudit record) :=
  { Later.refl db with audits := List.prefix_append _ _ }

end Growth

/-! ## What the locks protect -/

/-- The row with the key, and whether a permission has the id. The keys of names, and the second
    key of decisions, protect nothing that is needed here. -/
def same : Lock → Db → Db → Prop
  | .tenant k, db, db' => db'.tenants.find? k = db.tenants.find? k
  | .agent k, db, db' => db'.agents.find? k = db.agents.find? k
  | .model k, db, db' => db'.models.find? k = db.models.find? k
  | .permission k, db, db' => db'.permissions.find? k = db.permissions.find? k
  | .permissionId k, db, db' => (∀ r ∈ db.permissions, r.id ≠ k) → ∀ r ∈ db'.permissions, r.id ≠ k
  | .decision k, db, db' => db'.decisions.find? k = db.decisions.find? k
  | .invocation k, db, db' => db'.invocations.find? k = db.invocations.find? k
  | _, _, _ => True

theorem same_refl (l : Lock) (db : Db) : same l db db := by
  cases l <;> simp [same]

theorem same_trans (l : Lock) (a b c : Db) (h : same l a b) (h' : same l b c) : same l a c := by
  cases l with
  | permissionId k => exact fun hfree => h' (h hfree)
  | _ => simp_all [same]

def discipline : Discipline Db Lock := ⟨same, fun _ _ _ => True, Later⟩

theorem lawful : Lawful discipline :=
  ⟨same_refl, same_trans, fun _ _ => trivial, fun _ _ _ _ _ _ => trivial, .refl, fun _ _ _ => .trans⟩

section Same

variable {l : Lock} {db : Db}

theorem same_insertTenant {row : TenantRow} (h : l ≠ .tenant row.id) :
    same l db (db.insertTenant row) := by
  cases l with
  | tenant k => exact Table.find?_insert_of_ne fun (he : row.id = k) => h (by rw [he])
  | _ => first | rfl | trivial | exact id

theorem same_insertAgent {row : AgentRow} (h : l ≠ .agent row.id) :
    same l db (db.insertAgent row) := by
  cases l with
  | agent k => exact Table.find?_insert_of_ne fun (he : row.id = k) => h (by rw [he])
  | _ => first | rfl | trivial | exact id

theorem same_insertModel {row : ModelRow} (h : l ≠ .model row.id) :
    same l db (db.insertModel row) := by
  cases l with
  | model k => exact Table.find?_insert_of_ne fun (he : row.id = k) => h (by rw [he])
  | _ => first | rfl | trivial | exact id

theorem same_insertPermission {row : PermissionRow} (h : l ≠ .permission row.subject)
    (hid : l ≠ .permissionId row.id) : same l db (db.insertPermission row) := by
  cases l with
  | permission k => exact Table.find?_insert_of_ne fun (he : row.subject = k) => h (by rw [he])
  | permissionId k =>
    intro hfresh r hr
    obtain hr | ⟨rfl, _⟩ := Table.mem_insert.mp hr
    · exact hfresh r hr
    · exact fun he => hid (by rw [he])
  | _ => first | rfl | trivial

theorem same_updatePermission {values : PermissionRow} (h : l ≠ .permission values.subject) :
    same l db (db.updatePermission values) := by
  cases l with
  | permission k =>
    exact Table.find?_modify_of_ne (f := fun row : PermissionRow => row.set values) (fun _ => rfl)
      fun (he : k = values.subject) => h (by rw [he])
  | permissionId k =>
    intro hfresh r hr
    obtain ⟨r', hr', rfl⟩ :=
      (Table.mem_modify (f := fun row : PermissionRow => row.set values) fun _ => rfl).mp hr
    have hsame : (if Keyed.key r' = values.subject then r'.set values else r').id = r'.id := by
      split <;> rfl
    rw [hsame]
    exact hfresh r' hr'
  | _ => first | rfl | trivial

theorem same_insertDecision {row : DecisionRow} (h : l ≠ .decision row.id) :
    same l db (db.insertDecision row) := by
  cases l with
  | decision k => exact Table.find?_insert_of_ne fun (he : row.id = k) => h (by rw [he])
  | _ => first | rfl | trivial | exact id

theorem same_insertInvocation {row : InvocationRow} (h : l ≠ .invocation row.id) :
    same l db (db.insertInvocation row) := by
  cases l with
  | invocation k => exact Table.find?_insert_of_ne fun (he : row.id = k) => h (by rw [he])
  | _ => first | rfl | trivial | exact id

end Same

/-! ### The rows that are written -/

theorem ofTenant_ok {t : Tenant} {row : TenantRow} (h : TenantRow.ofTenant t = .ok row) :
    row.id = t.id := by
  obtain ⟨_, _, h⟩ := Except.bind_ok_cases h
  obtain ⟨_, _, h⟩ := Except.bind_ok_cases h
  obtain ⟨_, _, h⟩ := Except.bind_ok_cases h
  cases h
  rfl

theorem ofAgent_ok {a : Agent} {row : AgentRow} (h : AgentRow.ofAgent a = .ok row) :
    row.id = a.id ∧ row.tenantId = a.tenantId := by
  obtain ⟨_, _, h⟩ := Except.bind_ok_cases h
  obtain ⟨_, _, h⟩ := Except.bind_ok_cases h
  obtain ⟨_, _, h⟩ := Except.bind_ok_cases h
  cases h
  exact ⟨rfl, rfl⟩

theorem ofModel_ok {m : Model} {row : ModelRow} (h : ModelRow.ofModel m = .ok row) :
    row.id = m.id ∧ row.tenantId = m.tenantId := by
  obtain ⟨_, _, h⟩ := Except.bind_ok_cases h
  obtain ⟨_, _, h⟩ := Except.bind_ok_cases h
  obtain ⟨_, _, h⟩ := Except.bind_ok_cases h
  obtain ⟨_, _, h⟩ := Except.bind_ok_cases h
  obtain ⟨_, _, h⟩ := Except.bind_ok_cases h
  cases h
  exact ⟨rfl, rfl⟩

theorem ofPermission_ok {p : AgentModelPermission} {row : PermissionRow}
    (h : PermissionRow.ofPermission p = .ok row) : row.id = p.id ∧ row.subject = p.subject := by
  obtain ⟨_, _, h⟩ := Except.bind_ok_cases h
  obtain ⟨_, _, h⟩ := Except.bind_ok_cases h
  cases h
  exact ⟨rfl, rfl⟩

theorem ofDecision_ok {d : PolicyDecision} {row : DecisionRow}
    (h : DecisionRow.ofDecision d = .ok row) :
    row.id = d.id ∧ row.invocationId = d.invocationId ∧ row.subject = d.subject ∧
      row.permissionId = d.permissionId ∧ row.effect = d.effect := by
  obtain ⟨_, _, h⟩ := Except.bind_ok_cases h
  cases h
  exact ⟨rfl, rfl, rfl, rfl, rfl⟩

/-- The columns that are taken over as they are. -/
theorem ofInvocation_ok {i : Invocation} {row : InvocationRow}
    (h : InvocationRow.ofInvocation i = .ok row) :
    row.id = i.id ∧ row.tenantId = i.tenantId ∧ row.agentId = i.agentId ∧ row.modelId = i.modelId ∧
      row.status = i.status.value ∧ row.startedAt = i.startedAt ∧
      row.policyDecisionId = some i.policyDecisionId := by
  unfold InvocationRow.ofInvocation at h
  iterate 22 obtain ⟨_, _, h⟩ := Except.bind_ok_cases h
  cases h
  exact ⟨rfl, rfl, rfl, rfl, rfl, rfl, rfl⟩

/-- The upsert changes the row of its subject, or inserts it under an id that is free. -/
theorem permissionsSet_ok {p effective : AgentModelPermission} {db : Db} {g : Db → Db}
    (h : db.permissionsSet p = .ok (effective, g)) :
    ∃ values, PermissionRow.ofPermission p = .ok values ∧
      permissionFromRow ((db.permissions.find? p.subject).elim values (·.set values)) =
        .ok effective ∧
      ((∃ row, db.permissions.find? p.subject = some row ∧ g = fun db => db.updatePermission values) ∨
        (db.permissions.find? p.subject = none ∧ (∀ r ∈ db.permissions, r.id ≠ p.id) ∧
          g = fun db => db.insertPermission values)) := by
  unfold Db.permissionsSet at h
  obtain ⟨values, hvalues, h⟩ := Except.bind_ok_cases h
  have hmap : ∀ {row : PermissionRow}, ((permissionFromRow row).mapError fun e =>
      Error.valueError e.message) = .ok effective → permissionFromRow row = .ok effective := by
    intro row hrow
    cases hp : permissionFromRow row with
    | ok q => rw [hp] at hrow; cases hrow; rfl
    | error e => rw [hp] at hrow; cases hrow
  refine ⟨values, column_ok hvalues, ?_⟩
  split at h
  · next row hrow =>
    obtain ⟨permission, hp, h⟩ := Except.bind_ok_cases h
    cases h
    rw [hrow]
    exact ⟨hmap hp, .inl ⟨row, rfl, rfl⟩⟩
  · next hrow =>
    obtain ⟨_, hid, h⟩ := Except.bind_ok_cases h
    obtain ⟨_, _, h⟩ := Except.bind_ok_cases h
    obtain ⟨_, _, h⟩ := Except.bind_ok_cases h
    obtain ⟨_, _, h⟩ := Except.bind_ok_cases h
    obtain ⟨permission, hp, h⟩ := Except.bind_ok_cases h
    cases h
    rw [hrow]
    exact ⟨hmap hp, .inr ⟨rfl, constraint_ok hid, rfl⟩⟩

theorem updatePermission_eq {db : Db} {values row : PermissionRow}
    (h : db.permissions.find? values.subject = some row) :
    db.updatePermission values = db.upsertPermission values := by
  have hsome : (db.permissions.find? (Keyed.key values)).isSome = true := by
    rw [show db.permissions.find? (Keyed.key values) = some row from h]
    rfl
  exact (congrArg (fun t => { db with permissions := t }) (if_pos hsome)).symm

theorem insertPermission_eq {db : Db} {values : PermissionRow}
    (h : db.permissions.find? values.subject = none) :
    db.insertPermission values = db.upsertPermission values := by
  have hnone : ¬(db.permissions.find? (Keyed.key values)).isSome = true := by
    rw [show db.permissions.find? (Keyed.key values) = none from h]
    exact Bool.false_ne_true
  exact (congrArg (fun t => { db with permissions := t }) (if_neg hnone)).symm

theorem mem_permissionLocks_of_none {p : AgentModelPermission} {db : Db}
    (h : db.permissions.find? p.subject = none) : .permissionId p.id ∈ db.permissionLocks p := by
  rw [Db.permissionLocks, h]
  exact List.mem_cons_of_mem _ (List.mem_singleton_self _)

theorem mem_permissionLocks {p : AgentModelPermission} {db : Db} :
    .permission p.subject ∈ db.permissionLocks p := by
  unfold Db.permissionLocks
  split <;> exact List.mem_cons_self ..

/-- Every statement changes only rows whose keys it locks. -/
theorem stmt_within (ch : Choice) (q : Sql) : (stmt ch q).Within same := by
  cases q with
  | tenantsAdd t =>
    intro seen db a f h l hl d
    obtain ⟨row, hrow, h⟩ := Except.bind_ok_cases h
    obtain ⟨_, _, h⟩ := Except.bind_ok_cases h
    obtain ⟨_, _, h⟩ := Except.bind_ok_cases h
    cases h
    have hid := ofTenant_ok (column_ok hrow)
    exact same_insertTenant fun he => hl (by rw [he, hid]; exact List.mem_cons_self ..)
  | agentsAdd a =>
    intro seen db x f h l hl d
    obtain ⟨row, hrow, h⟩ := Except.bind_ok_cases h
    obtain ⟨_, _, h⟩ := Except.bind_ok_cases h
    obtain ⟨_, _, h⟩ := Except.bind_ok_cases h
    obtain ⟨_, _, h⟩ := Except.bind_ok_cases h
    cases h
    have hid := (ofAgent_ok (column_ok hrow)).1
    exact same_insertAgent fun he => hl (by rw [he, hid]; exact List.mem_cons_self ..)
  | modelsAdd m =>
    intro seen db x f h l hl d
    obtain ⟨row, hrow, h⟩ := Except.bind_ok_cases h
    obtain ⟨_, _, h⟩ := Except.bind_ok_cases h
    obtain ⟨_, _, h⟩ := Except.bind_ok_cases h
    obtain ⟨_, _, h⟩ := Except.bind_ok_cases h
    cases h
    have hid := (ofModel_ok (column_ok hrow)).1
    exact same_insertModel fun he => hl (by rw [he, hid]; exact List.mem_cons_self ..)
  | permissionsSet p =>
    intro seen db x f h l hl d
    obtain ⟨values, hvalues, _, hg⟩ := permissionsSet_ok h
    obtain ⟨hid, hsubject⟩ := ofPermission_ok hvalues
    have hkey : l ≠ .permission values.subject := fun he => hl (by
      rw [he, hsubject]
      exact mem_permissionLocks)
    obtain ⟨row, hrow, rfl⟩ | ⟨hrow, _, rfl⟩ := hg
    · exact same_updatePermission hkey
    · exact same_insertPermission hkey fun he => hl (by
        rw [he, hid]
        exact mem_permissionLocks_of_none hrow)
  | decisionsAdd x =>
    intro seen db a f h l hl d
    obtain ⟨row, hrow, h⟩ := Except.bind_ok_cases h
    obtain ⟨_, _, h⟩ := Except.bind_ok_cases h
    obtain ⟨_, _, h⟩ := Except.bind_ok_cases h
    obtain ⟨_, _, h⟩ := Except.bind_ok_cases h
    obtain ⟨_, _, h⟩ := Except.bind_ok_cases h
    cases h
    have hid := (ofDecision_ok (column_ok hrow)).1
    exact same_insertDecision fun he => hl (by rw [he, hid]; exact List.mem_cons_self ..)
  | invocationsAdd i =>
    intro seen db a f h l hl d
    obtain ⟨row, hrow, h⟩ := Except.bind_ok_cases h
    iterate 6 obtain ⟨_, _, h⟩ := Except.bind_ok_cases h
    cases h
    have hid := (ofInvocation_ok (column_ok hrow)).1
    exact same_insertInvocation fun he => hl (by rw [he, hid]; exact List.mem_cons_self ..)
  | auditsAppend record =>
    intro seen db a f h l _ d
    cases h
    cases l <;> first | rfl | trivial | exact id
  | _ => trivial

/-! ## Commits -/

/-- The operation leaves the database as its transaction sees it. -/
def reads : Op Sql → Bool
  | .sql (.tenantsAdd _) | .sql (.agentsAdd _) | .sql (.modelsAdd _) | .sql (.permissionsSet _)
  | .sql (.decisionsAdd _) | .sql (.invocationsAdd _) | .sql (.auditsAppend _) => false
  | .sql _ => true
  | .rollback => true
  | .begin | .commit => false

theorem neutral_rollback (i : Tid) : database.Neutral i .rollback := by
  intro ch w r w' h _ f hf
  obtain ⟨_, rfl⟩ := exec_rollback h
  simp [Txn.idle] at hf

theorem neutral_of_reads {op : Op Sql} (i : Tid) (h : reads op = true) : database.Neutral i op := by
  cases op with
  | sql q =>
    cases q with
    | tenantsAdd t => cases h
    | agentsAdd a => cases h
    | modelsAdd m => cases h
    | permissionsSet p => cases h
    | decisionsAdd d => cases h
    | invocationsAdd x => cases h
    | auditsAppend record => cases h
    | tenantExists k => exact neutral_query fun _ => rfl
    | getAgent k => exact neutral_query fun _ => rfl
    | getModel k => exact neutral_query fun _ => rfl
    | getEffective subject => exact neutral_query fun _ => rfl
    | consumedTotalUnits p start stop => exact neutral_query fun _ => rfl
    | attributedCost k start stop => exact neutral_query fun _ => rfl
    | clock => exact neutral_query fun _ => rfl
    | invoke m t => exact neutral_query fun _ => rfl
  | rollback => exact neutral_rollback i
  | begin => cases h
  | commit => cases h

/-- Tenant, Agent and Model exist and belong together. -/
structure Admitted (subject : Subject) (db : Db) : Prop where
  tenant : db.tenants.find? subject.tenantId ≠ none
  agent : ∃ a ∈ db.agents, a.id = subject.agentId ∧ a.tenantId = subject.tenantId
  model : ∃ m ∈ db.models, m.id = subject.modelId ∧ m.tenantId = subject.tenantId

/-- What a request for an Invocation is about. -/
def subjectOf (command : CreateInvocationCommand) : Subject :=
  ⟨command.tenantId, command.agentId, command.modelId⟩

/-- The decision of the request is stored. -/
def Decided (invocationId : Uuid) (subject : Subject) (decision : RuntimePolicyDecision) (db : Db) :
    Prop :=
  ∃ row ∈ db.decisions, row.id = decision.id ∧ row.invocationId = invocationId ∧
    row.subject = subject ∧ row.permissionId = decision.permissionId ∧
    row.effect.value = decision.effect

section Conclusions

variable (settings : RuntimeSettings) (command : CreateInvocationCommand) (c : Invocation.Common)
  (evs : List Event)

/-- The usage limit decided `d` on the ledger that was read. -/
structure UsageDecided (window : UsageWindow) (d : UsageLimitDecision) : Prop where
  day : utcDayWindow c.startedAt = .ok window
  decided : ∃ consumed,
    ⟨.sql (.consumedTotalUnits c.runtimePrincipalId window.start window.end), .ok consumed⟩ ∈ evs ∧
    decideUsageLimit consumed command.usageLimit command.perInvocationAllowance window = .ok d

/-- The budget of the tenant decided `d` on the ledger that was read. -/
structure CostDecided (window : UsageWindow) (d : TenantCostBudgetDecision) : Prop where
  decided : ∃ budget cost, resolveBudget settings.budgets c.tenantId = some budget ∧
    ⟨.sql (.attributedCost c.tenantId window.start window.end), .ok cost⟩ ∈ evs ∧
    decideTenantCostBudget cost budget window = .ok d

/-- Both limits allow the call of the provider. -/
def Allowed : Prop :=
  ∃ window d d', UsageDecided command c evs window d ∧ d.allowed = true ∧
    CostDecided settings c evs window d' ∧ d'.allowed = true

/-- The Invocation that a request concludes with, given the effect of its decision. -/
inductive Concluded (effect : String) : Invocation → Prop
  | denied {i} (denied : effect ≠ "allow") (hi : Invocation.denied c = .ok i) : Concluded effect i
  | limited {window d i} (allowed : effect = "allow") (usage : UsageDecided command c evs window d)
      (exceeded : d.allowed = false)
      (hi : Invocation.limited c d.consumedUnits d.limitUnits d.allowanceUnits d.window = .ok i) :
      Concluded effect i
  | costLimited {window d d' i} (allowed : effect = "allow")
      (usage : UsageDecided command c evs window d) (within : d.allowed = true)
      (cost : CostDecided settings c evs window d') (exceeded : d'.allowed = false)
      (hi : Invocation.costLimited c d'.attributedCost d'.budget d'.allowance window = .ok i) :
      Concluded effect i
  | failed {reference i} (allowed : effect = "allow") (within : Allowed settings command c evs)
      (called : ⟨.sql (.invoke reference c.inputText), .error .providerTransportError⟩ ∈ evs)
      (hi : Invocation.failed c = .ok i) : Concluded effect i
  | succeeded {model : ModelRuntimeReference} {result cost i} (allowed : effect = "allow")
      (within : Allowed settings command c evs)
      (called : ⟨.sql (.invoke model.providerModelReference c.inputText), .ok result⟩ ∈ evs)
      (attributed : attributeCost result.usage
        (resolvePricing settings.pricing model.provider model.providerModelReference) = .ok cost)
      (hi : Invocation.succeeded c result.outputText result.usage result.providerResponseId cost =
        .ok i) : Concluded effect i

end Conclusions

/-- What the transaction of a request commits, after the events `evs`, on the database. -/
inductive Commit (s : Service) : Request → List Event → Db → Db → Prop
  | createTenant {env name evs db tenant row}
      (made : Tenant.create s.casefold env.id name (.aware env.createdAt) = .ok tenant)
      (hrow : TenantRow.ofTenant tenant = .ok row) :
      Commit s (.createTenant env name) evs db (db.insertTenant row)
  | registerAgent {env command evs db agent row}
      (made : Agent.register s.casefold env.id command.tenantId command.name (.aware env.createdAt) =
        .ok agent)
      (hrow : AgentRow.ofAgent agent = .ok row) (tenant : db.tenants.find? command.tenantId ≠ none) :
      Commit s (.registerAgent env command) evs db (db.insertAgent row)
  | registerModel {env command evs db model row}
      (made : Model.register s.casefold env.id command.tenantId command.name command.provider
        command.providerModelReference (.aware env.createdAt) = .ok model)
      (hrow : ModelRow.ofModel model = .ok row) (tenant : db.tenants.find? command.tenantId ≠ none) :
      Commit s (.registerModel env command) evs db (db.insertModel row)
  | setPermission {env principalId subject effect evs db before} {now : Utc}
      {previous proposed effective record}
      (events : evs = before ++ [⟨.sql .clock, .ok now⟩, ⟨.sql (.getEffective subject), .ok previous⟩,
        ⟨.sql (.permissionsSet proposed), .ok effective⟩, ⟨.sql (.auditsAppend record), .ok ()⟩])
      (reading : ∀ e ∈ before, reads e.op = true)
      (found : ∀ p ∈ previous, p.subject = subject)
      (made : AgentModelPermission.new env.permissionId subject.tenantId subject.agentId
        subject.modelId effect (.aware now) (.aware now) = .ok proposed)
      (admitted : Admitted subject db)
      (fresh : db.permissions.find? subject = none → ∀ r ∈ db.permissions, r.id ≠ env.permissionId)
      (stored : permissionFromRow ((db.permissions.find? subject).elim
        ⟨env.permissionId, subject, effect, now, now⟩
        (·.set ⟨env.permissionId, subject, effect, now, now⟩)) = .ok effective)
      (recorded : permissionRecord s.sha256 env principalId.str now previous effective = .ok record) :
      Commit s (.setPermission env principalId subject effect) evs db
        ((db.upsertPermission ⟨env.permissionId, subject, effect, now, now⟩).appendAudit record)
  | decide {env decisionEnv command evs db before permission decision row}
      (events : evs = before ++ [⟨.sql (.getEffective (subjectOf command)), .ok permission⟩,
        ⟨.sql (.decisionsAdd decision), .ok ()⟩])
      (reading : ∀ e ∈ before, reads e.op = true) (admitted : Admitted (subjectOf command) db)
      (made : PolicyDecision.ofPermission decisionEnv.decisionId env.invocationId (subjectOf command)
        permission (.aware decisionEnv.decidedAt) = .ok decision)
      (hrow : DecisionRow.ofDecision decision = .ok row)
      (fresh : db.decisions.find? decisionEnv.decisionId = none) :
      Commit s (.createInvocation env decisionEnv command) evs db (db.insertDecision row)
  | conclude {env decisionEnv command evs db inputText decision invocation row}
      (input : validatedInput command.inputText = .ok inputText)
      (admitted : Admitted (subjectOf command) db)
      (decided : Decided env.invocationId (subjectOf command) decision db)
      (id : decision.id = decisionEnv.decisionId) (second : ⟨.commit, .ok ()⟩ ∈ evs)
      (concluded : Concluded s.settings command (commonOf env command inputText decision) evs
        decision.effect invocation)
      (hrow : InvocationRow.ofInvocation invocation = .ok row) (checks : row.checks = .ok ())
      (fresh : db.invocations.find? env.invocationId = none) :
      Commit s (.createInvocation env decisionEnv command) evs db (db.insertInvocation row)

theorem Commit.later {s : Service} {r : Request} {evs : List Event} {db db' : Db}
    (h : Commit s r evs db db') : Later db db' := by
  cases h with
  | createTenant => exact later_insertTenant _
  | registerAgent => exact later_insertAgent _
  | registerModel => exact later_insertModel _
  | setPermission => exact (later_upsertPermission _).trans (later_appendAudit _)
  | decide => exact later_insertDecision _
  | conclude => exact later_insertInvocation _

/-- What the commits of thread `i` are, for the request `r`. -/
def Commits (s : Service) (r : Request) (i : Tid) (v : Traced Db Lock Sql Sql.Res Error) : Prop :=
  Commit s r (own i v.2) v.1.db (v.1.view i)

theorem Commits.disciplined {s : Service} {r : Request} {i : Tid}
    {v : Traced Db Lock Sql Sql.Res Error} (h : Commits s r i v) : Disciplined discipline i v.1 :=
  ⟨h.later, fun _ _ => trivial⟩

/-- When the provider is called, a decision to allow that is stored. -/
def Promise (r : Request) : Op Sql → Traced Db Lock Sql Sql.Res Error → Prop
  | .sql (.invoke _ _), v =>
      match r with
      | .createInvocation env decisionEnv command => ∃ decision : RuntimePolicyDecision,
          decision.id = decisionEnv.decisionId ∧ decision.effect = "allow" ∧
          Decided env.invocationId (subjectOf command) decision v.1.db
      | _ => False
  | _, _ => True

section Parts

variable {s : Service} {r : Request} {db₀ : Db} {i : Tid} {v : Traced Db Lock Sql Sql.Res Error}
  {evs : List Event} {ws : List (Db → Db)} {ls : List Lock} {F : Db → Prop} {α β : Type}

/-- Thread `i` runs `p`, a part of the request `r`. -/
abbrev Acts (s : Service) (r : Request) (db₀ : Db) (i : Tid) (p : Program α)
    (v : Traced Db Lock Sql Sql.Res Error) : Prop :=
  Follows database discipline db₀ (Commits s r i) (Promise r) i (fun _ _ _ => True) p v

theorem acts_ret {a : α} : Acts s r db₀ i (.ret a) v := safe_ret.mpr trivial

theorem acts_raise {e : Error} : Acts s r db₀ i (.raise e : Program α) v := safe_raise.mpr trivial

theorem acts_raiseWhen {c : Prop} [Decidable c] {e : Error} {k : Unit → Program α}
    (hk : ¬c → Acts s r db₀ i (k ()) v) : Acts s r db₀ i ((raiseWhen c e).bind k) v :=
  safe_raiseWhen (fun _ _ => trivial) hk

theorem acts_lift {ε : Type} {g : ε → Error} {x : Except ε β} {k : β → Program α}
    (hk : ∀ b, x = .ok b → Acts s r db₀ i (k b) v) : Acts s r db₀ i ((lift g x).bind k) v :=
  safe_lift (fun _ _ => trivial) hk

theorem acts_orMissing {x : Option β} {e : Error} {k : β → Program α}
    (hk : ∀ b, x = some b → Acts s r db₀ i (k b) v) :
    Acts s r db₀ i ((orMissing x e).bind k) v := by
  cases x with
  | none => exact acts_raise
  | some b => exact hk b rfl

/-- A statement that only reads, where nothing is written. -/
theorem acts_query {q : Sql} {f : Choice → Db → Except Error q.Res} {k : q.Res → Program α}
    (hq : ∀ ch, stmt ch q = .query (f ch)) (hF : Lasting discipline ls F) (h : Knows i evs [] ls F v)
    (hB : ∀ v, Knows i evs [] ls F v → Promise r (.sql q) v)
    (hk : ∀ v a ch, Knows i (evs ++ [⟨.sql q, .ok a⟩]) [] ls F v → f ch v.1.db = .ok a →
      Acts s r db₀ i (k a) v) : Acts s r db₀ i ((execute q).bind k) v :=
  follows_query hq hF h hB (fun _ _ _ _ _ => trivial) fun v a ch h _ ha => hk v a ch h ha

/-- A session of its own: `G` is what its answer says of the database, now and later. -/
theorem acts_session {q : Sql} {f : Choice → Db → Except Error q.Res} {G : q.Res → Db → Prop}
    {k : q.Res → Program α} (hq : ∀ ch, stmt ch q = .query (f ch))
    (hB : ∀ v, Promise r (.sql q) v) (hG : ∀ ch d a, f ch d = .ok a → G a d)
    (hlasting : ∀ a, Lasting discipline [] (G a)) (hF : Lasting discipline [] F)
    (h : Knows i evs [] [] F v)
    (hk : ∀ v a, Knows i (evs ++ [⟨.sql q, .ok a⟩, ⟨.rollback, .ok ()⟩]) [] [] (fun d => F d ∧ G a d) v →
      Acts s r db₀ i (k a) v) : Acts s r db₀ i ((session q).bind k) v := by
  let P' : Except Error q.Res → List Event → Db → Prop := fun outcome evs' d =>
    match outcome with
    | .ok a => evs' = evs ++ [⟨.sql q, .ok a⟩] ∧ F d ∧ G a d
    | .error _ => True
  have hgrows : ∀ outcome evs' d d', P' outcome evs' d → Later d d' → P' outcome evs' d' := by
    intro outcome evs' d d' hP hgrows
    cases outcome with
    | error e => trivial
    | ok a =>
      obtain ⟨hevs, hf, hg⟩ := hP
      exact ⟨hevs, hF d d' hf hgrows (by simp) (by simp), hlasting a d d' hg hgrows (by simp) (by simp)⟩
  refine follows_transaction (W := P') (fun _ _ _ => trivial) hgrows (fun _ _ _ _ => trivial)
    (fun a evs' v hv _ => ?_) ?_
  · obtain ⟨hevs, hfact⟩ := hv.fact
    rw [hevs, List.append_assoc] at hv
    exact hk v a (hv.mono fun _ => hfact)
  · rw [← bind_ret (execute q)]
    refine follows_query hq hF h (fun v _ => hB v) (fun _ _ _ _ _ => trivial) fun v a ch hv _ ha =>
      safe_ret.mpr ⟨hv.own, hv.fact, hG ch _ a ha⟩

theorem acts_unitOfWork {body : Program α} (h : Acts s r db₀ i body v) :
    Acts s r db₀ i (unitOfWork body) v :=
  follows_unitOfWork (fun _ _ _ => trivial) (fun _ _ _ _ => trivial) (fun _ _ _ _ _ _ => trivial) h

theorem acts_map {p : Program α} {f : α → β} (h : Acts s r db₀ i p v) : Acts s r db₀ i (f <$> p) v :=
  follows_map (fun _ _ _ _ => trivial) (fun _ _ _ _ => trivial) h

/-- The commit at the end of a Unit of Work. -/
theorem acts_commit {b : α} (hF : Lasting discipline ls F) (h : Knows i evs ws ls F v)
    (hcommit : ∀ db, F db → Commit s r evs db (ws.foldl (fun d f => f d) db)) :
    Acts s r db₀ i (commit.bind fun _ => .ret b) v := by
  refine follows_commit hF h (fun _ _ => trivial) (fun _ _ _ => trivial) (fun v h _ => ?_)
    fun _ _ => trivial
  show Commit s r (own i v.2) v.1.db (v.1.view i)
  rw [h.own, h.view]
  exact hcommit v.1.db h.fact

end Parts

/-! ### What lasts -/

theorem Later.tenant {db db' : Db} (h : Later db db') {tenantId : Uuid}
    (hfound : db.tenants.find? tenantId ≠ none) : db'.tenants.find? tenantId ≠ none := by
  obtain ⟨row, hrow⟩ := Option.ne_none_iff_exists'.mp hfound
  obtain ⟨hmem, rfl⟩ := Table.find?_some hrow
  rw [Table.mem_iff_find?.mp (h.tenants row hmem)]
  exact Option.some_ne_none row

theorem lasting_tenant (tenantId : Uuid) {ls : List Lock} : Lasting discipline ls fun db =>
    db.tenants.find? tenantId ≠ none :=
  lasting_of_grows fun _ _ h hgrows => hgrows.tenant h

theorem lasting_imp {ls : List Lock} {c : Prop} {F : Db → Prop} (hF : Lasting discipline ls F) :
    Lasting discipline ls fun db => c → F db :=
  fun d d' h hgrows hs ht hc => hF d d' (h hc) hgrows hs ht

theorem lasting_agent (agentId tenantId : Uuid) {ls : List Lock} : Lasting discipline ls fun db =>
    ∃ a ∈ db.agents, a.id = agentId ∧ a.tenantId = tenantId :=
  lasting_of_grows fun _ _ ⟨a, ha, h⟩ hgrows => ⟨a, hgrows.agents a ha, h⟩

theorem lasting_model (modelId tenantId : Uuid) {ls : List Lock} : Lasting discipline ls fun db =>
    ∃ m ∈ db.models, m.id = modelId ∧ m.tenantId = tenantId :=
  lasting_of_grows fun _ _ ⟨m, hm, h⟩ hgrows => ⟨m, hgrows.models m hm, h⟩

theorem Admitted.later {subject : Subject} {db db' : Db} (h : Admitted subject db)
    (hlater : Later db db') : Admitted subject db' := by
  obtain ⟨a, ha, hagent⟩ := h.agent
  obtain ⟨m, hm, hmodel⟩ := h.model
  exact ⟨hlater.tenant h.tenant, ⟨a, hlater.agents a ha, hagent⟩, m, hlater.models m hm, hmodel⟩

theorem lasting_admitted (subject : Subject) {ls : List Lock} :
    Lasting discipline ls (Admitted subject) :=
  lasting_of_grows fun _ _ h hgrows => h.later hgrows

theorem lasting_decided (invocationId : Uuid) (subject : Subject) (decision : RuntimePolicyDecision)
    {ls : List Lock} : Lasting discipline ls (Decided invocationId subject decision) :=
  lasting_of_grows fun _ _ ⟨row, hrow, h⟩ hgrows => ⟨row, hgrows.decisions row hrow, h⟩

/-! ### Admission -/

section Admission

variable {s : Service} {r : Request} {db₀ : Db} {i : Tid} {v : Traced Db Lock Sql Sql.Res Error}
  {evs : List Event} {F : Db → Prop} {α : Type} {e : Error}

theorem acts_tenantExists {tenantId : Uuid} {k : Unit → Program α} (hF : Lasting discipline [] F)
    (h : Knows i evs [] [] F v)
    (hk : ∀ v, Knows i (evs ++ [⟨.sql (.tenantExists tenantId), .ok true⟩, ⟨.rollback, .ok ()⟩]) [] []
      (fun db => F db ∧ db.tenants.find? tenantId ≠ none) v → Acts s r db₀ i (k ()) v) :
    Acts s r db₀ i ((session (.tenantExists tenantId)).bind fun found =>
      (raiseWhen (¬found) e).bind k) v := by
  refine acts_session (G := fun found db => found = true → db.tenants.find? tenantId ≠ none)
    (fun _ => rfl) (fun _ => trivial) ?_ (fun _ => lasting_imp (lasting_tenant tenantId)) hF h ?_
  · intro ch d found hanswer htrue
    cases hanswer
    exact Option.isSome_iff_ne_none.mp htrue
  · intro v found h
    refine acts_raiseWhen fun hfound => ?_
    have htrue : found = true := by simpa using hfound
    subst htrue
    exact hk v (h.mono fun hf => ⟨hf.1, hf.2 rfl⟩)

theorem acts_getAgent {agentId tenantId : Uuid} {k : AgentRuntimeIdentity → Program α}
    (hF : Lasting discipline [] F) (h : Knows i evs [] [] F v)
    (hk : ∀ v found agent, Knows i (evs ++ [⟨.sql (.getAgent agentId), .ok found⟩,
        ⟨.rollback, .ok ()⟩]) [] []
      (fun db => F db ∧ ∃ a ∈ db.agents, a.id = agentId ∧ a.tenantId = tenantId) v →
      Acts s r db₀ i (k agent) v) :
    Acts s r db₀ i ((session (.getAgent agentId)).bind fun found =>
      (orMissing (found.filter (·.tenantId = tenantId)) e).bind k) v := by
  refine acts_session (G := fun found db => ∀ agent ∈ found, ∃ a ∈ db.agents,
    a.id = agentId ∧ a.tenantId = agent.tenantId) (fun _ => rfl) (fun _ => trivial) ?_ ?_ hF h ?_
  · intro ch d found hanswer agent hagent
    cases hanswer
    obtain ⟨row, hrow, rfl⟩ := Option.map_eq_some_iff.mp hagent
    obtain ⟨hmem, hkey⟩ := Table.find?_some hrow
    exact ⟨row, hmem, hkey, rfl⟩
  · intro found d d' hG hgrows hs ht agent hagent
    exact lasting_agent _ _ d d' (hG agent hagent) hgrows hs ht
  · intro v found h
    refine acts_orMissing fun agent hagent => hk v found agent (h.mono fun hf => ⟨hf.1, ?_⟩)
    obtain ⟨hsome, htenant⟩ := Option.filter_eq_some_iff.mp hagent
    obtain ⟨a, ha, hid, htid⟩ := hf.2 agent hsome
    exact ⟨a, ha, hid, htid.trans (of_decide_eq_true htenant)⟩

theorem acts_getModel {modelId tenantId : Uuid} {k : ModelRuntimeReference → Program α}
    (hF : Lasting discipline [] F) (h : Knows i evs [] [] F v)
    (hk : ∀ v found model, Knows i (evs ++ [⟨.sql (.getModel modelId), .ok found⟩,
        ⟨.rollback, .ok ()⟩]) [] []
      (fun db => F db ∧ ∃ m ∈ db.models, m.id = modelId ∧ m.tenantId = tenantId) v →
      Acts s r db₀ i (k model) v) :
    Acts s r db₀ i ((session (.getModel modelId)).bind fun found =>
      (orMissing (found.filter (·.tenantId = tenantId)) e).bind k) v := by
  refine acts_session (G := fun found db => ∀ model ∈ found, ∃ m ∈ db.models,
    m.id = modelId ∧ m.tenantId = model.tenantId) (fun _ => rfl) (fun _ => trivial) ?_ ?_ hF h ?_
  · intro ch d found hanswer model hmodel
    cases hanswer
    obtain ⟨row, hrow, rfl⟩ := Option.map_eq_some_iff.mp hmodel
    obtain ⟨hmem, hkey⟩ := Table.find?_some hrow
    exact ⟨row, hmem, hkey, rfl⟩
  · intro found d d' hG hgrows hs ht model hmodel
    exact lasting_model _ _ d d' (hG model hmodel) hgrows hs ht
  · intro v found h
    refine acts_orMissing fun model hmodel => hk v found model (h.mono fun hf => ⟨hf.1, ?_⟩)
    obtain ⟨hsome, htenant⟩ := Option.filter_eq_some_iff.mp hmodel
    obtain ⟨m, hm, hid, htid⟩ := hf.2 model hsome
    exact ⟨m, hm, hid, htid.trans (of_decide_eq_true htenant)⟩

end Admission

/-! ### Tenants, Agents and Models -/

section Assets

variable {s : Service} {db₀ : Db} {i : Tid}

theorem createTenant_acts {env : AssetEnv} {name : String} :
    Acts s (.createTenant env name) db₀ i (createTenant s.casefold env name) (World.ofDb db₀, []) := by
  unfold createTenant
  refine acts_lift fun tenant hmade => acts_unitOfWork ?_
  refine follows_change (fun _ => rfl) lasting_true (knows_start db₀) (fun _ _ => trivial)
    (fun _ _ _ _ _ _ => trivial) fun v a g seen h _ ha => ?_
  obtain ⟨row, hrow, ha⟩ := Except.bind_ok_cases ha
  obtain ⟨_, _, ha⟩ := Except.bind_ok_cases ha
  obtain ⟨_, _, ha⟩ := Except.bind_ok_cases ha
  cases ha
  exact acts_commit lasting_true h fun db _ => .createTenant hmade (column_ok hrow)

theorem registerAgent_acts {env : AssetEnv} {command : RegisterAgentCommand} :
    Acts s (.registerAgent env command) db₀ i (registerAgent s.casefold env command)
      (World.ofDb db₀, []) := by
  unfold registerAgent
  refine acts_lift fun agent hmade => acts_tenantExists lasting_true (knows_start db₀) fun v h =>
    acts_unitOfWork ?_
  refine follows_change (fun _ => rfl) (lasting_true.and (lasting_tenant _)) h (fun _ _ => trivial)
    (fun _ _ _ _ _ _ => trivial) fun v a g seen h _ ha => ?_
  obtain ⟨row, hrow, ha⟩ := Except.bind_ok_cases ha
  obtain ⟨_, _, ha⟩ := Except.bind_ok_cases ha
  obtain ⟨_, _, ha⟩ := Except.bind_ok_cases ha
  obtain ⟨_, _, ha⟩ := Except.bind_ok_cases ha
  cases ha
  exact acts_commit (lasting_true.and (lasting_tenant _)) h fun db hf =>
    .registerAgent hmade (column_ok hrow) hf.2

theorem registerModel_acts {env : AssetEnv} {command : RegisterModelCommand} :
    Acts s (.registerModel env command) db₀ i (registerModel s.casefold env command)
      (World.ofDb db₀, []) := by
  unfold registerModel
  refine acts_lift fun model hmade => acts_tenantExists lasting_true (knows_start db₀) fun v h =>
    acts_unitOfWork ?_
  refine follows_change (fun _ => rfl) (lasting_true.and (lasting_tenant _)) h (fun _ _ => trivial)
    (fun _ _ _ _ _ _ => trivial) fun v a g seen h _ ha => ?_
  obtain ⟨row, hrow, ha⟩ := Except.bind_ok_cases ha
  obtain ⟨_, _, ha⟩ := Except.bind_ok_cases ha
  obtain ⟨_, _, ha⟩ := Except.bind_ok_cases ha
  obtain ⟨_, _, ha⟩ := Except.bind_ok_cases ha
  cases ha
  exact acts_commit (lasting_true.and (lasting_tenant _)) h fun db hf =>
    .registerModel hmade (column_ok hrow) hf.2

end Assets

/-! ### Permissions -/

section Permissions

variable {s : Service} {r : Request} {db₀ : Db} {i : Tid} {α : Type}

theorem acts_admitPermission {subject : Subject} {k : Unit → Program α}
    (hk : ∀ v before, (∀ e ∈ before, reads e.op = true) → Knows i before [] [] (Admitted subject) v →
      Acts s r db₀ i (k ()) v) :
    Acts s r db₀ i ((admitPermission subject).bind k) (World.ofDb db₀, []) := by
  simp only [admitPermission, bind_eq, bind_assoc]
  refine acts_tenantExists lasting_true (knows_start db₀) fun v h => ?_
  refine acts_getAgent (lasting_true.and (lasting_tenant _)) h fun v found agent h => ?_
  refine acts_getModel ((lasting_true.and (lasting_tenant _)).and (lasting_agent _ _)) h
    fun v found' model h => ?_
  refine hk v _ ?_ (h.mono fun hf => ⟨hf.1.1.2, hf.1.2, hf.2⟩)
  simp [reads]

theorem proposed_ok {id tenantId agentId modelId : Uuid} {effect : PolicyEffect} {now : Utc}
    {proposed : AgentModelPermission} (h : AgentModelPermission.new id tenantId agentId modelId effect
      (.aware now) (.aware now) = .ok proposed) :
    proposed.subject = ⟨tenantId, agentId, modelId⟩ ∧ PermissionRow.ofPermission proposed =
      .ok ⟨id, ⟨tenantId, agentId, modelId⟩, effect, now, now⟩ := by
  obtain ⟨c, hc, h⟩ := Except.bind_ok_cases h
  obtain ⟨u, hu, h⟩ := Except.bind_ok_cases h
  cases hc
  cases hu
  split at h
  · cases h
  · cases h
    refine ⟨rfl, ?_⟩
    simp only [PermissionRow.ofPermission, timestamptz_toAware]
    rfl

/-- The row of the subject is `found`, and if there is none the id is free. -/
structure Found (subject : Subject) (id : Uuid) (found : Option PermissionRow) (db : Db) : Prop where
  row : db.permissions.find? subject = found
  free : found = none → ∀ r ∈ db.permissions, r.id ≠ id

theorem lasting_found {subject : Subject} {id : Uuid} {found : Option PermissionRow} {ls : List Lock}
    (hrow : .permission subject ∈ ls) (hfree : found = none → .permissionId id ∈ ls) :
    Lasting discipline ls (Found subject id found) := by
  intro d d' h _ hsame _
  have hkeep : d'.permissions.find? subject = d.permissions.find? subject := hsame _ hrow
  exact ⟨hkeep.trans h.row, fun hnone => hsame _ (hfree hnone) (h.free hnone)⟩

theorem getEffective_subject {db : Db} {subject : Subject} {found : Option AgentModelPermission}
    (h : db.getEffective subject = .ok found) : ∀ p ∈ found, p.subject = subject := by
  unfold Db.getEffective at h
  split at h
  · cases h
    rintro _ ⟨⟩
  · next row hrow =>
    rintro p rfl
    have hsubject : row.subject = subject := (Table.find?_some hrow).2
    cases hp : permissionFromRow row with
    | error e => rw [hp] at h; cases h
    | ok q =>
      rw [hp] at h
      cases h
      obtain ⟨_, _, hp⟩ := Except.bind_ok_cases hp
      obtain ⟨_, _, hp⟩ := Except.bind_ok_cases hp
      split at hp
      · cases hp
      · cases hp
        exact hsubject

theorem setPermission_acts {env : PermissionEnv} {principalId : Uuid} {subject : Subject}
    {effect : PolicyEffect} :
    Acts s (.setPermission env principalId subject effect) db₀ i
      (setPermission s.sha256 env ⟨subject, effect, principalId.str⟩) (World.ofDb db₀, []) := by
  unfold setPermission
  simp only [bind_eq]
  refine acts_admitPermission fun v before hreading h => ?_
  refine acts_query (fun _ => rfl) (lasting_admitted _) h (fun _ _ => trivial) fun v now ch h _ => ?_
  refine acts_lift fun proposed hproposed => acts_unitOfWork ?_
  have hsubject : proposed.subject = subject := (proposed_ok hproposed).1
  have hvalues : PermissionRow.ofPermission proposed =
      .ok ⟨env.permissionId, subject, effect, now, now⟩ := (proposed_ok hproposed).2
  have hid : proposed.id = env.permissionId := ((ofPermission_ok hvalues).1).symm
  simp only [setEffective, bind_eq]
  refine acts_query (fun _ => rfl) (lasting_admitted _) h (fun _ _ => trivial)
    fun v previous ch h hprevious => ?_
  refine follows_change (fun _ => rfl) (lasting_admitted _) h (fun _ _ => trivial)
    (fun _ _ _ _ _ _ => trivial) fun v effective g seen h _ ha => ?_
  obtain ⟨values, hvalues', hstored, hg⟩ := permissionsSet_ok ha
  rw [hvalues] at hvalues'
  cases hvalues'
  have hlock : .permission subject ∈ v.1.db.permissionLocks proposed ++ [] :=
    List.mem_append_left _ (hsubject ▸ mem_permissionLocks)
  have hfree : v.1.db.permissions.find? subject = none →
      .permissionId env.permissionId ∈ v.1.db.permissionLocks proposed ++ [] := fun hnone =>
    List.mem_append_left _ (hid ▸ mem_permissionLocks_of_none (hsubject ▸ hnone))
  simp only [List.foldl_nil, hsubject, hid] at hstored hg h
  generalize hfound : v.1.db.permissions.find? subject = found at hstored hg hfree
  have hlasting := (lasting_admitted subject).and (lasting_found hlock hfree)
  have hknown := h.mono (G := fun db => Admitted subject db ∧
    Found subject env.permissionId found db) fun hf => ⟨hf, hfound, fun hnone => by
      obtain ⟨_, hsome, _⟩ | ⟨_, hfresh, _⟩ := hg
      · rw [hsome] at hnone
        cases hnone
      · exact hfresh⟩
  refine acts_lift fun record hrecord => ?_
  refine follows_change (fun _ => rfl) hlasting hknown (fun _ _ => trivial)
    (fun _ _ _ _ _ _ => trivial) fun v a g' seen h _ ha => ?_
  cases ha
  simp only [List.append_assoc, List.cons_append, List.nil_append] at h
  refine acts_commit (by simpa using hlasting) h fun db hf => ?_
  obtain ⟨hadmitted, hsame, hfresh⟩ := hf
  have hupsert : g db = db.upsertPermission ⟨env.permissionId, subject, effect, now, now⟩ := by
    obtain ⟨row, rfl, rfl⟩ | ⟨rfl, _, rfl⟩ := hg
    · exact updatePermission_eq hsame
    · exact insertPermission_eq hsame
  show Commit s _ _ db ((g db).appendAudit record)
  rw [hupsert]
  exact .setPermission rfl hreading (getEffective_subject hprevious) hproposed hadmitted
    (hsame ▸ hfresh) (hsame ▸ hstored) hrecord

end Permissions

end Valor.ControlPlane
