/-
  The control plane: what a scope sees.

  A scope is some tenants, the Runtime Principals that are bound to them, and the ids that its
  requests give out. It sees all tenants, whose names are unique together, and of the other
  tables the rows of its tenants, the Invocations of its principals, and which of its own ids
  are taken.

  A change that concerns the scope does the same to what is seen, wherever it is made (the
  `respects_…` lemmas); a row of others is not seen (`sees_…`).
-/
import Valor.ControlPlane.Commits
import Valor.Lib.Glance
import Valor.Lib.Isolation

namespace Valor.ControlPlane

open Python Postgres ManagementAudit IdentityTenancy AssetRegistry PolicyRisk RuntimeGateway
  Prog Interleave ReadCommitted

structure Scope where
  tenantIds : Finset Uuid
  principalIds : List String
  ids : Set Uuid

/-- What is seen of a database. -/
structure Seen where
  tenants : List TenantRow
  agents : Glance AgentRow Uuid
  models : Glance ModelRow Uuid
  permissions : List PermissionRow
  permissionIds : Set Uuid
  decisions : Glance DecisionRow Uuid
  decided : Set Uuid
  invocations : Glance InvocationRow Uuid
  audits : List Record

namespace Scope

variable (σ : Scope)

def owns (tenantId : Uuid) : Bool := tenantId ∈ σ.tenantIds

def ownsInvocation (row : InvocationRow) : Bool :=
  σ.owns row.tenantId || row.runtimePrincipalId.any (· ∈ σ.principalIds)

def sees (db : Db) : Seen where
  tenants := db.tenants.rows
  agents := db.agents.glance (σ.owns ·.tenantId) σ.ids
  models := db.models.glance (σ.owns ·.tenantId) σ.ids
  permissions := db.permissions.rows.filter (σ.owns ·.subject.tenantId)
  permissionIds := {id | id ∈ σ.ids ∧ ∃ r ∈ db.permissions, r.id = id}
  decisions := db.decisions.glance (σ.owns ·.subject.tenantId) σ.ids
  decided := {id | id ∈ σ.ids ∧ ∃ r ∈ db.decisions, r.invocationId = id}
  invocations := db.invocations.glance σ.ownsInvocation σ.ids
  audits := db.audits.filter fun record => record.tenantId.any σ.owns

/-- Agents, Models and permissions are not removed. -/
structure Grows (v v' : Seen) : Prop where
  agents : ∀ a ∈ v.agents.rows, a ∈ v'.agents.rows
  models : ∀ m ∈ v.models.rows, m ∈ v'.models.rows
  permissions : ∀ p ∈ v.permissions, ∃ p' ∈ v'.permissions, p'.id = p.id

def sight : Sight Db Seen where
  sees := σ.sees
  grows := Grows
  refl v := ⟨fun _ h => h, fun _ h => h, fun p h => ⟨p, h, rfl⟩⟩
  trans u v w h h' := by
    refine ⟨fun a ha => h'.agents a (h.agents a ha), fun m hm => h'.models m (h.models m hm), ?_⟩
    intro p hp
    obtain ⟨p', hp', hid⟩ := h.permissions p hp
    obtain ⟨p'', hp'', hid'⟩ := h'.permissions p' hp'
    exact ⟨p'', hp'', hid'.trans hid⟩

end Scope

section Writes

variable {σ : Scope} {db : Db}

/-- A change that is a function of what is seen. -/
theorem respects_of_sees {g : Db → Db} (f : Seen → Seen) (hf : ∀ d, σ.sees (g d) = f (σ.sees d))
    (hgrows : ∀ v, Scope.Grows v (f v)) : σ.sight.Respects g := by
  refine ⟨fun d d' hd => ?_, fun d => ?_⟩
  · have hsees : σ.sees d = σ.sees d' := hd
    show σ.sees (g d) = σ.sees (g d')
    rw [hf, hf, hsees]
  · show Scope.Grows (σ.sees d) (σ.sees (g d))
    rw [hf]
    exact hgrows _

theorem respects_insertTenant (row : TenantRow) : σ.sight.Respects (·.insertTenant row) := by
  refine respects_of_sees (fun v => { v with
    tenants := if row.id ∈ v.tenants.map (·.id) then v.tenants else v.tenants ++ [row] }) (fun d => ?_)
    fun v => ⟨fun _ h => h, fun _ h => h, fun p h => ⟨p, h, rfl⟩⟩
  have hrows := Table.rows_insert_eq d.tenants row
  simp only [Scope.sees, Db.insertTenant, hrows]
  rfl

theorem respects_insertAgent {row : AgentRow} (ht : σ.owns row.tenantId = true) (hid : row.id ∈ σ.ids) :
    σ.sight.Respects (·.insertAgent row) := by
  refine respects_of_sees (fun v => { v with agents := v.agents.insert row }) (fun d => ?_)
    fun v => ⟨fun a ha => Table.mem_insert_rows ha, fun _ h => h, fun p h => ⟨p, h, rfl⟩⟩
  have hglance := Table.glance_insert (t := d.agents) (p := (σ.owns ·.tenantId)) ht hid
  simp only [Scope.sees, Db.insertAgent, hglance]

theorem respects_insertModel {row : ModelRow} (ht : σ.owns row.tenantId = true) (hid : row.id ∈ σ.ids) :
    σ.sight.Respects (·.insertModel row) := by
  refine respects_of_sees (fun v => { v with models := v.models.insert row }) (fun d => ?_)
    fun v => ⟨fun _ h => h, fun m hm => Table.mem_insert_rows hm, fun p h => ⟨p, h, rfl⟩⟩
  have hglance := Table.glance_insert (t := d.models) (p := (σ.owns ·.tenantId)) ht hid
  simp only [Scope.sees, Db.insertModel, hglance]

theorem respects_insertInvocation {row : InvocationRow} (ht : σ.owns row.tenantId = true)
    (hid : row.id ∈ σ.ids) : σ.sight.Respects (·.insertInvocation row) := by
  refine respects_of_sees (fun v => { v with invocations := v.invocations.insert row }) (fun d => ?_)
    fun v => ⟨fun _ h => h, fun _ h => h, fun p h => ⟨p, h, rfl⟩⟩
  have hglance := Table.glance_insert (t := d.invocations) (p := σ.ownsInvocation)
    (by simp [Scope.ownsInvocation, ht]) hid
  simp only [Scope.sees, Db.insertInvocation, hglance]

open Classical in
theorem respects_insertDecision {row : DecisionRow} (ht : σ.owns row.subject.tenantId = true)
    (hid : row.id ∈ σ.ids) (hinvocation : row.invocationId ∈ σ.ids) :
    σ.sight.Respects (·.insertDecision row) := by
  refine respects_of_sees (fun v => { v with
    decisions := v.decisions.insert row
    decided := if row.id ∈ v.decisions.keys then v.decided else insert row.invocationId v.decided })
    (fun d => ?_) fun v => ⟨fun _ h => h, fun _ h => h, fun p h => ⟨p, h, rfl⟩⟩
  have hglance := Table.glance_insert (t := d.decisions) (p := (σ.owns ·.subject.tenantId)) ht hid
  have hdecided : {id | id ∈ σ.ids ∧ ∃ r ∈ d.decisions.insert row, r.invocationId = id} =
      if row.id ∈ (d.decisions.glance (σ.owns ·.subject.tenantId) σ.ids).keys
      then {id | id ∈ σ.ids ∧ ∃ r ∈ d.decisions, r.invocationId = id}
      else insert row.invocationId {id | id ∈ σ.ids ∧ ∃ r ∈ d.decisions, r.invocationId = id} := by
    split
    · next h =>
      have htaken : d.decisions.find? row.id ≠ none := h.2
      have hmem : ∀ r, r ∈ d.decisions.insert row ↔ r ∈ d.decisions := by
        intro r
        rw [Table.mem_rows, Table.mem_rows, Table.rows_insert_of_taken htaken]
      simp only [hmem]
    · next h =>
      have hfree : d.decisions.find? row.id = none := by
        by_contra htaken
        exact h ⟨hid, htaken⟩
      ext id
      constructor
      · rintro ⟨hin, r, hr, rfl⟩
        rcases Table.mem_insert.mp hr with hold | ⟨rfl, _⟩
        · exact .inr ⟨hin, r, hold, rfl⟩
        · exact .inl rfl
      · rintro (rfl | ⟨hin, r, hr, rfl⟩)
        · exact ⟨hinvocation, row, Table.mem_insert.mpr (.inr ⟨rfl, hfree⟩), rfl⟩
        · exact ⟨hin, r, Table.mem_insert_of_mem hr, rfl⟩
  simp only [Scope.sees, Db.insertDecision, hglance, hdecided]
  rfl

theorem respects_appendAudit (record : Record) : σ.sight.Respects (·.appendAudit record) := by
  refine respects_of_sees (fun v => { v with
    audits := v.audits ++ [record].filter fun record => record.tenantId.any σ.owns }) (fun d => ?_)
    fun v => ⟨fun _ h => h, fun _ h => h, fun p h => ⟨p, h, rfl⟩⟩
  simp only [Scope.sees, Db.appendAudit, List.filter_append]

/-- The row that an UPDATE leaves of a row. -/
def updated (values row : PermissionRow) : PermissionRow :=
  if row.subject = values.subject then row.set values else row

theorem updated_subject (values row : PermissionRow) : (updated values row).subject = row.subject := by
  unfold updated
  split <;> rfl

theorem updated_id (values row : PermissionRow) : (updated values row).id = row.id := by
  unfold updated
  split <;> rfl

theorem rows_updatePermission (d : Db) (values : PermissionRow) :
    (d.updatePermission values).permissions.rows = d.permissions.rows.map (updated values) := rfl

theorem permissionIds_updatePermission (d : Db) (values : PermissionRow) :
    (σ.sees (d.updatePermission values)).permissionIds = (σ.sees d).permissionIds := by
  ext id
  refine and_congr_right fun _ => ?_
  simp only [Table.mem_rows, rows_updatePermission, List.mem_map, exists_exists_and_eq_and, updated_id]

theorem respects_updatePermission (values : PermissionRow) :
    σ.sight.Respects (·.updatePermission values) := by
  refine respects_of_sees (fun v => { v with permissions := v.permissions.map (updated values) })
    (fun d => ?_) fun v => ⟨fun _ h => h, fun _ h => h, fun p hp => ?_⟩
  · have hids := permissionIds_updatePermission (σ := σ) d values
    have hrows : (d.updatePermission values).permissions.rows.filter (σ.owns ·.subject.tenantId) =
        (d.permissions.rows.filter (σ.owns ·.subject.tenantId)).map (updated values) := by
      rw [rows_updatePermission, List.filter_map]
      congr 2
      funext row
      simp [updated_subject]
    simp only [Scope.sees, hrows] at hids ⊢
    rw [hids]
    rfl
  · exact ⟨updated values p, List.mem_map_of_mem hp, updated_id values p⟩

theorem permissions_of_owned {subject : Subject} (h : σ.owns subject.tenantId = true) (d : Db) :
    d.permissions.find? subject = (σ.sees d).permissions.find? (·.subject = subject) := by
  refine Table.find?_filter fun r hr => ?_
  have hsubject : r.subject = subject := hr
  rw [hsubject]
  exact h

theorem respects_insertPermission {values : PermissionRow} (ht : σ.owns values.subject.tenantId = true)
    (hid : values.id ∈ σ.ids) : σ.sight.Respects (·.insertPermission values) := by
  refine respects_of_sees (fun v => if (v.permissions.find? (·.subject = values.subject)).isSome then v else
    { v with
      permissions := v.permissions ++ [values]
      permissionIds := insert values.id v.permissionIds }) (fun d => ?_) fun v => ?_
  · have hfind := permissions_of_owned ht d
    by_cases hfree : d.permissions.find? values.subject = none
    · rw [← hfind, hfree, Option.isSome_none, if_neg Bool.false_ne_true]
      have hrows := Table.filter_insert (p := (σ.owns ·.subject.tenantId)) hfree
      have hids : {id | id ∈ σ.ids ∧ ∃ r ∈ d.permissions.insert values, r.id = id} =
          insert values.id {id | id ∈ σ.ids ∧ ∃ r ∈ d.permissions, r.id = id} := by
        ext id
        constructor
        · rintro ⟨hin, r, hr, rfl⟩
          rcases Table.mem_insert.mp hr with hold | ⟨rfl, _⟩
          · exact .inr ⟨hin, r, hold, rfl⟩
          · exact .inl rfl
        · rintro (rfl | ⟨hin, r, hr, rfl⟩)
          · exact ⟨hid, values, Table.mem_insert.mpr (.inr ⟨rfl, hfree⟩), rfl⟩
          · exact ⟨hin, r, Table.mem_insert_of_mem hr, rfl⟩
      rw [if_pos ht] at hrows
      simp only [Scope.sees, Db.insertPermission, hrows, hids]
    · rw [← hfind, if_pos (Option.isSome_iff_ne_none.mpr hfree)]
      have hrows := Table.rows_insert_of_taken hfree
      simp only [Scope.sees, Db.insertPermission, Table.mem_rows, hrows]
  · split
    · exact σ.sight.refl v
    · exact ⟨fun _ h => h, fun _ h => h, fun p h => ⟨p, List.mem_append_left _ h, rfl⟩⟩

/-! ### Of others -/

theorem sees_insertAgent {row : AgentRow} (ht : σ.owns row.tenantId = false) (hid : row.id ∉ σ.ids)
    (d : Db) : σ.sees (d.insertAgent row) = σ.sees d := by
  have hglance := Table.glance_insert_other (t := d.agents) (p := (σ.owns ·.tenantId)) ht hid
  simp only [Scope.sees, Db.insertAgent, hglance]

theorem sees_insertModel {row : ModelRow} (ht : σ.owns row.tenantId = false) (hid : row.id ∉ σ.ids)
    (d : Db) : σ.sees (d.insertModel row) = σ.sees d := by
  have hglance := Table.glance_insert_other (t := d.models) (p := (σ.owns ·.tenantId)) ht hid
  simp only [Scope.sees, Db.insertModel, hglance]

theorem sees_insertInvocation {row : InvocationRow} (ht : σ.ownsInvocation row = false)
    (hid : row.id ∉ σ.ids) (d : Db) : σ.sees (d.insertInvocation row) = σ.sees d := by
  have hglance := Table.glance_insert_other (t := d.invocations) (p := σ.ownsInvocation) ht hid
  simp only [Scope.sees, Db.insertInvocation, hglance]

theorem sees_insertDecision {row : DecisionRow} (ht : σ.owns row.subject.tenantId = false)
    (hid : row.id ∉ σ.ids) (hinvocation : row.invocationId ∉ σ.ids) (d : Db) :
    σ.sees (d.insertDecision row) = σ.sees d := by
  have hglance := Table.glance_insert_other (t := d.decisions) (p := (σ.owns ·.subject.tenantId)) ht hid
  have hdecided : {id | id ∈ σ.ids ∧ ∃ r ∈ d.decisions.insert row, r.invocationId = id} =
      {id | id ∈ σ.ids ∧ ∃ r ∈ d.decisions, r.invocationId = id} := by
    ext id
    constructor
    · rintro ⟨hin, r, hr, rfl⟩
      rcases Table.mem_insert.mp hr with hold | ⟨rfl, _⟩
      · exact ⟨hin, r, hold, rfl⟩
      · exact absurd hin hinvocation
    · rintro ⟨hin, r, hr, rfl⟩
      exact ⟨hin, r, Table.mem_insert_of_mem hr, rfl⟩
  simp only [Scope.sees, Db.insertDecision, hglance, hdecided]

theorem sees_appendAudit {record : Record} (ht : record.tenantId.any σ.owns = false) (d : Db) :
    σ.sees (d.appendAudit record) = σ.sees d := by
  simp only [Scope.sees, Db.appendAudit, List.filter_append, List.filter_cons, ht, List.filter_nil,
    Bool.false_eq_true, if_false, List.append_nil]

theorem sees_upsertPermission {values : PermissionRow} (ht : σ.owns values.subject.tenantId = false)
    (hid : values.id ∉ σ.ids) (d : Db) : σ.sees (d.upsertPermission values) = σ.sees d := by
  by_cases hfree : d.permissions.find? values.subject = none
  · have hrows := Table.filter_insert (p := (σ.owns ·.subject.tenantId)) hfree
    have hids : {id | id ∈ σ.ids ∧ ∃ r ∈ d.permissions.insert values, r.id = id} =
        {id | id ∈ σ.ids ∧ ∃ r ∈ d.permissions, r.id = id} := by
      ext id
      constructor
      · rintro ⟨hin, r, hr, rfl⟩
        rcases Table.mem_insert.mp hr with hold | ⟨rfl, _⟩
        · exact ⟨hin, r, hold, rfl⟩
        · exact absurd hin hid
      · rintro ⟨hin, r, hr, rfl⟩
        exact ⟨hin, r, Table.mem_insert_of_mem hr, rfl⟩
    rw [if_neg (by simp [ht]), List.append_nil] at hrows
    rw [← insertPermission_eq hfree]
    simp only [Scope.sees, Db.insertPermission, hrows, hids]
  · obtain ⟨row, hrow⟩ := Option.ne_none_iff_exists'.mp hfree
    have hids := permissionIds_updatePermission (σ := σ) d values
    have hrows : (d.updatePermission values).permissions.rows.filter (σ.owns ·.subject.tenantId) =
        d.permissions.rows.filter (σ.owns ·.subject.tenantId) := by
      rw [rows_updatePermission, List.filter_map]
      have hfilter : d.permissions.rows.filter ((σ.owns ·.subject.tenantId) ∘ updated values) =
          d.permissions.rows.filter (σ.owns ·.subject.tenantId) := by
        congr 1
        funext row
        simp [updated_subject]
      rw [hfilter]
      refine (List.map_congr_left fun row hrow => ?_).trans (List.map_id _)
      have howns := (List.mem_filter.mp hrow).2
      unfold updated
      split
      · next hsubject =>
        rw [hsubject, ht] at howns
        cases howns
      · rfl
    rw [← updatePermission_eq hrow]
    simp only [Scope.sees, hrows] at hids ⊢
    rw [hids]
    rfl

end Writes

/-! ## What is read -/

section Reads

variable {σ : Scope} {d d' : Db}

def Seen.hasAgent (agentId : Uuid) (v : Seen) : Prop := ∃ a ∈ v.agents.rows, a.id = agentId

def Seen.hasModel (modelId : Uuid) (v : Seen) : Prop := ∃ m ∈ v.models.rows, m.id = modelId

def Seen.hasPermission (permissionId : Uuid) (v : Seen) : Prop := ∃ p ∈ v.permissions, p.id = permissionId

theorem lasts_hasAgent (agentId : Uuid) : σ.sight.Lasts (Seen.hasAgent agentId) := by
  rintro v v' ⟨a, ha, hid⟩ hgrows
  exact ⟨a, hgrows.agents a ha, hid⟩

theorem lasts_hasModel (modelId : Uuid) : σ.sight.Lasts (Seen.hasModel modelId) := by
  rintro v v' ⟨m, hm, hid⟩ hgrows
  exact ⟨m, hgrows.models m hm, hid⟩

theorem lasts_hasPermission (permissionId : Uuid) : σ.sight.Lasts (Seen.hasPermission permissionId) := by
  rintro v v' ⟨p, hp, hid⟩ hgrows
  obtain ⟨p', hp', hid'⟩ := hgrows.permissions p hp
  exact ⟨p', hp', hid'.trans hid⟩

theorem find?_of_hasAgent {agentId : Uuid} (h : (σ.sees d).hasAgent agentId) :
    d.agents.find? agentId ≠ none := by
  obtain ⟨a, ha, rfl⟩ := h
  have hfind : d.agents.find? a.id = some a := Table.mem_iff_find?.mp (List.mem_filter.mp ha).1
  rw [hfind]
  exact Option.some_ne_none a

theorem find?_of_hasModel {modelId : Uuid} (h : (σ.sees d).hasModel modelId) :
    d.models.find? modelId ≠ none := by
  obtain ⟨m, hm, rfl⟩ := h
  have hfind : d.models.find? m.id = some m := Table.mem_iff_find?.mp (List.mem_filter.mp hm).1
  rw [hfind]
  exact Option.some_ne_none m

theorem tenants_eq (h : σ.sees d = σ.sees d') (tenantId : Uuid) :
    d.tenants.find? tenantId = d'.tenants.find? tenantId := by
  have hrows : d.tenants.rows = d'.tenants.rows := congrArg Seen.tenants h
  rw [Table.find?, Table.find?, hrows]

/-- The Agent of a tenant, if it is looked up for that tenant. -/
theorem getAgent_filter {tenantId : Uuid} (ht : σ.owns tenantId = true) (d : Db) (agentId : Uuid) :
    (d.getAgent agentId).filter (·.tenantId = tenantId) =
      (((σ.sees d).agents.rows.find? (·.id = agentId)).map fun row =>
        (⟨row.id, row.tenantId⟩ : AgentRuntimeIdentity)).filter (·.tenantId = tenantId) := by
  have hfind := Table.filter_find? (σ.owns ·.tenantId) d.agents agentId
  have hrows : (σ.sees d).agents.rows.find? (·.id = agentId) =
      (d.agents.find? agentId).filter (σ.owns ·.tenantId) := hfind.symm
  rw [hrows, Db.getAgent]
  cases hrow : d.agents.find? agentId with
  | none => rfl
  | some row =>
    by_cases heq : row.tenantId = tenantId
    · rw [Option.filter_some, heq, if_pos ht]
    · cases howns : σ.owns row.tenantId <;> simp [Option.filter_some, howns, heq]

theorem getModel_filter {tenantId : Uuid} (ht : σ.owns tenantId = true) (d : Db) (modelId : Uuid) :
    (d.getModel modelId).filter (·.tenantId = tenantId) =
      (((σ.sees d).models.rows.find? (·.id = modelId)).map fun row =>
        (⟨row.id, row.tenantId, row.provider, row.providerModelReference⟩ : ModelRuntimeReference)).filter
          (·.tenantId = tenantId) := by
  have hfind := Table.filter_find? (σ.owns ·.tenantId) d.models modelId
  have hrows : (σ.sees d).models.rows.find? (·.id = modelId) =
      (d.models.find? modelId).filter (σ.owns ·.tenantId) := hfind.symm
  rw [hrows, Db.getModel]
  cases hrow : d.models.find? modelId with
  | none => rfl
  | some row =>
    by_cases heq : row.tenantId = tenantId
    · rw [Option.filter_some, heq, if_pos ht]
    · cases howns : σ.owns row.tenantId <;> simp [Option.filter_some, howns, heq]

theorem hasAgent_of_getAgent {tenantId agentId : Uuid} {agent : AgentRuntimeIdentity}
    (ht : σ.owns tenantId = true)
    (h : (d.getAgent agentId).filter (·.tenantId = tenantId) = some agent) :
    (σ.sees d).hasAgent agentId := by
  rw [getAgent_filter ht] at h
  cases hfind : (σ.sees d).agents.rows.find? (·.id = agentId) with
  | none =>
    rw [hfind] at h
    cases h
  | some row => exact ⟨row, List.mem_of_find?_eq_some hfind, by simpa using List.find?_some hfind⟩

theorem hasModel_of_getModel {tenantId modelId : Uuid} {model : ModelRuntimeReference}
    (ht : σ.owns tenantId = true)
    (h : (d.getModel modelId).filter (·.tenantId = tenantId) = some model) :
    (σ.sees d).hasModel modelId := by
  rw [getModel_filter ht] at h
  cases hfind : (σ.sees d).models.rows.find? (·.id = modelId) with
  | none =>
    rw [hfind] at h
    cases h
  | some row => exact ⟨row, List.mem_of_find?_eq_some hfind, by simpa using List.find?_some hfind⟩

theorem getEffective_eq {subject : Subject} (ht : σ.owns subject.tenantId = true)
    (h : σ.sees d = σ.sees d') : d.getEffective subject = d'.getEffective subject := by
  have hfind : d.permissions.find? subject = d'.permissions.find? subject := by
    rw [permissions_of_owned ht, permissions_of_owned ht, h]
  rw [Db.getEffective, Db.getEffective, hfind]

theorem permissionFromRow_id {row : PermissionRow} {p : AgentModelPermission}
    (h : permissionFromRow row = .ok p) : p.id = row.id ∧ p.subject = row.subject := by
  obtain ⟨_, _, h⟩ := Except.bind_ok_cases h
  obtain ⟨_, _, h⟩ := Except.bind_ok_cases h
  split at h
  · cases h
  · cases h
    exact ⟨rfl, rfl⟩

theorem hasPermission_of_getEffective {subject : Subject} {p : AgentModelPermission}
    (ht : σ.owns subject.tenantId = true) (h : d.getEffective subject = .ok (some p)) :
    (σ.sees d).hasPermission p.id := by
  unfold Db.getEffective at h
  split at h
  · cases h
  · next row hrow =>
    obtain ⟨hmem, hsubject⟩ := Table.find?_some hrow
    have hp : permissionFromRow row = .ok p := by
      cases hp : permissionFromRow row with
      | error e => rw [hp] at h; cases h
      | ok q => rw [hp] at h; cases h; rfl
    have howns : σ.owns row.subject.tenantId = true := by
      have heq : row.subject = subject := hsubject
      rw [heq]
      exact ht
    exact ⟨row, List.mem_filter.mpr ⟨hmem, howns⟩, (permissionFromRow_id hp).1.symm⟩

/-- A ledger is a sum over Invocations that are seen. -/
theorem ledger_eq {keeps : InvocationRow → Bool} (hkeeps : ∀ r, keeps r = true → σ.ownsInvocation r = true)
    (h : σ.sees d = σ.sees d') : d.invocations.rows.filter keeps = d'.invocations.rows.filter keeps :=
  List.filter_eq_of_filter_eq hkeeps (congrArg (fun v => v.invocations.rows) h)

theorem consumedTotalUnits_eq {principalId : String} (hp : principalId ∈ σ.principalIds)
    (h : σ.sees d = σ.sees d') (start stop : Utc) :
    consumedTotalUnits d.invocations.rows principalId start stop =
      consumedTotalUnits d'.invocations.rows principalId start stop := by
  unfold consumedTotalUnits
  rw [ledger_eq (fun r hr => ?_) h]
  simp only [Bool.and_eq_true, decide_eq_true_eq] at hr
  simp [Scope.ownsInvocation, hr.1, hp]

theorem attributedCost_eq {tenantId : Uuid} (ht : σ.owns tenantId = true) (h : σ.sees d = σ.sees d')
    (start stop : Utc) : attributedCost d.invocations.rows tenantId start stop =
      attributedCost d'.invocations.rows tenantId start stop := by
  unfold attributedCost
  rw [ledger_eq (fun r hr => ?_) h]
  simp only [Bool.and_eq_true, decide_eq_true_eq] at hr
  simp [Scope.ownsInvocation, hr.1, ht]

end Reads

/-! ## What is written -/

section Changes

variable {σ : Scope} {K : Seen → Prop}

/-- The statement changes what concerns the scope, and as far as that decides. -/
def Scope.Changes (σ : Scope) (K : Seen → Prop) (q : Sql) : Prop :=
  ∀ ch, ∃ locks act, stmt ch q = .change locks act ∧ σ.sight.Changes K locks act

theorem bind_congr_ok {α β : Type} {x : Except Error α} {f g : α → Except Error β}
    (h : ∀ a, x = .ok a → f a = g a) : x >>= f = x >>= g := by
  cases x with
  | ok a => exact h a rfl
  | error e => rfl

theorem constraint_congr {e : Error} {p q : Prop} [Decidable p] [Decidable q] (h : p ↔ q) :
    constraint e p = constraint e q := by
  unfold constraint
  by_cases hp : p
  · rw [if_pos hp, if_pos (h.mp hp)]
  · rw [if_neg hp, if_neg fun hq => hp (h.mpr hq)]

/-- A name is unique in its tenant: only the rows of the tenant matter. -/
theorem forall_owned {R : Type} (tenant : R → Uuid) (name : R → String) {rows rows' : List R}
    {tenantId : Uuid} {value : String} (ht : σ.owns tenantId = true)
    (h : rows.filter (σ.owns <| tenant ·) = rows'.filter (σ.owns <| tenant ·)) :
    (∀ r ∈ rows, (tenant r, name r) ≠ (tenantId, value)) ↔
      ∀ r ∈ rows', (tenant r, name r) ≠ (tenantId, value) := by
  have hseen : ∀ rows : List R, (∀ r ∈ rows, (tenant r, name r) ≠ (tenantId, value)) ↔
      ∀ r ∈ rows.filter (σ.owns <| tenant ·), (tenant r, name r) ≠ (tenantId, value) := by
    intro rows
    refine ⟨fun hall r hr => hall r (List.mem_filter.mp hr).1, fun hall r hr heq => ?_⟩
    have htenant : tenant r = tenantId := congrArg Prod.fst heq
    have howns : σ.owns (tenant r) = true := by
      rw [htenant]
      exact ht
    exact hall r (List.mem_filter.mpr ⟨hr, howns⟩) heq
  rw [hseen rows, hseen rows', h]

theorem tenantsAdd_changes (t : Tenant) : σ.Changes K (.tenantsAdd t) := by
  refine fun ch => ⟨_, _, rfl, fun e e' d d' _ h _ => ⟨rfl, ?_⟩, fun e d a g h => ?_⟩
  · have hrows : d.tenants.rows = d'.tenants.rows := congrArg Seen.tenants h
    have hfind := tenants_eq h t.id
    refine bind_congr fun row => ?_
    rw [hfind, hrows]
  · obtain ⟨row, _, h⟩ := Except.bind_ok_cases h
    obtain ⟨_, _, h⟩ := Except.bind_ok_cases h
    obtain ⟨_, _, h⟩ := Except.bind_ok_cases h
    cases h
    exact respects_insertTenant row

theorem agentsAdd_changes {a : Agent} (ht : σ.owns a.tenantId = true) (hid : a.id ∈ σ.ids) :
    σ.Changes K (.agentsAdd a) := by
  refine fun ch => ⟨_, _, rfl, fun e e' d d' _ h _ => ⟨rfl, ?_⟩, fun e d _ g h => ?_⟩
  · have hglance : d.agents.glance (σ.owns ·.tenantId) σ.ids = d'.agents.glance (σ.owns ·.tenantId) σ.ids :=
      congrArg Seen.agents h
    have hrows := congrArg Glance.rows hglance
    have htenant := tenants_eq h a.tenantId
    refine bind_congr_ok fun row hrow => ?_
    have howns : σ.owns row.tenantId = true := (ofAgent_ok (column_ok hrow)).2 ▸ ht
    rw [constraint_congr (Table.find?_congr hglance hid),
      constraint_congr (forall_owned AgentRow.tenantId AgentRow.normalizedName howns hrows),
      htenant]
  · obtain ⟨row, hrow, h⟩ := Except.bind_ok_cases h
    obtain ⟨_, _, h⟩ := Except.bind_ok_cases h
    obtain ⟨_, _, h⟩ := Except.bind_ok_cases h
    obtain ⟨_, _, h⟩ := Except.bind_ok_cases h
    cases h
    obtain ⟨hrid, hrt⟩ := ofAgent_ok (column_ok hrow)
    exact respects_insertAgent (hrt ▸ ht) (hrid ▸ hid)

theorem modelsAdd_changes {m : Model} (ht : σ.owns m.tenantId = true) (hid : m.id ∈ σ.ids) :
    σ.Changes K (.modelsAdd m) := by
  refine fun ch => ⟨_, _, rfl, fun e e' d d' _ h _ => ⟨rfl, ?_⟩, fun e d _ g h => ?_⟩
  · have hglance : d.models.glance (σ.owns ·.tenantId) σ.ids = d'.models.glance (σ.owns ·.tenantId) σ.ids :=
      congrArg Seen.models h
    have hrows := congrArg Glance.rows hglance
    have htenant := tenants_eq h m.tenantId
    refine bind_congr_ok fun row hrow => ?_
    have howns : σ.owns row.tenantId = true := (ofModel_ok (column_ok hrow)).2 ▸ ht
    rw [constraint_congr (Table.find?_congr hglance hid),
      constraint_congr (forall_owned ModelRow.tenantId ModelRow.normalizedName howns hrows),
      htenant]
  · obtain ⟨row, hrow, h⟩ := Except.bind_ok_cases h
    obtain ⟨_, _, h⟩ := Except.bind_ok_cases h
    obtain ⟨_, _, h⟩ := Except.bind_ok_cases h
    obtain ⟨_, _, h⟩ := Except.bind_ok_cases h
    cases h
    obtain ⟨hrid, hrt⟩ := ofModel_ok (column_ok hrow)
    exact respects_insertModel (hrt ▸ ht) (hrid ▸ hid)

/-- Whether an id of the scope is taken is seen. -/
theorem forall_ne_of_ids {R : Type} {f : R → Uuid} {rows rows' : List R} {id : Uuid} (hid : id ∈ σ.ids)
    (h : {x | x ∈ σ.ids ∧ ∃ r ∈ rows, f r = x} = {x | x ∈ σ.ids ∧ ∃ r ∈ rows', f r = x}) :
    (∀ r ∈ rows, f r ≠ id) ↔ ∀ r ∈ rows', f r ≠ id := by
  have hmem : (id ∈ σ.ids ∧ ∃ r ∈ rows, f r = id) ↔ (id ∈ σ.ids ∧ ∃ r ∈ rows', f r = id) :=
    Set.ext_iff.mp h id
  have hexists : (∃ r ∈ rows, f r = id) ↔ ∃ r ∈ rows', f r = id :=
    ⟨fun hr => (hmem.mp ⟨hid, hr⟩).2, fun hr => (hmem.mpr ⟨hid, hr⟩).2⟩
  simpa using not_congr hexists

theorem permissionsSet_changes {p : AgentModelPermission} (ht : σ.owns p.tenantId = true)
    (hid : p.id ∈ σ.ids) (hagent : ∀ v, K v → v.hasAgent p.agentId)
    (hmodel : ∀ v, K v → v.hasModel p.modelId) : σ.Changes K (.permissionsSet p) := by
  have hsubject : σ.owns p.subject.tenantId = true := ht
  refine fun ch => ⟨_, _, rfl, fun e e' d d' _ h hk => ?_, fun e d permission g h => ?_⟩
  · have hsees : σ.sees d = σ.sees d' := h
    have hk' : K (σ.sees d') := hsees ▸ hk
    have hfind : d.permissions.find? p.subject = d'.permissions.find? p.subject := by
      rw [permissions_of_owned hsubject, permissions_of_owned hsubject, hsees]
    have hids := forall_ne_of_ids hid (congrArg Seen.permissionIds hsees)
    have htenant := tenants_eq hsees p.tenantId
    have hagents : d.agents.find? p.agentId ≠ none ↔ d'.agents.find? p.agentId ≠ none :=
      iff_of_true (find?_of_hasAgent (hagent _ hk)) (find?_of_hasAgent (hagent _ hk'))
    have hmodels : d.models.find? p.modelId ≠ none ↔ d'.models.find? p.modelId ≠ none :=
      iff_of_true (find?_of_hasModel (hmodel _ hk)) (find?_of_hasModel (hmodel _ hk'))
    constructor
    · rw [Db.permissionLocks, Db.permissionLocks, hfind]
    · rw [Db.permissionsSet, Db.permissionsSet, hfind]
      refine bind_congr_ok fun values _ => ?_
      cases d'.permissions.find? p.subject with
      | some row => rfl
      | none =>
        dsimp only
        rw [constraint_congr hids, htenant, constraint_congr hagents, constraint_congr hmodels]
  · obtain ⟨values, hvalues, _, ⟨_, _, rfl⟩ | ⟨_, _, rfl⟩⟩ := permissionsSet_ok h
    · exact respects_updatePermission values
    · obtain ⟨hrid, hrsubject⟩ := ofPermission_ok hvalues
      exact respects_insertPermission (hrsubject ▸ hsubject) (hrid ▸ hid)

theorem decisionsAdd_changes {decision : PolicyDecision} (ht : σ.owns decision.tenantId = true)
    (hid : decision.id ∈ σ.ids) (hinvocation : decision.invocationId ∈ σ.ids)
    (hagent : ∀ v, K v → v.hasAgent decision.agentId) (hmodel : ∀ v, K v → v.hasModel decision.modelId)
    (hpermission : ∀ v, K v → ∀ id ∈ decision.permissionId, v.hasPermission id) :
    σ.Changes K (.decisionsAdd decision) := by
  refine fun ch => ⟨_, _, rfl, fun e e' d d' _ h hk => ⟨rfl, ?_⟩, fun e d _ g h => ?_⟩
  · have hsees : σ.sees d = σ.sees d' := h
    have hk' : K (σ.sees d') := hsees ▸ hk
    have hfree := Table.find?_congr (congrArg Seen.decisions hsees) hid
    have hdecided := forall_ne_of_ids (f := DecisionRow.invocationId) hinvocation (congrArg Seen.decided hsees)
    have htenant := tenants_eq hsees decision.tenantId
    have hrefers : (d.tenants.find? decision.tenantId ≠ none ∧ d.agents.find? decision.agentId ≠ none ∧
        d.models.find? decision.modelId ≠ none) ↔ (d'.tenants.find? decision.tenantId ≠ none ∧
        d'.agents.find? decision.agentId ≠ none ∧ d'.models.find? decision.modelId ≠ none) := by
      rw [htenant]
      exact and_congr_right fun _ => iff_of_true
        ⟨find?_of_hasAgent (hagent _ hk), find?_of_hasModel (hmodel _ hk)⟩
        ⟨find?_of_hasAgent (hagent _ hk'), find?_of_hasModel (hmodel _ hk')⟩
    have hnamed : ∀ d, K (σ.sees d) → ∀ id ∈ decision.permissionId, ∃ r ∈ d.permissions.rows, r.id = id := by
      intro d hk id hmem
      obtain ⟨p, hp, hpid⟩ := hpermission _ hk id hmem
      exact ⟨p, (List.mem_filter.mp hp).1, hpid⟩
    refine bind_congr_ok fun row _ => ?_
    rw [constraint_congr hfree, constraint_congr hdecided, constraint_congr hrefers,
      constraint_congr (iff_of_true (hnamed d hk) (hnamed d' hk'))]
  · obtain ⟨row, hrow, h⟩ := Except.bind_ok_cases h
    obtain ⟨_, _, h⟩ := Except.bind_ok_cases h
    obtain ⟨_, _, h⟩ := Except.bind_ok_cases h
    obtain ⟨_, _, h⟩ := Except.bind_ok_cases h
    obtain ⟨_, _, h⟩ := Except.bind_ok_cases h
    cases h
    obtain ⟨hrid, hrinvocation, hrsubject, _⟩ := ofDecision_ok (column_ok hrow)
    have howns : σ.owns row.subject.tenantId = true := by
      rw [hrsubject]
      exact ht
    exact respects_insertDecision howns (hrid ▸ hid) (hrinvocation ▸ hinvocation)

theorem invocationsAdd_changes {i : Invocation} (ht : σ.owns i.tenantId = true) (hid : i.id ∈ σ.ids)
    (hdecision : i.policyDecisionId ∈ σ.ids) (hagent : ∀ v, K v → v.hasAgent i.agentId)
    (hmodel : ∀ v, K v → v.hasModel i.modelId) : σ.Changes K (.invocationsAdd i) := by
  refine fun ch => ⟨_, _, rfl, fun e e' d d' _ h hk => ⟨rfl, ?_⟩, fun e d _ g h => ?_⟩
  · have hsees : σ.sees d = σ.sees d' := h
    have hk' : K (σ.sees d') := hsees ▸ hk
    have hfree := Table.find?_congr (congrArg Seen.invocations hsees) hid
    have hdecisions := Table.find?_congr (congrArg Seen.decisions hsees) hdecision
    have htenant := tenants_eq hsees i.tenantId
    have hagents : d.agents.find? i.agentId ≠ none ↔ d'.agents.find? i.agentId ≠ none :=
      iff_of_true (find?_of_hasAgent (hagent _ hk)) (find?_of_hasAgent (hagent _ hk'))
    have hmodels : d.models.find? i.modelId ≠ none ↔ d'.models.find? i.modelId ≠ none :=
      iff_of_true (find?_of_hasModel (hmodel _ hk)) (find?_of_hasModel (hmodel _ hk'))
    refine bind_congr_ok fun row _ => bind_congr_ok fun _ _ => ?_
    rw [constraint_congr hfree, htenant, constraint_congr hagents, constraint_congr hmodels,
      constraint_congr (not_congr hdecisions)]
  · obtain ⟨row, hrow, h⟩ := Except.bind_ok_cases h
    iterate 6 obtain ⟨_, _, h⟩ := Except.bind_ok_cases h
    cases h
    obtain ⟨hrid, hrt, _⟩ := ofInvocation_ok (column_ok hrow)
    exact respects_insertInvocation (hrt ▸ ht) (hrid ▸ hid)

theorem auditsAppend_changes (record : Record) : σ.Changes K (.auditsAppend record) := by
  refine fun ch => ⟨_, _, rfl, fun e e' d d' _ _ _ => ⟨rfl, rfl⟩, fun e d _ g h => ?_⟩
  cases h
  exact respects_appendAudit record

end Changes

end Valor.ControlPlane
