/-
  The control plane: the routes that read.

  A route asks whether the tenant is one of the principal's before its statements, or loads a
  resource by its id and asks then whose it is. Both refuse with the error of what is not
  there. A row of others is loaded before it is refused, so the second kind refuses alike only
  because every row is loaded (`loads_of_run`).

  Each statement sees the database of its own moment. What a principal is answered is a
  function of what its tenants hold at these moments (`reads_isolated`).
-/
import Valor.ControlPlane.Isolation
import Valor.Lib.Answers
import Valor.RuntimeGateway.ReportSnapshots
import Valor.ValidatedRange

namespace Valor.ControlPlane

open Python Postgres ManagementAudit IdentityTenancy AssetRegistry PolicyRisk RuntimeGateway
  Prog Interleave ReadCommitted Settings Security

/-! ## Statements -/

inductive Read where
  | tenantsGet (tenantId : Uuid)
  | agentsGet (agentId : Uuid)
  | modelsGet (modelId : Uuid)
  | permissionsGet (permissionId : Uuid)
  | invocationsGet (invocationId : Uuid)
  | tenantExists (tenantId : Uuid)
  | totals (tenantId : Uuid) (start «end» : Utc)
  | agentBreakdown (tenantId : Uuid) (start «end» : Utc)
  | modelBreakdown (tenantId : Uuid) (start «end» : Utc)
  | listForTenant (tenantId : Uuid) (start «end» : Utc) (limit : Nat)

abbrev Read.Res : Read → Type
  | tenantsGet _ => Option Tenant
  | agentsGet _ => Option Agent
  | modelsGet _ => Option Model
  | permissionsGet _ => Option AgentModelPermission
  | invocationsGet _ => Option Invocation
  | tenantExists _ => Bool
  | totals .. => Ledger.Totals
  | agentBreakdown .. | modelBreakdown .. => List CostBreakdown
  | listForTenant .. => List Record

/-- The rows of the WHERE clause of `list_for_tenant`. -/
def auditedRows (records : List Record) (tenantId : Uuid) (start «end» : Utc) : List Record :=
  records.filter fun record => record.tenantId = some tenantId &&
    (start.instant ≤ record.occurredAt.instant && record.occurredAt.instant < «end».instant)

/-- `ORDER BY occurred_at DESC, audit_id DESC`. -/
def auditOrder (a b : Record) : Bool :=
  b.occurredAt.instant < a.occurredAt.instant ||
    (b.occurredAt.instant ≤ a.occurredAt.instant && b.auditId.int ≤ a.auditId.int)

/-- What a statement reads, and its repository makes of the rows. -/
def fetch (casefold : String → String) (db : Db) : (q : Read) → Except ReadError q.Res
  | .tenantsGet tenantId => (db.tenants.find? tenantId).mapM (·.toTenant casefold)
  | .agentsGet agentId => (db.agents.find? agentId).mapM (·.toAgent casefold)
  | .modelsGet modelId => (db.models.find? modelId).mapM (·.toModel casefold)
  | .permissionsGet permissionId => (db.permissions.rows.find? (·.id = permissionId)).mapM
      fun row => (permissionFromRow row).mapError fun e => .valueError e.message
  | .invocationsGet invocationId =>
      (RuntimeGateway.getInvocation db.invocations invocationId).mapError .invocation
  | .tenantExists tenantId => .ok (db.tenants.find? tenantId).isSome
  | .totals tenantId start «end» =>
      .ok (Ledger.totalsOf (reportedRows db.invocations.rows tenantId start «end»))
  | .agentBreakdown tenantId start «end» =>
      .ok (breakdownStatement (·.agentId) (reportedRows db.invocations.rows tenantId start «end»))
  | .modelBreakdown tenantId start «end» =>
      .ok (breakdownStatement (·.modelId) (reportedRows db.invocations.rows tenantId start «end»))
  | .listForTenant tenantId start «end» limit =>
      .ok (Grouping.ranked auditOrder limit (auditedRows db.audits tenantId start «end»))

abbrev Reader := Prog Read Read.Res ReadError

/-- What the statements answer that see these databases. A statement that sees none raises a
    SQLAlchemyError. -/
def answers (casefold : String → String) (seen : Read → Option Db) : Answers Read Read.Res ReadError :=
  fun q => match seen q with
    | none => .error .database
    | some db => fetch casefold db q

/-! ## Handlers and routes -/

section Routes

/-- A handler that raises `missing` where there is no resource. -/
def present {α : Type} (missing : ReadError) : Option α → Reader α
  | none => .raise missing
  | some resource => .ret resource

/-- Such a handler, and a route that raises `missing` again if the resource is not the caller's. -/
def getOwned {α : Type} (load : Reader (Option α)) (own : α → Bool) (missing : ReadError) : Reader α := do
  let resource ← load >>= present missing
  raiseWhen (own resource = false) missing
  return resource

variable (principal : AuthenticatedPrincipal)

/-- `get_tenant`. -/
def getTenant (tenantId : Uuid) : Reader Tenant := do
  raiseWhen (principal.authorizes tenantId = false) (.tenantNotFound tenantId)
  perform (Read.tenantsGet tenantId) >>= present (.tenantNotFound tenantId)

/-- `get_agent`. -/
def getAgent (agentId : Uuid) : Reader Agent :=
  getOwned (perform (Read.agentsGet agentId)) (fun agent => principal.authorizes agent.tenantId)
    (.agentNotFound agentId)

/-- `get_model`. -/
def getModel (modelId : Uuid) : Reader Model :=
  getOwned (perform (Read.modelsGet modelId)) (fun model => principal.authorizes model.tenantId)
    (.modelNotFound modelId)

/-- `get_permission`. -/
def getPermission (permissionId : Uuid) : Reader AgentModelPermission :=
  getOwned (perform (Read.permissionsGet permissionId))
    (fun permission => principal.authorizes permission.tenantId) (.permissionNotFound permissionId)

/-- `except SQLAlchemyError` of the readers that have an error of their own. -/
def unavailable {α : Type} (e : ReadError) (p : Reader α) : Reader α :=
  p.mapError fun raised => if raised = .database then e else raised

/-- `get_tenant_runtime_report` and its handler. -/
def getTenantRuntimeReport (tenantId : Uuid) (start «end» : Datetime) : Reader TenantRuntimeReport := do
  raiseWhen (principal.authorizes tenantId = false) .tenantRuntimeReportNotFound
  let range ← lift reportFailure (RuntimeGateway.validatedUtcRange start «end»)
  let found ← unavailable .runtimeReportUnavailable (perform (Read.tenantExists tenantId))
  raiseWhen (found = false) .tenantRuntimeReportNotFound
  unavailable .runtimeReportUnavailable do
    let totals ← perform (Read.totals tenantId range.1 range.2)
    let agentRows ← perform (Read.agentBreakdown tenantId range.1 range.2)
    let modelRows ← perform (Read.modelBreakdown tenantId range.1 range.2)
    return Ledger.reportOf tenantId range.1 range.2 totals agentRows modelRows
where
  reportFailure : RangeFailure RuntimeGateway.InvalidReportRange → ReadError
    | .invalid e => .invalidReportRange e.message
    | .overflow _ => .overflowError

/-- `list_audit_records` and its handler. The limit is checked twice: where the route declares it,
    before the body of the route, and by the handler. -/
def listAuditRecords (tenantId : Uuid) (start «end» : Datetime) (limit : Int) : Reader (List Record) := do
  raiseWhen (¬(1 ≤ limit ∧ limit ≤ 100)) .requestValidation
  raiseWhen (principal.authorizes tenantId = false) .tenantAuditNotFound
  let range ← lift auditFailure (ManagementAudit.validatedRange start «end»)
  raiseWhen (¬(1 ≤ limit ∧ limit ≤ 100)) (.invalidAuditRange "limit must be between 1 and 100")
  let found ← unavailable .managementAuditUnavailable (perform (Read.tenantExists tenantId))
  raiseWhen (found = false) .tenantAuditNotFound
  unavailable .managementAuditUnavailable
    (perform (Read.listForTenant tenantId range.1 range.2 limit.toNat))
where
  auditFailure : RangeFailure ManagementAudit.InvalidAuditRange → ReadError
    | .invalid e => .invalidAuditRange e.message
    | .overflow _ => .overflowError

/-- The runtime route `get_invocation`. -/
def getOwnInvocation (principal : RuntimePrincipal) (invocationId : Uuid) : Reader Invocation :=
  getOwned (perform (Read.invocationsGet invocationId))
    (fun invocation => invocation.runtimePrincipalId = principal.principalId &&
      invocation.tenantId = principal.tenantId && invocation.agentId = principal.agentId)
    (.invocationNotFound invocationId)

/-- The GET requests of the management plane. -/
inductive ManagementGet where
  | tenant (tenantId : Uuid)
  | agent (agentId : Uuid)
  | model (modelId : Uuid)
  | permission (permissionId : Uuid)
  | runtimeReport (tenantId : Uuid) (start «end» : Datetime)
  | auditRecords (tenantId : Uuid) (start «end» : Datetime) (limit : Int)

abbrev ManagementGet.Res : ManagementGet → Type
  | tenant _ => Tenant
  | agent _ => Agent
  | model _ => Model
  | permission _ => AgentModelPermission
  | runtimeReport .. => TenantRuntimeReport
  | auditRecords .. => List Record

def ManagementGet.program : (get : ManagementGet) → Reader get.Res
  | .tenant tenantId => getTenant principal tenantId
  | .agent agentId => getAgent principal agentId
  | .model modelId => getModel principal modelId
  | .permission permissionId => getPermission principal permissionId
  | .runtimeReport tenantId start «end» => getTenantRuntimeReport principal tenantId start «end»
  | .auditRecords tenantId start «end» limit => listAuditRecords principal tenantId start «end» limit

end Routes

/-! ## What tenants hold -/

structure Holdings where
  tenants : List TenantRow
  agents : List AgentRow
  models : List ModelRow
  permissions : List PermissionRow
  invocations : List InvocationRow
  audits : List Record
  deriving DecidableEq

/-- The rows of some tenants, and the audit records that carry one of them. -/
def holdings (tenantIds : Finset Uuid) (db : Db) : Holdings where
  tenants := db.tenants.rows.filter (·.id ∈ tenantIds)
  agents := db.agents.rows.filter (·.tenantId ∈ tenantIds)
  models := db.models.rows.filter (·.tenantId ∈ tenantIds)
  permissions := db.permissions.rows.filter (·.subject.tenantId ∈ tenantIds)
  invocations := db.invocations.rows.filter (·.tenantId ∈ tenantIds)
  audits := db.audits.filter (·.tenantId.any (· ∈ tenantIds))

/-- A scope sees what its tenants hold. -/
theorem holdings_of_sees {σ : Scope} {d d' : Db} (h : σ.sees d = σ.sees d') :
    holdings σ.tenantIds d = holdings σ.tenantIds d' := by
  have htenants := congrArg (fun v => v.tenants.filter (·.id ∈ σ.tenantIds)) h
  have hagents := congrArg (fun v => v.agents.rows) h
  have hmodels := congrArg (fun v => v.models.rows) h
  have hpermissions := congrArg Seen.permissions h
  have haudits := congrArg Seen.audits h
  have hinvocations : d.invocations.rows.filter (·.tenantId ∈ σ.tenantIds) =
      d'.invocations.rows.filter (·.tenantId ∈ σ.tenantIds) := by
    refine ledger_eq (fun r hr => ?_) h
    have howns : σ.owns r.tenantId = true := hr
    rw [Scope.ownsInvocation, howns, Bool.true_or]
  unfold holdings
  rw [Holdings.mk.injEq]
  exact ⟨htenants, hagents, hmodels, hpermissions, hinvocations, haudits⟩

/-! ## Rows of one's own -/

section Owned

variable {R α : Type} {load : R → Except ReadError (Option α)} {x x' : Option R} {p : R → Bool} {own : α → Bool}

/-- What a repository makes of the row it finds. -/
def loaded (load : R → Except ReadError (Option α)) : Option R → Except ReadError (Option α)
  | none => .ok none
  | some row => load row

/-- Of a row that is loaded, only one's own is left. -/
theorem loaded_own (hload : ∀ row ∈ x, ∃ o, load row = .ok o)
    (hown : ∀ row a, load row = .ok (some a) → own a = true → p row = true) :
    (loaded load x).map (·.filter own) =
      .ok (((x.filter p).bind fun row => (load row).toOption.join).filter own) := by
  cases x with
  | none => rfl
  | some row =>
    obtain ⟨o, ho⟩ := hload row rfl
    have hread : loaded load (some row) = .ok o := ho
    rw [hread, Option.filter_some]
    cases hp : p row with
    | true =>
      rw [if_pos rfl, Option.bind_some, ho]
      cases o <;> rfl
    | false =>
      cases o with
      | none => rfl
      | some a =>
        have hnot : own a = false := by
          by_contra hyes
          have hsatisfied := hown row a ho (by simpa using hyes)
          rw [hp] at hsatisfied
          cases hsatisfied
        show Except.ok ((some a).filter own) = .ok none
        rw [Option.filter_some, hnot]
        rfl

theorem loaded_congr (p : R → Bool) (hload : ∀ row ∈ x, ∃ o, load row = .ok o)
    (hload' : ∀ row ∈ x', ∃ o, load row = .ok o)
    (hown : ∀ row a, load row = .ok (some a) → own a = true → p row = true)
    (h : x.filter p = x'.filter p) :
    (loaded load x).map (·.filter own) = (loaded load x').map (·.filter own) := by
  rw [loaded_own hload hown, loaded_own hload' hown, h]

/-- The same of rows that are all resources. -/
theorem mapM_congr {load : R → Except ReadError α} (p : R → Bool) (hload : ∀ row ∈ x, ∃ a, load row = .ok a)
    (hload' : ∀ row ∈ x', ∃ a, load row = .ok a)
    (hown : ∀ row a, load row = .ok a → own a = true → p row = true) (h : x.filter p = x'.filter p) :
    (x.mapM load).map (·.filter own) = (x'.mapM load).map (·.filter own) := by
  have hmapM : ∀ x : Option R, x.mapM load = loaded (fun row => (load row).map some) x := by
    rintro (_ | row)
    · rfl
    · rw [Option.mapM_some]
      rfl
  have hsome : ∀ {row a}, load row = .ok a → (load row).map some = .ok (some a) := by
    intro row a ha
    rw [ha]
    rfl
  rw [hmapM, hmapM]
  refine loaded_congr p (fun row hrow => ?_) (fun row hrow => ?_) (fun row a ha => hown row a ?_) h
  · obtain ⟨a, ha⟩ := hload row hrow
    exact ⟨some a, hsome ha⟩
  · obtain ⟨a, ha⟩ := hload' row hrow
    exact ⟨some a, hsome ha⟩
  · cases hrow : load row with
    | error e =>
      rw [hrow] at ha
      cases ha
    | ok b =>
      rw [hsome hrow] at ha
      cases ha
      rfl

/-- A resource that is not the caller's is answered as none is. -/
theorem outcome_getOwned {q : Reader (Option α)} {missing : ReadError} {a : Answers Read Read.Res ReadError} :
    (getOwned q own missing).outcome a =
      (q.outcome a).map (·.filter own) >>= fun o => (present missing o).outcome a := by
  show ((q.bind (present missing)).bind fun resource =>
    (raiseWhen (own resource = false) missing).bind fun _ => .ret resource).outcome a = _
  rw [outcome_bind, outcome_bind]
  cases q.outcome a with
  | error e => rfl
  | ok o =>
    cases o with
    | none => rfl
    | some resource =>
      show ((raiseWhen (own resource = false) missing).bind fun _ => Prog.ret resource).outcome a =
        (present missing ((some resource).filter own)).outcome a
      rw [Option.filter_some]
      cases own resource <;> rfl

theorem alike_present {missing : ReadError} {a a' : Answers Read Read.Res ReadError} (o : Option α) :
    Alike a a' (present missing o) := by
  cases o <;> rfl

theorem getOwned_alike {q : Reader (Option α)} {missing : ReadError} {a a' : Answers Read Read.Res ReadError}
    (h : (q.outcome a).map (·.filter own) = (q.outcome a').map (·.filter own)) :
    Alike a a' (getOwned q own missing) := by
  have hpresent : (fun o : Option α => (present missing o).outcome a) = fun o => (present missing o).outcome a' :=
    funext alike_present
  unfold Alike
  rw [outcome_getOwned, outcome_getOwned, h, hpresent]

end Owned

/-! ## What is answered -/

/-- Some run of authenticated requests from the empty database has led there. -/
def Reachable (s : Service) (auth : RuntimeAuthenticationSettings) (db : Db) : Prop :=
  ∃ requests tr c, Authenticated auth requests ∧ RunFrom s requests Db.empty tr c ∧ c.world.db = db

theorem Reachable.loads {s : Service} {auth : RuntimeAuthenticationSettings} {db : Db}
    (h : Reachable s auth db) : Loads s.casefold db := by
  obtain ⟨requests, tr, c, hauth, hrun, rfl⟩ := h
  exact loads_of_run hauth hrun

theorem mem_of_authorizes {principal : AuthenticatedPrincipal} {tenantIds : Finset Uuid} {tenantId : Uuid}
    (hprincipal : principal.authorizedTenantIds ⊆ tenantIds) (h : principal.authorizes tenantId = true) :
    tenantId ∈ tenantIds := by
  unfold AuthenticatedPrincipal.authorizes at h
  rw [Bool.and_eq_true] at h
  exact hprincipal (of_decide_eq_true h.2)

section Statements

variable {casefold : String → String} {tenantIds : Finset Uuid} {db db' : Db}

theorem toAgent_tenantId {row : AgentRow} {a : Agent} (h : row.toAgent casefold = .ok a) :
    a.tenantId = row.tenantId := by
  obtain ⟨_, _, h⟩ := Except.bind_ok_cases h
  cases h
  rfl

theorem toModel_tenantId {row : ModelRow} {m : Model} (h : row.toModel casefold = .ok m) :
    m.tenantId = row.tenantId := by
  obtain ⟨_, _, h⟩ := Except.bind_ok_cases h
  obtain ⟨_, _, h⟩ := Except.bind_ok_cases h
  obtain ⟨_, _, h⟩ := Except.bind_ok_cases h
  cases h
  rfl

theorem toInvocation_tenantId {row : InvocationRow} {i : Invocation} (h : row.toInvocation = .ok (some i)) :
    i.tenantId = row.tenantId := by
  unfold InvocationRow.toInvocation at h
  split at h
  · split at h
    · cases h
    · obtain ⟨_, _, h⟩ := Except.bind_ok_cases h
      obtain ⟨_, _, h⟩ := Except.bind_ok_cases h
      obtain ⟨_, hnew, h⟩ := Except.bind_ok_cases h
      cases h
      rw [InvocationFields.postInit_eq (Invocation.new_ok hnew)]
  · cases h

variable (hload : Loads casefold db) (hload' : Loads casefold db')
  (h : holdings tenantIds db = holdings tenantIds db')

include hload hload' h

theorem fetch_agentsGet {own : Agent → Bool} (hown : ∀ a, own a = true → a.tenantId ∈ tenantIds) (agentId : Uuid) :
    (fetch casefold db (.agentsGet agentId)).map (·.filter own) =
      (fetch casefold db' (.agentsGet agentId)).map (·.filter own) := by
  have hagents : db.agents.rows.filter (·.tenantId ∈ tenantIds) =
      db'.agents.rows.filter (·.tenantId ∈ tenantIds) :=
    congrArg Holdings.agents h
  refine mapM_congr (·.tenantId ∈ tenantIds) (fun row hrow => hload.agents row (Table.find?_some hrow).1)
    (fun row hrow => hload'.agents row (Table.find?_some hrow).1) (fun row a ha howns => ?_) ?_
  · rw [← toAgent_tenantId ha]
    exact decide_eq_true (hown a howns)
  · rw [Table.filter_find?, Table.filter_find?, hagents]

theorem fetch_modelsGet {own : Model → Bool} (hown : ∀ m, own m = true → m.tenantId ∈ tenantIds) (modelId : Uuid) :
    (fetch casefold db (.modelsGet modelId)).map (·.filter own) =
      (fetch casefold db' (.modelsGet modelId)).map (·.filter own) := by
  have hmodels : db.models.rows.filter (·.tenantId ∈ tenantIds) =
      db'.models.rows.filter (·.tenantId ∈ tenantIds) :=
    congrArg Holdings.models h
  refine mapM_congr (·.tenantId ∈ tenantIds) (fun row hrow => hload.models row (Table.find?_some hrow).1)
    (fun row hrow => hload'.models row (Table.find?_some hrow).1) (fun row m hm howns => ?_) ?_
  · rw [← toModel_tenantId hm]
    exact decide_eq_true (hown m howns)
  · rw [Table.filter_find?, Table.filter_find?, hmodels]

theorem fetch_permissionsGet {own : AgentModelPermission → Bool}
    (hown : ∀ p, own p = true → p.tenantId ∈ tenantIds) (permissionId : Uuid) :
    (fetch casefold db (.permissionsGet permissionId)).map (·.filter own) =
      (fetch casefold db' (.permissionsGet permissionId)).map (·.filter own) := by
  have hpermissions : db.permissions.rows.filter (·.subject.tenantId ∈ tenantIds) =
      db'.permissions.rows.filter (·.subject.tenantId ∈ tenantIds) := congrArg Holdings.permissions h
  have hrow : ∀ {db : Db}, Loads casefold db → ∀ row ∈ db.permissions.rows.find? (·.id = permissionId),
      ∃ p, (permissionFromRow row).mapError (fun e => ReadError.valueError e.message) = .ok p := by
    intro db hload row hrow
    obtain ⟨p, hp⟩ := hload.permissions row (List.mem_of_find?_eq_some hrow)
    exact ⟨p, Except.mapError_eq_ok.mpr hp⟩
  have hfind : ∀ {db : Db}, Loads casefold db →
      (db.permissions.rows.find? (·.id = permissionId)).filter (·.subject.tenantId ∈ tenantIds) =
        (db.permissions.rows.filter (·.subject.tenantId ∈ tenantIds)).find? (·.id = permissionId) := by
    intro db hload
    refine List.filter_find?_of_unique fun r hr r' hr' hid hid' => hload.permissionIds r hr r' hr' ?_
    exact (of_decide_eq_true hid).trans (of_decide_eq_true hid').symm
  refine mapM_congr (·.subject.tenantId ∈ tenantIds) (hrow hload) (hrow hload') (fun row p hp howns => ?_) ?_
  · have hsubject := (permissionFromRow_id (Except.mapError_eq_ok.mp hp)).2
    have htenant : p.tenantId = row.subject.tenantId := congrArg Subject.tenantId hsubject
    rw [← htenant]
    exact decide_eq_true (hown p howns)
  · rw [hfind hload, hfind hload', hpermissions]

theorem fetch_invocationsGet {own : Invocation → Bool} (hown : ∀ i, own i = true → i.tenantId ∈ tenantIds)
    (invocationId : Uuid) :
    (fetch casefold db (.invocationsGet invocationId)).map (·.filter own) =
      (fetch casefold db' (.invocationsGet invocationId)).map (·.filter own) := by
  have hinvocations : db.invocations.rows.filter (·.tenantId ∈ tenantIds) =
      db'.invocations.rows.filter (·.tenantId ∈ tenantIds) := congrArg Holdings.invocations h
  have hfetch : ∀ db : Db, fetch casefold db (.invocationsGet invocationId) =
      loaded (fun row => row.toInvocation.mapError ReadError.invocation) (db.invocations.find? invocationId) := by
    intro db
    show (RuntimeGateway.getInvocation db.invocations invocationId).mapError ReadError.invocation = _
    unfold RuntimeGateway.getInvocation
    cases db.invocations.find? invocationId <;> rfl
  have hrow : ∀ {db : Db}, Loads casefold db → ∀ row ∈ db.invocations.find? invocationId,
      ∃ o, row.toInvocation.mapError ReadError.invocation = .ok o := by
    intro db hload row hrow
    obtain ⟨i, hi⟩ := hload.invocations row (Table.find?_some hrow).1
    exact ⟨some i, Except.mapError_eq_ok.mpr hi⟩
  rw [hfetch, hfetch]
  refine loaded_congr (·.tenantId ∈ tenantIds) (hrow hload) (hrow hload') (fun row i hi howns => ?_) ?_
  · rw [← toInvocation_tenantId (Except.mapError_eq_ok.mp hi)]
    exact decide_eq_true (hown i howns)
  · rw [Table.filter_find?, Table.filter_find?, hinvocations]

omit hload hload'

theorem tenants_find? {tenantId : Uuid} (ht : tenantId ∈ tenantIds) :
    db.tenants.find? tenantId = db'.tenants.find? tenantId := by
  have htenants : db.tenants.rows.filter (·.id ∈ tenantIds) = db'.tenants.rows.filter (·.id ∈ tenantIds) :=
    congrArg Holdings.tenants h
  have hkey : ∀ r : TenantRow, Keyed.key r = tenantId → decide (r.id ∈ tenantIds) = true := by
    rintro r rfl
    exact decide_eq_true ht
  rw [Table.find?_filter hkey, Table.find?_filter hkey, htenants]

theorem reportedRows_eq {tenantId : Uuid} (ht : tenantId ∈ tenantIds) (start «end» : Utc) :
    reportedRows db.invocations.rows tenantId start «end» = reportedRows db'.invocations.rows tenantId start «end» := by
  have hinvocations : db.invocations.rows.filter (·.tenantId ∈ tenantIds) =
      db'.invocations.rows.filter (·.tenantId ∈ tenantIds) := congrArg Holdings.invocations h
  refine List.filter_eq_of_filter_eq (fun r hr => ?_) hinvocations
  rw [Bool.and_eq_true, decide_eq_true_eq] at hr
  rw [hr.1]
  exact decide_eq_true ht

theorem auditedRows_eq {tenantId : Uuid} (ht : tenantId ∈ tenantIds) (start «end» : Utc) :
    auditedRows db.audits tenantId start «end» = auditedRows db'.audits tenantId start «end» := by
  have haudits : db.audits.filter (·.tenantId.any (· ∈ tenantIds)) =
      db'.audits.filter (·.tenantId.any (· ∈ tenantIds)) := congrArg Holdings.audits h
  refine List.filter_eq_of_filter_eq (fun r hr => ?_) haudits
  rw [Bool.and_eq_true, decide_eq_true_eq] at hr
  rw [hr.1]
  exact decide_eq_true ht

end Statements

/-- What the statements of a reader see: databases of runs, or nothing where a statement fails. -/
structure Views (s : Service) (auth : RuntimeAuthenticationSettings) (tenantIds : Finset Uuid)
    (seen seen' : Read → Option Db) : Prop where
  left : ∀ q, ∀ db ∈ seen q, Reachable s auth db
  right : ∀ q, ∀ db ∈ seen' q, Reachable s auth db
  same : ∀ q, (seen q).map (holdings tenantIds) = (seen' q).map (holdings tenantIds)

section Programs

variable {s : Service} {auth : RuntimeAuthenticationSettings} {tenantIds : Finset Uuid}
  {seen seen' : Read → Option Db}
  (hviews : Views s auth tenantIds seen seen')

include hviews

/-- A statement that does not tell databases apart in which the tenants hold the same. -/
theorem answers_congr {γ : Type} {q : Read} (g : Except ReadError q.Res → γ)
    (hfetch : ∀ db db', Loads s.casefold db → Loads s.casefold db' →
      holdings tenantIds db = holdings tenantIds db' →
        g (fetch s.casefold db q) = g (fetch s.casefold db' q)) :
    g (answers s.casefold seen q) = g (answers s.casefold seen' q) := by
  have hleft := hviews.left q
  have hright := hviews.right q
  have hsame := hviews.same q
  unfold answers
  cases hdb : seen q with
  | none =>
    rw [hdb, Option.map_none, eq_comm, Option.map_eq_none_iff] at hsame
    rw [hsame]
  | some db =>
    rw [hdb, Option.map_some, eq_comm, Option.map_eq_some_iff] at hsame
    obtain ⟨db', hdb', hholdings⟩ := hsame
    rw [hdb']
    exact hfetch db db' (hleft db hdb).loads (hright db' hdb').loads hholdings.symm

section Management

variable {principal : AuthenticatedPrincipal} (hprincipal : principal.authorizedTenantIds ⊆ tenantIds)

include hprincipal

theorem getTenant_alike (tenantId : Uuid) :
    Alike (answers s.casefold seen) (answers s.casefold seen') (getTenant principal tenantId) := by
  refine alike_raiseWhen fun hauthorized => alike_bind (alike_perform ?_) alike_present
  have ht : tenantId ∈ tenantIds := mem_of_authorizes hprincipal (by simpa using hauthorized)
  refine answers_congr hviews id fun db db' _ _ h => ?_
  exact congrArg (Option.mapM (TenantRow.toTenant s.casefold)) (tenants_find? h ht)

theorem getAgent_alike (agentId : Uuid) :
    Alike (answers s.casefold seen) (answers s.casefold seen') (getAgent principal agentId) := by
  refine getOwned_alike ?_
  rw [outcome_perform, outcome_perform]
  refine answers_congr (q := .agentsGet agentId) hviews (Except.map (Option.filter _))
    fun db db' hload hload' h => ?_
  exact fetch_agentsGet hload hload' h (fun a ha => mem_of_authorizes hprincipal ha) agentId

theorem getModel_alike (modelId : Uuid) :
    Alike (answers s.casefold seen) (answers s.casefold seen') (getModel principal modelId) := by
  refine getOwned_alike ?_
  rw [outcome_perform, outcome_perform]
  refine answers_congr (q := .modelsGet modelId) hviews (Except.map (Option.filter _))
    fun db db' hload hload' h => ?_
  exact fetch_modelsGet hload hload' h (fun m hm => mem_of_authorizes hprincipal hm) modelId

theorem getPermission_alike (permissionId : Uuid) :
    Alike (answers s.casefold seen) (answers s.casefold seen') (getPermission principal permissionId) := by
  refine getOwned_alike ?_
  rw [outcome_perform, outcome_perform]
  refine answers_congr (q := .permissionsGet permissionId) hviews (Except.map (Option.filter _))
    fun db db' hload hload' h => ?_
  exact fetch_permissionsGet hload hload' h (fun p hp => mem_of_authorizes hprincipal hp) permissionId

omit hprincipal in
theorem tenantExists_congr {tenantId : Uuid} (ht : tenantId ∈ tenantIds) :
    answers s.casefold seen (.tenantExists tenantId) = answers s.casefold seen' (.tenantExists tenantId) := by
  refine answers_congr hviews id fun db db' _ _ h => ?_
  exact congrArg (fun row => Except.ok row.isSome) (tenants_find? h ht)

theorem getTenantRuntimeReport_alike (tenantId : Uuid) (start «end» : Datetime) :
    Alike (answers s.casefold seen) (answers s.casefold seen')
      (getTenantRuntimeReport principal tenantId start «end») := by
  refine alike_raiseWhen fun hauthorized => alike_bind alike_lift fun range => ?_
  have ht : tenantId ∈ tenantIds := mem_of_authorizes hprincipal (by simpa using hauthorized)
  have hexists := tenantExists_congr hviews ht
  refine alike_bind (alike_mapError (alike_perform hexists)) fun found => ?_
  refine alike_raiseWhen fun _ => alike_mapError ?_
  have hrows : ∀ {db db' : Db}, holdings tenantIds db = holdings tenantIds db' →
      reportedRows db.invocations.rows tenantId range.1 range.2 =
        reportedRows db'.invocations.rows tenantId range.1 range.2 := fun h => reportedRows_eq h ht _ _
  refine alike_bind (alike_perform ?_) fun totals => alike_bind (alike_perform ?_) fun agentRows =>
    alike_bind (alike_perform ?_) fun modelRows => alike_pure _
  · exact answers_congr hviews id fun db db' _ _ h =>
      congrArg (fun rows => Except.ok (Ledger.totalsOf rows)) (hrows h)
  all_goals
    exact answers_congr hviews id fun db db' _ _ h =>
      congrArg (fun rows => Except.ok (breakdownStatement _ rows)) (hrows h)

theorem listAuditRecords_alike (tenantId : Uuid) (start «end» : Datetime) (limit : Int) :
    Alike (answers s.casefold seen) (answers s.casefold seen')
      (listAuditRecords principal tenantId start «end» limit) := by
  refine alike_raiseWhen fun _ => alike_raiseWhen fun hauthorized => alike_bind alike_lift fun range =>
    alike_raiseWhen fun _ => ?_
  have ht : tenantId ∈ tenantIds := mem_of_authorizes hprincipal (by simpa using hauthorized)
  have hexists := tenantExists_congr hviews ht
  refine alike_bind (alike_mapError (alike_perform hexists)) fun found => ?_
  refine alike_raiseWhen fun _ => alike_mapError (alike_perform ?_)
  refine answers_congr hviews id fun db db' _ _ h => ?_
  exact congrArg (fun records => Except.ok (Grouping.ranked auditOrder _ records)) (auditedRows_eq h ht _ _)

end Management

theorem getOwnInvocation_alike {principal : RuntimePrincipal} (hprincipal : principal.tenantId ∈ tenantIds)
    (invocationId : Uuid) :
    Alike (answers s.casefold seen) (answers s.casefold seen') (getOwnInvocation principal invocationId) := by
  refine getOwned_alike ?_
  rw [outcome_perform, outcome_perform]
  refine answers_congr (q := .invocationsGet invocationId) hviews (Except.map (Option.filter _))
    fun db db' hload hload' h => ?_
  refine fetch_invocationsGet hload hload' h (fun i hi => ?_) invocationId
  simp only [Bool.and_eq_true, decide_eq_true_eq] at hi
  rw [hi.1.2]
  exact hprincipal

end Programs

/-- A principal is answered what its tenants hold decides. Between two histories of the service
    in which they hold the same, whatever others have, no GET tells: not by what it returns, nor
    by how it fails. -/
theorem reads_isolated (s : Service) (auth : RuntimeAuthenticationSettings) (tenantIds : Finset Uuid)
    (seen seen' : Read → Option Db) (hviews : Views s auth tenantIds seen seen') :
    (∀ principal : AuthenticatedPrincipal, principal.authorizedTenantIds ⊆ tenantIds →
      ∀ get : ManagementGet, (get.program principal).outcome (answers s.casefold seen) =
        (get.program principal).outcome (answers s.casefold seen')) ∧
    ∀ principal : RuntimePrincipal, principal.tenantId ∈ tenantIds →
      ∀ invocationId, (getOwnInvocation principal invocationId).outcome (answers s.casefold seen) =
        (getOwnInvocation principal invocationId).outcome (answers s.casefold seen') := by
  refine ⟨fun principal hprincipal get => ?_, fun principal hprincipal invocationId =>
    getOwnInvocation_alike hviews hprincipal invocationId⟩
  cases get with
  | tenant tenantId => exact getTenant_alike hviews hprincipal tenantId
  | agent agentId => exact getAgent_alike hviews hprincipal agentId
  | model modelId => exact getModel_alike hviews hprincipal modelId
  | permission permissionId => exact getPermission_alike hviews hprincipal permissionId
  | runtimeReport tenantId start «end» =>
    exact getTenantRuntimeReport_alike hviews hprincipal tenantId start «end»
  | auditRecords tenantId start «end» limit =>
    exact listAuditRecords_alike hviews hprincipal tenantId start «end» limit

/-- What tenant 1 holds after its first two requests. -/
def exampleHoldings : Holdings where
  tenants := [⟨1, "Tenant", "Tenant", 0⟩]
  agents := [⟨2, 1, "Agent", "Agent", 0⟩]
  models := []
  permissions := []
  invocations := []
  audits := []

/-- With and without the requests of the neighbour. -/
theorem exampleHoldings_run (turns : List (Tid × Choice)) (ids : List Uuid)
    (h : (schedule database.exec ⟨World.ofDb Db.empty, fun i => exampleSpender.program (exampleNeighbours i)⟩
      turns).any (fun t => decide (t.2.world.db.agents.rows.map (·.id) = ids ∧
        holdings {1} t.2.world.db = exampleHoldings)) = true) :
    ∃ db, Reachable exampleSpender exampleAuthentication db ∧ db.agents.rows.map (·.id) = ids ∧
      holdings {1} db = exampleHoldings := by
  obtain ⟨tr, c, hrun, ht⟩ := schedule_any database.exec _ turns _ h
  obtain ⟨hids, hholdings⟩ := of_decide_eq_true ht
  exact ⟨c.world.db, ⟨exampleNeighbours, tr, c, exampleNeighbours_authenticated, hrun, rfl⟩, hids, hholdings⟩

/-- A principal of tenant 1. -/
def exampleReader : AuthenticatedPrincipal := ⟨7, 8, .management, {1}, true, by decide⟩

/-- The Agent 101 is the neighbour's, or it is no one's. -/
theorem reads_isolated_two : ∃ db db' : Db, db.agents.rows.map (·.id) = [101, 2] ∧
    db'.agents.rows.map (·.id) = [2] ∧
    (getAgent exampleReader 101).outcome (answers exampleSpender.casefold fun _ => some db) =
      (getAgent exampleReader 101).outcome (answers exampleSpender.casefold fun _ => some db') := by
  obtain ⟨db, hreach, hids, hholdings⟩ := exampleHoldings_run
    (turns 0 3 0 ++ turns 6 3 0 ++ turns 7 5 0 ++ turns 1 5 0) [101, 2] (by decide +kernel)
  obtain ⟨db', hreach', hids', hholdings'⟩ := exampleHoldings_run (turns 0 3 0 ++ turns 1 5 0) [2]
    (by decide +kernel)
  have hviews : Views exampleSpender exampleAuthentication {1} (fun _ => some db) (fun _ => some db') := by
    refine ⟨fun _ d hd => ?_, fun _ d hd => ?_, fun _ => ?_⟩
    · rwa [← Option.some.inj hd]
    · rwa [← Option.some.inj hd]
    · rw [Option.map_some, Option.map_some, hholdings, hholdings']
  have hreads := reads_isolated exampleSpender exampleAuthentication {1} _ _ hviews
  exact ⟨db, db', hids, hids', hreads.1 exampleReader (Finset.Subset.refl _) (.agent 101)⟩

end Valor.ControlPlane
