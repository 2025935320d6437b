/-
  Continuity facts and the live ledger.

  The service reads the `invocations` table of the gateway with queries of its own. They are
  here as the repository has them, over rows with NULLs, next to the query of the gateway's
  usage reader. `facts_agree`: what `inspect` counts, sums and compares is what it is
  called, and the sum is the usage that the reader returns for the day. `usage_agrees`:
  after a bind the usage of a principal is that of its identities together. An identity with
  U+0000 reaches neither query: both statements raise (`reads_inspect`, `reads_usage`).
-/
import Mathlib.Algebra.BigOperators.Group.Finset.Basic
import Valor.ControlPlane.Store
import Valor.Lib.Sql
import Valor.RuntimeIdentity.Preflight
import Valor.UtcDays

namespace Valor.Ledger

open Python Postgres Sql Interleave ReadCommitted
open RuntimeGateway (UsageWindow utcDayWindow)
open RuntimeIdentity (Db Service RuntimeInvocationContinuityFacts)

/-- A row of `invocations`, as the gateway writes it. -/
abbrev LedgerRow := RuntimeGateway.InvocationRow

/-! ## Queries -/

section Queries

variable (ledger : List LedgerRow)

/-- `started_at >= start AND started_at < end`. -/
def LedgerRow.inWindow (row : LedgerRow) (start «end» : Utc) : Truth :=
  .ofBool (start.instant ≤ row.startedAt.instant) &&&
    .ofBool (row.startedAt.instant < «end».instant)

/-- `runtime_principal_id = id`. -/
def LedgerRow.principalIs (row : LedgerRow) (id : String) : Truth :=
  test (fun principalId => principalId = id) row.runtimePrincipalId

/-- `runtime_principal_id IN ids`. -/
def LedgerRow.principalIn (row : LedgerRow) (ids : Finset String) : Truth :=
  test (fun principalId => principalId ∈ ids) row.runtimePrincipalId

/-- `tenant_id != tenant OR agent_id != agent`. -/
def LedgerRow.mismatch (row : LedgerRow) (tenantId agentId : Uuid) : Truth :=
  .ofBool (row.tenantId ≠ tenantId) ||| .ofBool (row.agentId ≠ agentId)

/-- `SELECT coalesce(sum(total_units), 0)` of the rows in the window that meet the condition
    and have a total. -/
def totalUnitsWhere (condition : LedgerRow → Truth) (start «end» : Utc) : Int :=
  coalesce (sum ((ledger.filter fun row =>
    (condition row &&& row.inWindow start «end» &&& isNotNull row.totalUnits).Holds).map
      (·.totalUnits))) 0

/-- `PostgresRuntimeUsageReader.consumed_total_units`. -/
def usageOfPrincipal (runtimePrincipalId : String) (windowStart windowEnd : Utc) : Int :=
  totalUnitsWhere ledger (·.principalIs runtimePrincipalId) windowStart windowEnd

/-- `SqlAlchemyRuntimeInvocationContinuity.consumed_total_units`. -/
def usageOfIdentities (identityIds : Finset String) (dayStart dayEnd : Utc) : Int :=
  totalUnitsWhere ledger (·.principalIn identityIds) dayStart dayEnd

/-- `SqlAlchemyRuntimeInvocationContinuity.inspect`. -/
def inspect (legacyId canonicalId : String) (tenantId agentId : Uuid) (dayStart dayEnd : Utc) :
    RuntimeInvocationContinuityFacts :=
  let rows := ledger.filter fun row =>
    (row.principalIs legacyId ||| row.principalIs canonicalId).Holds
  { historicalInvocationCount :=
      count (rows.map fun row => caseWhen (row.principalIs legacyId) (some 1) none)
    sameDayAttributedUsageUnits := coalesce (sum (rows.map fun row =>
      caseWhen (row.principalIs legacyId &&& row.inWindow dayStart dayEnd) row.totalUnits (some 0))) 0
    legacyBindingMismatch := coalesce (boolOr (rows.map fun row =>
      row.principalIs legacyId &&& row.mismatch tenantId agentId)) false
    canonicalBindingMismatch := coalesce (boolOr (rows.map fun row =>
      row.principalIs canonicalId &&& row.mismatch tenantId agentId)) false }

end Queries

/-! ## Sums of lists -/

theorem sum_map_filter {α : Type} (p : α → Bool) (f : α → Int) (xs : List α) :
    ((xs.filter p).map f).sum = (xs.map fun x => if p x then f x else 0).sum := by
  induction xs with
  | nil => rfl
  | cons x xs ih => by_cases hx : p x = true <;> simp [hx, ih]

theorem sum_filterMap {α : Type} (f : α → Option Int) (xs : List α) :
    (xs.filterMap f).sum = (xs.map fun x => (f x).getD 0).sum := by
  induction xs with
  | nil => rfl
  | cons x xs ih => cases hx : f x <;> simp [hx, ih]

/-- Sums over one list that are equal row by row. -/
theorem sum_congr {α : Type} {f g : α → Int} {xs : List α} (h : ∀ x, f x = g x) :
    (xs.map f).sum = (xs.map g).sum := by
  rw [funext h]

/-! ## What the queries return -/

section Results

variable {ledger : List LedgerRow} {row : LedgerRow} {id legacyId canonicalId : String}
  {ids : Finset String} {tenantId agentId : Uuid} {start stop : Utc}

@[simp] theorem holds_inWindow :
    (LedgerRow.inWindow row start stop).Holds ↔ row.startedIn start stop = true := by
  simp [LedgerRow.inWindow, RuntimeGateway.InvocationRow.startedIn]

@[simp] theorem holds_principalIs :
    (LedgerRow.principalIs row id).Holds ↔ row.runtimePrincipalId = some id := by
  simp [LedgerRow.principalIs]

@[simp] theorem holds_principalIn :
    (LedgerRow.principalIn row ids).Holds ↔ ∃ id ∈ ids, row.runtimePrincipalId = some id := by
  simp [LedgerRow.principalIn, and_comm]

@[simp] theorem holds_mismatch : (LedgerRow.mismatch row tenantId agentId).Holds ↔
    row.tenantId ≠ tenantId ∨ row.agentId ≠ agentId := by
  simp [LedgerRow.mismatch]

/-- What a row adds to the usage. -/
def LedgerRow.unitsIn (row : LedgerRow) (start stop : Utc) : Int :=
  if row.startedIn start stop then row.totalUnits.getD 0 else 0

/-- Rows that are not in the window, or have no total, add nothing. -/
theorem totalUnitsWhere_eq (condition : LedgerRow → Truth) :
    totalUnitsWhere ledger condition start stop =
      (ledger.map fun row =>
        if (condition row).Holds then LedgerRow.unitsIn row start stop else 0).sum := by
  unfold totalUnitsWhere
  rw [coalesce_sum, List.filterMap_map, sum_filterMap, sum_map_filter]
  refine sum_congr fun row => ?_
  by_cases hw : row.startedIn start stop = true <;> cases ht : row.totalUnits <;>
    simp [LedgerRow.unitsIn, hw, ht]

theorem usageOfPrincipal_eq : usageOfPrincipal ledger id start stop =
    RuntimeGateway.consumedTotalUnits ledger id start stop := by
  unfold usageOfPrincipal RuntimeGateway.consumedTotalUnits
  rw [totalUnitsWhere_eq, sum_filterMap, sum_map_filter]
  refine sum_congr fun row => ?_
  by_cases hp : row.runtimePrincipalId = some id <;> simp [LedgerRow.unitsIn, hp]

/-- A row is counted once, for the one identity that it has. -/
theorem usageOfIdentities_eq_sum : usageOfIdentities ledger ids start stop =
    ∑ id ∈ ids, usageOfPrincipal ledger id start stop := by
  unfold usageOfIdentities usageOfPrincipal
  simp only [totalUnitsWhere_eq, holds_principalIn, holds_principalIs]
  induction ledger with
  | nil => simp
  | cons row ledger ih =>
    simp only [List.map_cons, List.sum_cons, ih, Finset.sum_add_distrib]
    congr 1
    cases hp : row.runtimePrincipalId with
    | none => simp
    | some x => simp [Finset.sum_ite_eq]

end Results

/-! ## The rows that the service works on -/

attribute [ext] RuntimeInvocationContinuityFacts

/-- What the service reads of a row; a row without a principal is equal to none. -/
def LedgerRow.read (row : LedgerRow) : Option RuntimeIdentity.InvocationRow :=
  row.runtimePrincipalId.map fun id =>
    ⟨id, row.tenantId, row.agentId, row.startedAt, row.totalUnits⟩

/-- The store of the service, over this ledger. -/
def withLedger (db : Db) (ledger : List LedgerRow) : Db :=
  { db with invocations := ledger.filterMap LedgerRow.read }

section Store

variable {ledger : List LedgerRow} {db : Db} {legacyId canonicalId : String} {ids : Finset String}
  {tenantId agentId : Uuid} {start stop : Utc}

theorem sum_map_read (f : RuntimeIdentity.InvocationRow → Int) :
    ((ledger.filterMap LedgerRow.read).map f).sum =
      (ledger.map fun row => ((LedgerRow.read row).map f).getD 0).sum := by
  rw [List.map_filterMap, sum_filterMap]

theorem consumedTotalUnits_withLedger : (withLedger db ledger).consumedTotalUnits ids start stop =
    usageOfIdentities ledger ids start stop := by
  unfold usageOfIdentities Db.consumedTotalUnits Db.consumedRows withLedger
  rw [totalUnitsWhere_eq, sum_map_filter, sum_map_read]
  refine sum_congr fun row => ?_
  simp only [holds_principalIn]
  cases hp : row.runtimePrincipalId with
  | none => simp [LedgerRow.read, hp]
  | some x =>
    by_cases hx : x ∈ ids
    · cases ht : row.totalUnits <;>
        simp [LedgerRow.read, LedgerRow.unitsIn, RuntimeGateway.InvocationRow.startedIn, hp, hx, ht]
    · simp [LedgerRow.read, hp, hx]

theorem inspect_count : (inspect ledger legacyId canonicalId tenantId agentId start
    stop).historicalInvocationCount =
      ledger.countP fun row => row.runtimePrincipalId = some legacyId := by
  unfold inspect
  dsimp only
  rw [count_map_caseWhen, List.countP_filter]
  refine List.countP_congr fun row _ => ?_
  simpa using .inl

/-- A row of the canonical identity only is in the sum as zero. -/
theorem inspect_usage : (inspect ledger legacyId canonicalId tenantId agentId start
    stop).sameDayAttributedUsageUnits = usageOfPrincipal ledger legacyId start stop := by
  unfold inspect usageOfPrincipal
  dsimp only
  rw [totalUnitsWhere_eq, coalesce_sum, List.filterMap_map, sum_filterMap, sum_map_filter]
  refine sum_congr fun row => ?_
  by_cases hl : row.runtimePrincipalId = some legacyId
  · by_cases hw : row.startedIn start stop = true <;> simp [caseWhen, LedgerRow.unitsIn, hl, hw]
  · simp [caseWhen, hl]

/-- Some row of this identity is of another tenant or agent. -/
def Mismatched (ledger : List LedgerRow) (id : String) (tenantId agentId : Uuid) : Prop :=
  ∃ row ∈ ledger, row.runtimePrincipalId = some id ∧
    (row.tenantId ≠ tenantId ∨ row.agentId ≠ agentId)

theorem mismatch_iff {id : String} {among : LedgerRow → Bool}
    (hamong : ∀ row : LedgerRow, row.runtimePrincipalId = some id → among row = true) :
    coalesce (boolOr ((ledger.filter among).map fun row =>
      LedgerRow.principalIs row id &&& LedgerRow.mismatch row tenantId agentId)) false = true ↔
      Mismatched ledger id tenantId agentId := by
  rw [coalesce_boolOr, List.any_map, List.any_filter, List.any_eq_true]
  refine exists_congr fun row => and_congr_right fun _ => ?_
  simp only [Function.comp_apply, Bool.and_eq_true, decide_eq_true_eq, Truth.holds_and,
    holds_principalIs, holds_mismatch]
  exact ⟨And.right, fun h => ⟨hamong row h.1, h⟩⟩

theorem inspect_legacyMismatch : (inspect ledger legacyId canonicalId tenantId agentId start
    stop).legacyBindingMismatch = true ↔ Mismatched ledger legacyId tenantId agentId :=
  mismatch_iff fun row h => by simp [h]

theorem inspect_canonicalMismatch : (inspect ledger legacyId canonicalId tenantId agentId start
    stop).canonicalBindingMismatch = true ↔ Mismatched ledger canonicalId tenantId agentId :=
  mismatch_iff fun row h => by simp [h]

theorem mismatch_read_iff {id : String} {among : RuntimeIdentity.InvocationRow → Bool}
    (hamong : ∀ r, r.runtimePrincipalId = id → among r = true) :
    ((ledger.filterMap LedgerRow.read).filter among).any (fun r =>
      decide (r.runtimePrincipalId = id) &&
        (decide (r.tenantId ≠ tenantId) || decide (r.agentId ≠ agentId))) = true ↔
      Mismatched ledger id tenantId agentId := by
  rw [List.any_filter, List.any_filterMap, List.any_eq_true]
  refine exists_congr fun row => and_congr_right fun _ => ?_
  cases hp : row.runtimePrincipalId with
  | none => simp [LedgerRow.read, hp]
  | some x =>
    have hx := hamong ⟨x, row.tenantId, row.agentId, row.startedAt, row.totalUnits⟩
    simp [LedgerRow.read, hp]
    tauto

theorem inspect_withLedger : (withLedger db ledger).inspectInvocations legacyId canonicalId tenantId
    agentId start stop = inspect ledger legacyId canonicalId tenantId agentId start stop := by
  ext1
  · rw [inspect_count]
    unfold Db.inspectInvocations withLedger
    dsimp only
    rw [List.countP_filter, List.countP_filterMap]
    refine List.countP_congr fun row _ => ?_
    cases hp : row.runtimePrincipalId <;> simp [LedgerRow.read, hp]
    exact .inl
  · rw [inspect_usage]
    unfold Db.inspectInvocations withLedger usageOfPrincipal
    dsimp only
    rw [totalUnitsWhere_eq, sum_map_filter, sum_map_read]
    refine sum_congr fun row => ?_
    cases hp : row.runtimePrincipalId with
    | none => simp [LedgerRow.read, hp]
    | some x =>
      by_cases hx : x = legacyId <;>
        simp [LedgerRow.read, LedgerRow.unitsIn, RuntimeGateway.InvocationRow.startedIn, hp, hx]
  · rw [Bool.eq_iff_iff, inspect_legacyMismatch]
    exact mismatch_read_iff fun r h => by simp [h]
  · rw [Bool.eq_iff_iff, inspect_canonicalMismatch]
    exact mismatch_read_iff fun r h => by simp [h]

end Store

/-! ## Statements -/

/-- The statement only reads, and this is its answer. -/
def Reads {Db Lock Err α : Type} (statement : Stmt Db Lock Err α) (db : Db) (answer : Except Err α) :
    Prop :=
  ∃ f, statement = .query f ∧ f db = answer

theorem Reads.unique {Db Lock Err α : Type} {statement : Stmt Db Lock Err α} {db : Db}
    {answer answer' : Except Err α} (h : Reads statement db answer) (h' : Reads statement db answer') :
    answer = answer' := by
  obtain ⟨f, hf, rfl⟩ := h
  obtain ⟨f', hf', rfl⟩ := h'
  cases hf.symm.trans hf'
  rfl

section Statements

variable {ledger : List LedgerRow} {start stop : Utc}

theorem column_text_bind {Err α : Type} (e : Err) (id : String) (f : String → Except Err α) :
    (column e (text id) >>= f) = if hasNul id then .error e else f id := by
  by_cases h : hasNul id = true
  · rw [if_pos h, text, if_pos h]
    rfl
  · rw [if_neg h, text_of (by simpa using h)]
    rfl

/-- The statement of the usage reader. -/
theorem reads_usage (ch : ControlPlane.Choice) {db : ControlPlane.Db} (h : db.invocations.rows = ledger)
    (id : String) : Reads (ControlPlane.stmt ch (.consumedTotalUnits id start stop)) db
      (if hasNul id then .error .database else .ok (usageOfPrincipal ledger id start stop)) := by
  refine ⟨_, rfl, ?_⟩
  rw [usageOfPrincipal_eq, ← h]
  exact column_text_bind _ id _

/-- The statement of the continuity facts. -/
theorem reads_inspect (db : Db) (legacyId canonicalId : String) (tenantId agentId : Uuid) :
    Reads (RuntimeIdentity.stmt (.inspectInvocations legacyId canonicalId tenantId agentId start stop))
      (withLedger db ledger) (if hasNul legacyId || hasNul canonicalId then .error .database else
        .ok (inspect ledger legacyId canonicalId tenantId agentId start stop)) := by
  have hledger : (withLedger db ledger).inspectInvocations legacyId canonicalId tenantId agentId start
      stop = inspect ledger legacyId canonicalId tenantId agentId start stop := inspect_withLedger
  refine ⟨_, rfl, ?_⟩
  rw [← hledger, column_text_bind, column_text_bind]
  cases hasNul legacyId <;> cases hasNul canonicalId <;> rfl

end Statements

/-! ## Days -/

/-- The day of `_continuity_preflight`. -/
def continuityDay (now : Aware) : Except TimeError UsageWindow := do
  let dayStart ← continuityDayStart now
  let dayEnd ← orTimeError dayStart.addDay
  return ⟨dayStart, dayEnd⟩

/-- The two computations of the day are the same, and fail at the same times. -/
theorem continuityDay_eq (now : Aware) : continuityDay now = utcDayWindowOf (.aware now) := by
  unfold continuityDay utcDayWindowOf continuityDayStart utcDayWindow
  dsimp only
  cases hutc : now.astimezone with
  | error e => rfl
  | ok utcNow =>
    show (orTimeError utcNow.midnight.addDay >>= _) = orTimeError (utcNow.midnight.addDay >>= _)
    cases utcNow.midnight.addDay <;> rfl

/-! ## After a bind -/

section Bound

variable {s : Service} {requests : Tid → RuntimeIdentity.Request} {db db₀ : Db}
  {tr : List RuntimeIdentity.RunLabel} {c : RuntimeIdentity.RunConfig} {i : Tid}
  {bind : RuntimeIdentity.RuntimeIdentityContinuityCommand} {ledger : List LedgerRow}
  {actor : RuntimeIdentity.RuntimeIdentityActor} {p : RuntimeIdentity.RuntimePrincipal} {k : Uuid}
  {start stop : Utc}

/-- A bind that has committed has bound its principal, in all states from then on. -/
theorem run_bound (h : Run RuntimeIdentity.database.exec
      ⟨World.ofDb db₀, fun i => s.handle (requests i)⟩ tr c)
    (hi : committed i ∈ tr) (hbind : (requests i).command = .bindIdentityContinuity bind) :
    hasNul (strip bind.legacyRuntimePrincipalId) = false ∧
      ∃ row, c.world.db.principals.find? bind.principalId = some row ∧
        row.legacyRuntimePrincipalId = some (strip bind.legacyRuntimePrincipalId) := by
  induction h with
  | nil => cases hi
  | @snoc c c' tr l init hs ih =>
    have hstep := RuntimeIdentity.step_commits init hs
    rcases List.mem_append.mp hi with hi | hi
    · -- It has committed before, and no commit takes a legacy identity back.
      obtain ⟨hnul, row, hrow, hlegacy⟩ := ih hi
      obtain ⟨row', hrow', hlater⟩ :=
        (hstep.rel .refl fun hmet => hmet.disciplined.grows).principals _ _ hrow
      exact ⟨hnul, row', hrow', (hlater.continuity (by rw [hlegacy]; rfl)).1.trans hlegacy⟩
    · obtain rfl := List.mem_singleton.mp hi
      rcases hstep.label_cases with ⟨_, ⟨a, reply, change, records, hcommit⟩, hw⟩ | ⟨hne, _⟩
      · have hdoes := hcommit.does
        have hread := hcommit.observed.read
        rw [show (requests (committed i).tid).command = _ from hbind] at hdoes hread
        rw [hw, db_commit, show _ = (change.apply _).appendAudits records from hcommit.view]
        cases hdoes with
        | @bound _ principal _ _ values _ _ found _ _ legacy_text _ _ bound_ok row_ok _ matched _ =>
          obtain ⟨hid, hlegacy⟩ := RuntimeIdentity.bindIdentityContinuity_ok bound_ok
          obtain ⟨hvaluesId, hvaluesLegacy⟩ := RuntimeIdentity.ofPrincipal_ok row_ok
          obtain ⟨_, _, hkey, rfl⟩ := RuntimeIdentity.getPrincipal_some (hread.symm.trans found)
          have hk : values.principalId = bind.principalId := hvaluesId.trans (hid.trans hkey)
          obtain ⟨row, hrow, hunbound⟩ := (Option.any_eq_true ..).mp matched
          replace hrow : c.world.db.principals.find? bind.principalId = some row := by
            rw [← hid.trans hkey]
            exact hrow
          have hfind : (Db.bindIdentityContinuity c.world.db values).principals.find? _ = _ :=
            Table.find?_modify c.world.db.principals _ _ (fun r => by split <;> rfl) bind.principalId
          rw [if_pos hk.symm, hrow, Option.map_some, if_pos hunbound] at hfind
          have hnul := (hasNul_strip bind.legacyRuntimePrincipalId).trans (text_ok legacy_text).1
          exact ⟨hnul, _, hfind, hvaluesLegacy.trans hlegacy⟩
      · exact absurd rfl (hne i)

theorem usageTotal_alone (db : Db) (hactor : actor.canManagePrincipals = true)
    (hp : db.getPrincipal k = some p) :
    RuntimeIdentity.alone (Service.continuityUsageTotal actor k start stop) db =
      (.ok (db.consumedTotalUnits p.continuityIdentityIds start stop), db) := by
  refine RuntimeIdentity.alone_eq ?_
  have hw : Sole 0 db [] (World.ofDb db : World Db RuntimeIdentity.Lock) := sole_ofDb db
  unfold Service.continuityUsageTotal Service.requireManager
  refine ends_raiseWhen (by simp [hactor]) (ends_unitOfWork ?_)
  refine ends_query rfl rfl hw (congrArg Except.ok hp) ?_
  dsimp only
  rw [← Prog.bind_ret (sql _)]
  exact ends_query rfl rfl hw rfl (yields_ret hw)

end Bound

/-! ## Agreement -/

/-- What the service reads of the ledger for the two identities at a time, and what is there. -/
structure FactsAgree (ledger : List LedgerRow) (legacyId canonicalId : String)
    (tenantId agentId : Uuid) (now : Aware) : Prop where
  day : continuityDay now = utcDayWindowOf (.aware now)
  count : ∀ window, continuityDay now = .ok window →
    (inspect ledger legacyId canonicalId tenantId agentId window.start
      window.end).historicalInvocationCount =
        ledger.countP fun row => row.runtimePrincipalId = some legacyId
  usage : ∀ window, utcDayWindowOf (.aware now) = .ok window →
    (inspect ledger legacyId canonicalId tenantId agentId window.start
      window.end).sameDayAttributedUsageUnits =
        usageOfPrincipal ledger legacyId window.start window.end
  legacy : ∀ window, continuityDay now = .ok window →
    ((inspect ledger legacyId canonicalId tenantId agentId window.start
      window.end).legacyBindingMismatch = true ↔ Mismatched ledger legacyId tenantId agentId)
  canonical : ∀ window, continuityDay now = .ok window →
    ((inspect ledger legacyId canonicalId tenantId agentId window.start
      window.end).canonicalBindingMismatch = true ↔ Mismatched ledger canonicalId tenantId agentId)

/-- `continuity_usage_total` of the principal, over any window of any ledger, is the sum of what
    the reader returns for its identities. -/
def UsageAgrees (ledger : List LedgerRow) (db : Db)
    (bind : RuntimeIdentity.RuntimeIdentityContinuityCommand) : Prop :=
  ∃ p, db.getPrincipal bind.principalId = some p ∧
    p.continuityIdentityIds = {bind.principalId.str, strip bind.legacyRuntimePrincipalId} ∧
    (∀ id ∈ p.continuityIdentityIds, hasNul id = false) ∧
    ∀ actor : RuntimeIdentity.RuntimeIdentityActor, actor.canManagePrincipals = true →
      ∀ start stop, RuntimeIdentity.alone
          (Service.continuityUsageTotal actor bind.principalId start stop) (withLedger db ledger) =
        (.ok (∑ id ∈ p.continuityIdentityIds, usageOfPrincipal ledger id start stop),
          withLedger db ledger)

theorem facts_agree (ledger : List LedgerRow) (legacyId canonicalId : String)
    (tenantId agentId : Uuid) (now : Aware) :
    FactsAgree ledger legacyId canonicalId tenantId agentId now :=
  ⟨continuityDay_eq now, fun _ _ => inspect_count, fun _ _ => inspect_usage,
    fun _ _ => inspect_legacyMismatch, fun _ _ => inspect_canonicalMismatch⟩

theorem usage_agrees {s : Service} {requests : Tid → RuntimeIdentity.Request} {db₀ : Db}
    {tr : List RuntimeIdentity.RunLabel} {c : RuntimeIdentity.RunConfig} {i : Tid}
    {bind : RuntimeIdentity.RuntimeIdentityContinuityCommand} (ledger : List LedgerRow)
    (h : Run RuntimeIdentity.database.exec ⟨World.ofDb db₀, fun i => s.handle (requests i)⟩ tr c)
    (hi : committed i ∈ tr) (hbind : (requests i).command = .bindIdentityContinuity bind) :
    UsageAgrees ledger c.world.db bind := by
  obtain ⟨hnul, row, hrow, hlegacy⟩ := run_bound h hi hbind
  have hkey : row.principalId = bind.principalId := (Table.find?_some hrow).2
  have hp : c.world.db.getPrincipal bind.principalId = some (RuntimeIdentity.principalFromRow row) := by
    rw [Db.getPrincipal, hrow]
    rfl
  have hids : (RuntimeIdentity.principalFromRow row).continuityIdentityIds =
      {bind.principalId.str, strip bind.legacyRuntimePrincipalId} := by
    simp [RuntimeIdentity.RuntimePrincipal.continuityIdentityIds, RuntimeIdentity.principalFromRow,
      hkey, hlegacy]
  refine ⟨_, hp, hids, fun id hid => ?_, fun actor hactor start stop => ?_⟩
  · rw [hids, Finset.mem_insert, Finset.mem_singleton] at hid
    rcases hid with rfl | rfl
    · exact Uuid.hasNul_str bind.principalId
    · exact hnul
  · rw [usageTotal_alone (withLedger c.world.db ledger) hactor hp, consumedTotalUnits_withLedger,
      usageOfIdentities_eq_sum]

/-- The facts are those of the ledger, whatever its rows, and so is the usage after a bind. The
    reader's query is what the gateway's handler reads. An identity with U+0000 is refused by
    both statements before either query. -/
theorem continuity_agrees (ledger : List LedgerRow) :
    (∀ id start stop, usageOfPrincipal ledger id start stop =
        RuntimeGateway.consumedTotalUnits ledger id start stop ∧
      ∀ ch (db : ControlPlane.Db), db.invocations.rows = ledger →
        Reads (ControlPlane.stmt ch (.consumedTotalUnits id start stop)) db
          (if hasNul id then .error .database else .ok (usageOfPrincipal ledger id start stop))) ∧
    (∀ legacyId canonicalId tenantId agentId now,
      FactsAgree ledger legacyId canonicalId tenantId agentId now ∧
        ∀ db start stop,
          (withLedger db ledger).inspectInvocations legacyId canonicalId tenantId agentId start stop =
            inspect ledger legacyId canonicalId tenantId agentId start stop ∧
          Reads (RuntimeIdentity.stmt
              (.inspectInvocations legacyId canonicalId tenantId agentId start stop))
            (withLedger db ledger) (if hasNul legacyId || hasNul canonicalId then .error .database else
              .ok (inspect ledger legacyId canonicalId tenantId agentId start stop))) ∧
    ∀ (s : Service) (requests : Tid → RuntimeIdentity.Request) db₀ tr c i bind,
      Run RuntimeIdentity.database.exec ⟨World.ofDb db₀, fun i => s.handle (requests i)⟩ tr c →
      committed i ∈ tr → (requests i).command = .bindIdentityContinuity bind →
        UsageAgrees ledger c.world.db bind :=
  ⟨fun id _ _ => ⟨usageOfPrincipal_eq, fun ch _ h => reads_usage ch h id⟩,
    fun legacyId canonicalId tenantId agentId now =>
      ⟨facts_agree ledger legacyId canonicalId tenantId agentId now, fun db _ _ =>
        ⟨inspect_withLedger, reads_inspect db legacyId canonicalId tenantId agentId⟩⟩,
    fun _ _ _ _ _ _ _ h hi hbind => usage_agrees ledger h hi hbind⟩

/-- A row of the agent with this principal and total, at the first instant. -/
def ledgerRow (principalId : Option String) (agentId : Uuid) (totalUnits : Option Int) : LedgerRow where
  id := 0
  tenantId := 5
  agentId := agentId
  modelId := 7
  status := "succeeded"
  inputText := "text"
  outputText := none
  startedAt := 0
  completedAt := 0
  policyDecisionId := none
  runtimePrincipalId := principalId
  durationMs := none
  inputUnits := none
  outputUnits := none
  totalUnits := totalUnits
  providerResponseId := none
  usageConsumedUnits := none
  usageLimitUnits := none
  usageAllowanceUnits := none
  usageWindowStart := none
  usageWindowEnd := none
  costCurrency := none
  costInput := none
  costOutput := none
  costTotal := none
  pricingVersion := none
  pricingBasisUnits := none
  pricingInputRate := none
  pricingOutputRate := none
  costBudgetConsumed := none
  costBudgetLimit := none
  costBudgetAllowance := none
  costBudgetWindowStart := none
  costBudgetWindowEnd := none

/-- Rows of the static identity `abc`, of principal 1 and of no principal. -/
def exampleLedger : List LedgerRow :=
  [ledgerRow (some "abc") 6 (some 7), ledgerRow (some "abc") 6 none, ledgerRow none 6 (some 9),
    ledgerRow (some (1 : Uuid).str) 8 (some 4)]

/-- Principal 1 is bound to `abc`, and its usage then has both identities in it. -/
theorem continuity_agrees_bound : ∃ tr c,
    Run RuntimeIdentity.database.exec ⟨World.ofDb RuntimeIdentity.twoPrincipals, fun i =>
      RuntimeIdentity.exampleService.handle (RuntimeIdentity.plainClaims i).request⟩ tr c ∧
    FactsAgree exampleLedger "abc" (1 : Uuid).str 5 6 (5 : Utc) ∧
    UsageAgrees exampleLedger c.world.db ⟨RuntimeIdentity.manager, 1, "abc"⟩ := by
  obtain ⟨tr, c, hrun, ht⟩ := schedule_any RuntimeIdentity.database.exec
    ⟨World.ofDb RuntimeIdentity.twoPrincipals, fun i =>
      RuntimeIdentity.exampleService.handle (RuntimeIdentity.plainClaims i).request⟩
    (RuntimeIdentity.steps 0 10) (fun (tr, _) => tr.any (isCommit 0)) (by decide +kernel)
  obtain ⟨l, hl, hcommit⟩ := List.any_eq_true.mp ht
  have hcommitted : committed 0 ∈ tr := eq_committed hcommit ▸ hl
  obtain ⟨_, hfacts, husage⟩ := continuity_agrees exampleLedger
  exact ⟨tr, c, hrun, (hfacts _ _ _ _ _).1, husage _ _ _ _ _ 0 _ hrun hcommitted rfl⟩

/-- A legacy identity with U+0000 has no facts: the statement raises. -/
theorem inspect_refuses_nul : ¬∃ facts, Reads
    (RuntimeIdentity.stmt (.inspectInvocations "\x00" (1 : Uuid).str 5 6 0 1))
    (withLedger RuntimeIdentity.twoPrincipals exampleLedger) (.ok facts) := by
  rintro ⟨facts, h⟩
  have hraises := h.unique (reads_inspect RuntimeIdentity.twoPrincipals "\x00" (1 : Uuid).str 5 6)
  rw [if_pos (by decide)] at hraises
  cases hraises

end Valor.Ledger
