/-
  Reports while Invocations are committed.

  `get_report` executes three statements in one session at READ COMMITTED: the totals, then
  the breakdown by Agent, then the one by Model. Each sees the ledger of its own moment.
  The ledger only grows, and by exactly the Invocations that the trace shows committed, so
  a breakdown exceeds the totals by those committed between the two statements: the report
  agrees with itself exactly when there are none.
-/
import Valor.Lib.Embedding
import Valor.Lib.Transaction
import Valor.RuntimeGateway.Reporting

namespace Valor.RuntimeGateway.Ledger

open Python Postgres Prog Interleave ReadCommitted

/-! ## Statements -/

inductive Sql where
  | invocationsAdd (invocation : Invocation)
  | totals (tenantId : Uuid) (start «end» : Utc)
  | agentBreakdown (tenantId : Uuid) (start «end» : Utc)
  | modelBreakdown (tenantId : Uuid) (start «end» : Utc)

abbrev Totals := InvocationCounts × UsageTotals × EstimatedCostTotals

abbrev Sql.Res : Sql → Type
  | invocationsAdd _ => Unit
  | totals .. => Totals
  | _ => List CostBreakdown

inductive LedgerError where
  /-- A SQLAlchemyError. -/
  | database
  | runtimeReportUnavailable
  deriving DecidableEq

def totalsOf (rows : List InvocationRow) : Totals :=
  (invocationCounts rows, usageTotals rows, estimatedCostTotals rows)

def stmt : (q : Sql) → Stmt (Table InvocationRow) Uuid LedgerError q.Res
  | .invocationsAdd i =>
      .change (fun _ _ => [i.id]) fun _ ledger => do
        let row ← column .database (InvocationRow.ofInvocation i)
        column .database row.checks
        constraint .database (ledger.find? i.id = none)
        return ((), fun ledger => ledger.insert row)
  | .totals tenantId start «end» => .query fun ledger =>
      .ok (totalsOf (reportedRows ledger.rows tenantId start «end»))
  | .agentBreakdown tenantId start «end» => .query fun ledger =>
      .ok (breakdownStatement (·.agentId) (reportedRows ledger.rows tenantId start «end»))
  | .modelBreakdown tenantId start «end» => .query fun ledger =>
      .ok (breakdownStatement (·.modelId) (reportedRows ledger.rows tenantId start «end»))

/-- The choice is whether an operation fails. -/
def database : Database (Table InvocationRow) Uuid Sql Sql.Res LedgerError Bool where
  stmt _ _ q := stmt q
  fails ch := ch
  failure := .database

/-! ## Requests -/

abbrev Program := Transaction Sql Sql.Res LedgerError

/-- The report of what the statements have answered. -/
def reportOf (tenantId : Uuid) (start «end» : Utc) (totals : Totals)
    (agentRows modelRows : List CostBreakdown) : TenantRuntimeReport where
  tenantId := tenantId
  start := start
  «end» := «end»
  invocations := totals.1
  usage := totals.2.1
  estimatedCost := totals.2.2
  topAgentsByEstimatedCost := agentRows.take topN
  topModelsByEstimatedCost := modelRows.take topN
  agentBreakdownTruncated := agentRows.length > topN
  modelBreakdownTruncated := modelRows.length > topN

/-- `get_report`, in its session. -/
def getReport (tenantId : Uuid) (start «end» : Utc) : Program TenantRuntimeReport :=
  (unitOfWork do
    let totals ← sql (.totals tenantId start «end»)
    let agentRows ← sql (.agentBreakdown tenantId start «end»)
    let modelRows ← sql (.modelBreakdown tenantId start «end»)
    return reportOf tenantId start «end» totals agentRows modelRows).mapError
      fun _ => .runtimeReportUnavailable

/-- `_persist`. -/
def persist (invocation : Invocation) : Program Unit :=
  unitOfWork do
    sql (Sql.invocationsAdd invocation)
    commit

inductive Request where
  | report (tenantId : Uuid) (start «end» : Utc)
  | persist (invocation : Invocation)

inductive Reply where
  | report (report : TenantRuntimeReport)
  | persisted

def program : Request → Program Reply
  | .report tenantId start «end» => .report <$> getReport tenantId start «end»
  | .persist invocation => (fun _ => .persisted) <$> persist invocation

/-- Where no other transaction commits, the report is the one of a single snapshot. -/
theorem getReport_eq (rows : List InvocationRow) (tenantId : Uuid) (start «end» : Utc) :
    RuntimeGateway.getReport rows tenantId start «end» =
      reportOf tenantId start «end» (totalsOf (reportedRows rows tenantId start «end»))
        (breakdownStatement (·.agentId) (reportedRows rows tenantId start «end»))
        (breakdownStatement (·.modelId) (reportedRows rows tenantId start «end»)) := rfl

abbrev Config := Interleave.Config (World (Table InvocationRow) Uuid) (Op Sql) (Op.Res Sql.Res)
  LedgerError Reply

abbrev Label := Interleave.Label (Op Sql) (Op.Res Sql.Res) LedgerError

abbrev Event := Prog.Event (Op Sql) (Op.Res Sql.Res) LedgerError

/-- A run of the requests from a ledger. -/
def RunFrom (requests : Tid → Request) (ledger : Table InvocationRow) (tr : List Label)
    (c : Config) : Prop :=
  Interleave.Run database.exec ⟨World.ofDb ledger, fun i => program (requests i)⟩ tr c

/-- The row that a step has committed. -/
def committedRow (requests : Tid → Request) (l : Label) : Option InvocationRow :=
  if isCommit l.tid l then
    match requests l.tid with
    | .persist invocation => (InvocationRow.ofInvocation invocation).toOption
    | .report .. => none
  else none

/-- The rows that the steps of a trace have committed. -/
def committedRows (requests : Tid → Request) (tr : List Label) : List InvocationRow :=
  tr.filterMap (committedRow requests)

/-! ## What the threads do -/

section Threads

variable {requests : Tid → Request} {ledger : Table InvocationRow} {i : Tid}
  {v : Traced (Table InvocationRow) Uuid Sql Sql.Res LedgerError}

/-- Nothing but the row of a locked id is protected. -/
def discipline : Discipline (Table InvocationRow) Uuid :=
  ⟨fun id t t' => t'.find? id = t.find? id, fun _ _ _ => True, fun _ _ => True⟩

theorem lawful : Lawful discipline where
  same_refl _ _ := rfl
  same_trans _ _ _ _ h h' := h'.trans h
  still_refl _ _ := trivial
  still_trans _ _ _ _ _ _ := trivial
  grows_refl _ := trivial
  grows_trans _ _ _ _ _ := trivial

theorem ofInvocation_id {invocation : Invocation} {row : InvocationRow}
    (h : InvocationRow.ofInvocation invocation = .ok row) : row.id = invocation.id := by
  unfold InvocationRow.ofInvocation at h
  iterate 22 obtain ⟨_, _, h⟩ := Except.bind_ok_cases h
  cases h
  rfl

theorem stmt_within (q : Sql) : (stmt q).Within discipline.same := by
  cases q with
  | invocationsAdd invocation =>
    intro seen t a f h id hid t'
    obtain ⟨row, hrow, h⟩ := Except.bind_ok_cases h
    obtain ⟨_, _, h⟩ := Except.bind_ok_cases h
    obtain ⟨_, _, h⟩ := Except.bind_ok_cases h
    cases h
    refine Table.find?_insert_of_ne fun he => hid ?_
    rw [← he]
    exact List.mem_singleton.mpr (ofInvocation_id (column_ok hrow))
  | _ => trivial

/-- A commit adds the row of its Invocation, whose id is new. -/
def Commits (requests : Tid → Request) (i : Tid)
    (v : Traced (Table InvocationRow) Uuid Sql Sql.Res LedgerError) : Prop :=
  match requests i with
  | .persist invocation => ∃ row, InvocationRow.ofInvocation invocation = .ok row ∧
      v.1.db.find? row.id = none ∧ v.1.view i = v.1.db.insert row
  | .report .. => False

/-- A report has written nothing before any of its statements. -/
def Reads (requests : Tid → Request) (i : Tid) (op : Op Sql)
    (v : Traced (Table InvocationRow) Uuid Sql Sql.Res LedgerError) : Prop :=
  match requests i, op with
  | .report .., .sql _ => (v.1.txn i).writes = []
  | _, _ => True

/-- What a thread has returned: a report is made of the answers of its statements. -/
def Returned (requests : Tid → Request) (i : Tid) (r : Except LedgerError Reply)
    (evs : List Event) : Prop :=
  match r with
  | .ok (.report report) => ∃ tenantId start «end» totals agentRows modelRows,
      requests i = .report tenantId start «end» ∧
      evs = [⟨.sql (.totals tenantId start «end»), .ok totals⟩,
        ⟨.sql (.agentBreakdown tenantId start «end»), .ok agentRows⟩,
        ⟨.sql (.modelBreakdown tenantId start «end»), .ok modelRows⟩, ⟨.rollback, .ok ()⟩] ∧
      report = reportOf tenantId start «end» totals agentRows modelRows
  | _ => True

theorem persist_follows {invocation : Invocation} (hi : requests i = .persist invocation) :
    Follows database discipline ledger (Commits requests i) (Reads requests i) i
      (fun r evs _ => Returned requests i r evs) (program (requests i)) (World.ofDb ledger, []) := by
  have hB : ∀ op v, Reads requests i op v := by
    intro op v
    unfold Reads
    rw [hi]
    trivial
  rw [hi]
  refine follows_map (P := fun _ _ _ => True) (fun _ _ _ _ => trivial) (fun _ _ _ _ => trivial) ?_
  refine follows_unitOfWork (fun _ _ _ => hB _ _) (fun _ _ _ _ => trivial)
    (fun _ _ _ _ _ _ => trivial) ?_
  refine follows_change (fun _ => rfl) lasting_true (knows_start ledger) (fun _ _ => hB _ _)
    (fun _ _ _ _ _ _ => trivial) fun v _ g seen hv _ hact => ?_
  obtain ⟨row, hrow, hact⟩ := Except.bind_ok_cases hact
  obtain ⟨_, _, hact⟩ := Except.bind_ok_cases hact
  obtain ⟨_, hnew, hact⟩ := Except.bind_ok_cases hact
  cases hact
  have hnew : v.1.db.find? invocation.id = none := constraint_ok hnew
  have hrow := column_ok hrow
  -- The key is locked, so it is still new when the row is committed.
  have hlasting : Lasting discipline [invocation.id]
      fun t : Table InvocationRow => t.find? invocation.id = none :=
    lasting_of_mem List.mem_cons_self fun t t' h hsame => hsame.trans h
  have hret : (commit : Program Unit) = commit.bind fun _ => .ret () := (bind_ret _).symm
  rw [hret]
  refine follows_commit (P := fun _ _ _ => True) hlasting ⟨hv.own, hv.writes, hv.owned, hnew⟩ (fun _ _ => hB _ _)
    (fun _ _ _ => trivial) (fun w hw _ => ?_) fun _ _ => trivial
  rw [Commits, hi]
  exact ⟨row, hrow, by rw [ofInvocation_id hrow]; exact hw.fact, hw.view⟩

theorem report_follows {tenantId : Uuid} {start «end» : Utc}
    (hi : requests i = .report tenantId start «end») :
    Follows database discipline ledger (Commits requests i) (Reads requests i) i
      (fun r evs _ => Returned requests i r evs) (program (requests i)) (World.ofDb ledger, []) := by
  have hreads : ∀ (q : Sql) {evs : List Event} {ls : List Uuid}
      (v : Traced (Table InvocationRow) Uuid Sql Sql.Res LedgerError),
      Knows i evs [] ls (fun _ => True) v → Reads requests i (.sql q) v := by
    intro q evs ls v hv
    unfold Reads
    rw [hi]
    exact hv.writes
  let P : Except LedgerError TenantRuntimeReport → List Event → Table InvocationRow → Prop :=
    fun r evs _ => match r with
      | .ok report => ∃ totals agentRows modelRows,
          evs = [⟨.sql (.totals tenantId start «end»), .ok totals⟩,
            ⟨.sql (.agentBreakdown tenantId start «end»), .ok agentRows⟩,
            ⟨.sql (.modelBreakdown tenantId start «end»), .ok modelRows⟩] ∧
          report = reportOf tenantId start «end» totals agentRows modelRows
      | .error _ => True
  rw [hi]
  refine follows_map (P := fun r evs _ => Returned requests i (r.map .report) evs)
    (fun _ _ _ h => h) (fun _ _ _ h => h) ?_
  refine (similar_mapError _ _).safe (fun _ _ _ _ => trivial) ?_
  rw [← bind_ret (unitOfWork _)]
  refine follows_transaction (W := P) (P := fun r evs _ => Returned requests i (r.map .report) evs)
    (fun _ _ _ => ?_) (fun _ _ _ _ h _ => h) (fun _ _ _ _ => trivial)
    (fun report evs w hw _ => safe_ret.mpr ?_) ?_
  · unfold Reads
    rw [hi]
    trivial
  · obtain ⟨totals, agentRows, modelRows, hevs, hreport⟩ := hw.fact
    refine ⟨tenantId, start, «end», totals, agentRows, modelRows, hi, ?_, hreport⟩
    rw [hw.own, hevs]
    rfl
  refine follows_query (fun _ => rfl) lasting_true (knows_start ledger) (hreads _)
    (fun _ _ _ _ _ => trivial) fun w totals _ hw _ _ => ?_
  refine follows_query (fun _ => rfl) lasting_true hw (hreads _)
    (fun _ _ _ _ _ => trivial) fun w agentRows _ hw _ _ => ?_
  refine follows_query (fun _ => rfl) lasting_true hw (hreads _)
    (fun _ _ _ _ _ => trivial) fun w modelRows _ hw _ _ => safe_ret.mpr ?_
  exact ⟨totals, agentRows, modelRows, hw.own, rfl⟩

theorem program_follows (requests : Tid → Request) (ledger : Table InvocationRow) (i : Tid) :
    Follows database discipline ledger (Commits requests i) (Reads requests i) i
      (fun r evs _ => Returned requests i r evs) (program (requests i)) (World.ofDb ledger, []) := by
  cases hi : requests i with
  | report tenantId start «end» => exact hi ▸ report_follows hi
  | persist invocation => exact hi ▸ persist_follows hi

end Threads

/-! ## The ledger of a run -/

section Runs

variable {requests : Tid → Request} {ledger : Table InvocationRow} {tr : List Label}
  {c c' : Config} {l : Label}

theorem committedRows_append (tr tr' : List Label) :
    committedRows requests (tr ++ tr') = committedRows requests tr ++ committedRows requests tr' :=
  List.filterMap_append

/-- A step that is no commit has committed nothing. -/
theorem committedRow_of_ne (h : ∀ i, l ≠ committed i) : committedRow requests l = none := by
  unfold committedRow
  exact if_neg fun hcommit => h _ (eq_committed hcommit)

/-- A step adds the row it has committed. -/
theorem step_grows (h : RunFrom requests ledger tr c) (hs : Step database.exec c l c') :
    c'.world.db.rows = c.world.db.rows ++ (committedRow requests l).toList := by
  have hstep := run_step lawful (fun _ _ q => stmt_within q) (fun _ _ _ => ⟨trivial, fun _ _ => trivial⟩)
    (fun _ _ _ _ _ hp _ => hp) (program_follows requests ledger) h hs
  rcases CommitsOnly.label_cases hstep with ⟨hl, hC, hw⟩ | ⟨hl, hdb⟩
  · unfold Commits at hC
    have hcommit : isCommit l.tid l = true := by
      rw [hl]
      exact beq_self_eq_true l.tid
    rw [hw, World.commit]
    unfold committedRow
    rw [if_pos hcommit]
    split at hC
    · next invocation hi =>
      obtain ⟨row, hrow, hnew, hview⟩ := hC
      dsimp only at hnew hview ⊢
      rw [hview, hrow, Table.rows_insert hnew]
      rfl
    · exact hC.elim
  · rw [committedRow_of_ne hl, hdb, Option.toList_none, List.append_nil]

theorem ledger_grows (h : RunFrom requests ledger tr c) :
    c.world.db.rows = ledger.rows ++ committedRows requests tr := by
  generalize hc : (⟨World.ofDb ledger, fun i => program (requests i)⟩ : Config) = c₀ at h
  induction h with
  | nil =>
    subst hc
    exact (List.append_nil _).symm
  | @snoc _ _ tr l hinit hs ih =>
    subst hc
    rw [step_grows hinit hs, ih, committedRows_append, List.append_assoc]
    cases hrow : committedRow requests l <;> simp [committedRows, hrow]

/-- A statement of a report reads the ledger as it was at the start, with what has been
    committed since. -/
theorem query_answered {i : Tid} {tenantId : Uuid} {start «end» : Utc} {q : Sql} {a : q.Res}
    {f : Table InvocationRow → Except LedgerError q.Res} {tr₁ tr₂ : List Label}
    (hi : requests i = .report tenantId start «end») (hq : stmt q = .query f)
    (h : RunFrom requests ledger (tr₁ ++ ⟨i, ⟨.sql q, .ok a⟩⟩ :: tr₂) c) :
    ∃ t : Table InvocationRow, t.rows = ledger.rows ++ committedRows requests tr₁ ∧ f t = .ok a := by
  have hwhere : RunWhere database.exec (fun _ _ _ _ => True) [] _ _ c :=
    Run.runWhere (fun _ _ _ _ => trivial) h
  obtain ⟨c₁, c₂, hinit, hs, _, _⟩ := hwhere.at
  have hreads := run_before lawful (fun _ _ q => stmt_within q)
    (fun _ _ _ => ⟨trivial, fun _ _ => trivial⟩) (fun _ _ _ _ _ hp _ => hp)
    (program_follows requests ledger) hinit.run hs
  unfold Reads at hreads
  rw [hi] at hreads
  refine ⟨c₁.world.db, ledger_grows hinit.run, ?_⟩
  cases hs with
  | mk hprog hexec =>
    obtain ⟨_, hfailed, _⟩ | hexec := exec_sql_cases hexec
    · cases hfailed
    · rw [show database.stmt _ i q = stmt q from rfl, hq] at hexec
      obtain ⟨ha, _⟩ : f (c₁.world.view i) = .ok a ∧ c₁.world = _ := by
        simpa [World.perform] using hexec
      rwa [view_of_writes_nil hreads] at ha

end Runs

/-! ## Sums of a breakdown -/

/-- The sums of a breakdown that is not truncated exceed the totals by the `later` Invocations,
    and agree with the totals exactly where there are none. -/
structure Exceeds (report : TenantRuntimeReport) (listed : List CostBreakdown) (truncated : Bool)
    (later : List InvocationRow) : Prop where
  invocations : truncated = false →
    (listed.map (·.invocationCount)).sum = report.invocations.total + later.length
  cost : truncated = false → (listed.map (·.estimatedCostTotal.toRat)).sum =
    report.estimatedCost.total.toRat + (estimatedCostTotals later).total.toRat
  agrees : truncated = false →
    ((listed.map (·.invocationCount)).sum = report.invocations.total ∧
      (listed.map (·.estimatedCostTotal.toRat)).sum = report.estimatedCost.total.toRat ↔ later = [])

theorem estimatedCost_append (rows later : List InvocationRow) :
    (estimatedCostTotals (rows ++ later)).total.toRat =
      (estimatedCostTotals rows).total.toRat + (estimatedCostTotals later).total.toRat := by
  simp only [estimatedCostTotals, estimatedCostTotal_eq, List.map_append, List.sum_append]

theorem breakdown_exceeds {identity : InvocationRow → Uuid} {rows later : List InvocationRow}
    {report : TenantRuntimeReport} (hinvocations : report.invocations = invocationCounts rows)
    (hcost : report.estimatedCost = estimatedCostTotals rows) :
    Exceeds report ((breakdownStatement identity (rows ++ later)).take topN)
      ((breakdownStatement identity (rows ++ later)).length > topN) later := by
  let whole : TenantRuntimeReport :=
    reportOf report.tenantId report.start report.end (totalsOf (rows ++ later)) [] []
  have hcorrect : BreakdownCorrect identity (rows ++ later) whole _ _ :=
    breakdown_correct rfl rfl rfl
  have hcount : decide ((breakdownStatement identity (rows ++ later)).length > topN) = false →
      (((breakdownStatement identity (rows ++ later)).take topN).map (·.invocationCount)).sum =
        report.invocations.total + later.length := by
    intro htruncated
    rw [(hcorrect.counts htruncated).1, hinvocations]
    exact List.length_append
  have hsum : decide ((breakdownStatement identity (rows ++ later)).length > topN) = false →
      (((breakdownStatement identity (rows ++ later)).take topN).map
        (·.estimatedCostTotal.toRat)).sum =
        report.estimatedCost.total.toRat + (estimatedCostTotals later).total.toRat := by
    intro htruncated
    rw [(hcorrect.sums htruncated).2, hcost]
    exact estimatedCost_append rows later
  refine ⟨hcount, hsum, fun htruncated => ?_⟩
  rw [hcount htruncated, hsum htruncated]
  constructor
  · rintro ⟨hlength, _⟩
    exact List.eq_nil_of_length_eq_zero (by omega)
  · rintro rfl
    exact ⟨rfl, by simp [estimatedCostTotals, estimatedCostTotal_eq]⟩

/-! ## The report -/

theorem reportedRows_append (rows rows' : List InvocationRow) (tenantId : Uuid) (start «end» : Utc) :
    reportedRows (rows ++ rows') tenantId start «end» =
      reportedRows rows tenantId start «end» ++ reportedRows rows' tenantId start «end» :=
  List.filter_append ..

theorem own_eq_cons {i : Tid} {e : Event} {es : List Event} {tr : List Label}
    (h : own i tr = e :: es) : ∃ tr₁ tr₂, tr = tr₁ ++ ⟨i, e⟩ :: tr₂ ∧ own i tr₂ = es := by
  obtain ⟨tr₁, ⟨j, e'⟩, tr₂, rfl, _, hl, hrest⟩ := List.filterMap_eq_cons_iff.mp h
  rw [Option.ite_none_right_eq_some] at hl
  obtain ⟨rfl, he⟩ := hl
  cases he
  exact ⟨tr₁, tr₂, rfl, hrest⟩

section Report

variable {requests : Tid → Request} {ledger : Table InvocationRow} {tr : List Label} {c : Config}
  {i : Tid} {tenantId : Uuid} {start «end» : Utc} {report : TenantRuntimeReport}

/-- In every run, the breakdowns of a report exceed its totals by exactly the Invocations of
    its tenant and range that were committed between the statements. -/
theorem report_exceeds (h : RunFrom requests ledger tr c)
    (hi : requests i = .report tenantId start «end») (hreport : c.prog i = .ret (.report report)) :
    ∃ before toAgents toModels after totals agentRows modelRows,
      tr = before ++ ⟨i, ⟨.sql (.totals tenantId start «end»), .ok totals⟩⟩ ::
        (toAgents ++ ⟨i, ⟨.sql (.agentBreakdown tenantId start «end»), .ok agentRows⟩⟩ ::
          (toModels ++ ⟨i, ⟨.sql (.modelBreakdown tenantId start «end»), .ok modelRows⟩⟩ :: after)) ∧
      Exceeds report report.topAgentsByEstimatedCost report.agentBreakdownTruncated
        (reportedRows (committedRows requests toAgents) tenantId start «end») ∧
      Exceeds report report.topModelsByEstimatedCost report.modelBreakdownTruncated
        (reportedRows (committedRows requests (toAgents ++ toModels)) tenantId start «end») := by
  have hreturned := (run_returned lawful (fun _ _ q => stmt_within q)
    (fun _ _ _ => ⟨trivial, fun _ _ => trivial⟩) (fun _ _ _ _ _ hp _ => hp)
    (program_follows requests ledger) h).1 _ hreport
  obtain ⟨tenantId', start', end', totals, agentRows, modelRows, hi', hown, hof⟩ := hreturned
  rw [hi] at hi'
  cases hi'
  obtain ⟨before, tr₁, rfl, hown₁⟩ := own_eq_cons hown
  obtain ⟨toAgents, tr₂, rfl, hown₂⟩ := own_eq_cons hown₁
  obtain ⟨toModels, after, rfl, _⟩ := own_eq_cons hown₂
  obtain ⟨t₁, ht₁, htotals⟩ := query_answered hi rfl h
  have hcons : ∀ (l : Label) (tr tr' : List Label), tr ++ l :: tr' = tr ++ [l] ++ tr' := by simp
  rw [hcons, ← List.append_assoc] at h
  obtain ⟨t₂, ht₂, hagents⟩ := query_answered hi rfl h
  rw [hcons _ (_ ++ toAgents), ← List.append_assoc] at h
  obtain ⟨t₃, ht₃, hmodels⟩ := query_answered hi rfl h
  have hquery : ∀ (q : Sql) (a : q.Res),
      committedRows requests [⟨i, ⟨.sql q, .ok a⟩⟩] = [] := fun _ _ => rfl
  simp only [committedRows_append, hquery, List.append_nil] at ht₂ ht₃
  -- What each statement saw is what the first one saw and the commits since.
  rw [← List.append_assoc, ← ht₁] at ht₂
  rw [← List.append_assoc, ← List.append_assoc, ← ht₁, List.append_assoc, ← committedRows_append] at ht₃
  rw [ht₂, reportedRows_append] at hagents
  rw [ht₃, reportedRows_append] at hmodels
  cases htotals
  cases hagents
  cases hmodels
  subst hof
  exact ⟨before, toAgents, toModels, after, _, _, _, rfl, breakdown_exceeds rfl rfl,
    breakdown_exceeds rfl rfl⟩

end Report

/-- One report, and one Invocation of its tenant and range. -/
def twoRequests : Tid → Request
  | 0 => .report samplePrincipal.tenantId 0 2000000
  | _ => .persist sampleInvocation

/-- The report of thread 0, if it has one and its breakdown by Agent is not truncated. -/
def wholeReport (c : Config) : Option TenantRuntimeReport :=
  match c.prog 0 with
  | .ret (.report report) => if report.agentBreakdownTruncated then none else some report
  | _ => none

theorem wholeReport_eq {c : Config} {report : TenantRuntimeReport} (h : wholeReport c = some report) :
    c.prog 0 = .ret (.report report) ∧ report.agentBreakdownTruncated = false := by
  unfold wholeReport at h
  split at h
  · next report' hprog =>
    split at h
    · cases h
    · next hwhole =>
      cases h
      exact ⟨hprog, by simpa using hwhole⟩
  · cases h

/-- The Invocation is committed after the totals and before the breakdown by Agent. -/
theorem committed_between : ∃ tr c report, RunFrom twoRequests Table.empty tr c ∧
    wholeReport c = some report ∧
    (report.topAgentsByEstimatedCost.map (·.invocationCount)).sum ≠ report.invocations.total := by
  obtain ⟨tr, c, hrun, htest⟩ := schedule_any database.exec
    ⟨World.ofDb Table.empty, fun i => program (twoRequests i)⟩
    [(0, false), (1, false), (1, false), (0, false), (0, false), (0, false)]
    (fun (_, c) => (wholeReport c).any fun report =>
      (report.topAgentsByEstimatedCost.map (·.invocationCount)).sum ≠ report.invocations.total)
    (by decide +kernel)
  obtain ⟨report, hreport, hne⟩ := Option.any_eq_true .. |>.mp htest
  exact ⟨tr, c, report, hrun, hreport, by simpa using hne⟩

/-- A breakdown that is not truncated and does not add up to the totals. -/
theorem report_disagrees : ∃ tr c report, RunFrom twoRequests Table.empty tr c ∧
    c.prog 0 = .ret (.report report) ∧ report.agentBreakdownTruncated = false ∧
    (report.topAgentsByEstimatedCost.map (·.invocationCount)).sum ≠ report.invocations.total := by
  obtain ⟨tr, c, report, hrun, hwhole, hne⟩ := committed_between
  obtain ⟨hprog, htruncated⟩ := wholeReport_eq hwhole
  exact ⟨tr, c, report, hrun, hprog, htruncated, hne⟩

theorem report_exceeds_between : ∃ report later,
    Exceeds report report.topAgentsByEstimatedCost report.agentBreakdownTruncated later ∧
      later ≠ [] := by
  obtain ⟨tr, c, report, hrun, hwhole, hne⟩ := committed_between
  obtain ⟨hprog, htruncated⟩ := wholeReport_eq hwhole
  obtain ⟨_, toAgents, _, _, _, _, _, _, hagents, _⟩ := report_exceeds hrun rfl hprog
  refine ⟨report, _, hagents, fun hnil => hne ?_⟩
  exact ((hagents.agrees htruncated).mpr hnil).1

end Valor.RuntimeGateway.Ledger
