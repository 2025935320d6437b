/-
  The control plane: how far the daily ledgers can overshoot.

  A request reads the ledger of its day, is admitted, calls the provider, and stores what was
  spent in a later transaction: between the two it is in flight. The ledger that it read is
  the committed one (`ledger_committed`), and what it stores is charged to the day that it
  read, since both are of the same `started_at`. Hence every step is a move of `Lib/Overshoot`
  (`Ledger.moves`), and the reserve for the requests in flight is an invariant of every
  interleaving: for the units of a Runtime Principal and for the costs of a tenant.
-/
import Valor.ControlPlane.LedgerReads
import Valor.ControlPlane.Ownership
import Valor.Lib.Overshoot
import Valor.Lib.Waiting
import Valor.UtcDays

namespace Valor.ControlPlane

open Python Postgres ManagementAudit IdentityTenancy AssetRegistry PolicyRisk RuntimeGateway
  Prog Interleave ReadCommitted Settings Overshoot Decimal

/-! ## Ledgers -/

/-- A sum over stored Invocations, and the events that admit a request to spend from it. -/
structure Ledger where
  keeps : InvocationRow → Bool
  amount : InvocationRow → Option Int
  admits : Request → Event → Prop

/-- The request has not stored its Invocation. -/
def Unstored (r : Request) (db : Db) : Prop :=
  ∃ env decisionEnv command, r = .createInvocation env decisionEnv command ∧
    db.invocations.find? env.invocationId = none

namespace Ledger

variable (L : Ledger)

def total (db : Db) : Int := ((db.invocations.rows.filter L.keeps).filterMap L.amount).sum

/-- The requests that are admitted, and neither stored nor lost. -/
def flight (requests : Tid → Request) (tr : List Label) (c : Config) : Set Tid :=
  {i | (∃ e ∈ own i tr, L.admits (requests i) e) ∧ ¬(c.prog i).Finished ∧
    Unstored (requests i) c.world.db}

/-- An admission is an answer of the ledger, of at most `limit`; only an Invocation whose
    request is admitted adds to the ledger. -/
structure Checked (s : Service) (requests : Tid → Request) (limit : Int) : Prop where
  requested : ∀ i e, L.admits (requests i) e →
    ∃ env decisionEnv command, requests i = .createInvocation env decisionEnv command
  reads : ∀ i e, L.admits (requests i) e → ∃ (q : Sql) (a : q.Res) (f : Db → Except Error q.Res),
    e = ⟨.sql q, .ok a⟩ ∧ readsLedger (.sql q) = true ∧ (∀ ch, stmt ch q = .query f) ∧
    ∀ db, f db = .ok a → L.total db ≤ limit
  admitted : ∀ i env decisionEnv command inputText decision evs effect invocation row n,
    requests i = .createInvocation env decisionEnv command →
    Concluded s.settings command (commonOf env command inputText decision) evs effect invocation →
    InvocationRow.ofInvocation invocation = .ok row → L.keeps row = true → L.amount row = some n →
    ∃ e ∈ evs, L.admits (requests i) e

variable {L} {s : Service} {requests : Tid → Request} {db₀ db : Db} {tr : List Label}
  {c c' : Config} {l : Label} {limit most : Int} {row : InvocationRow}

theorem total_insert (h : db.invocations.find? row.id = none) :
    L.total (db.insertInvocation row) =
      L.total db + if L.keeps row then (L.amount row).getD 0 else 0 := by
  have hrows : (db.insertInvocation row).invocations.rows = db.invocations.rows ++ [row] :=
    Table.rows_insert h
  rw [total, total, hrows, List.filter_append, List.filterMap_append, List.sum_append]
  congr 1
  cases hkeeps : L.keeps row with
  | false => simp [hkeeps]
  | true =>
    cases hamount : L.amount row <;> simp [hkeeps, hamount]

end Ledger

section Steps

variable {L : Ledger} {s : Service} {requests : Tid → Request} {db₀ db db' : Db} {tr : List Label}
  {c c' : Config} {l : Label} {limit most : Int} {k : ℕ}

theorem Unstored.of_later {r : Request} (hlater : Later db db') (h : Unstored r db') : Unstored r db := by
  obtain ⟨env, decisionEnv, command, hr, hfind⟩ := h
  refine ⟨env, decisionEnv, command, hr, Table.find?_eq_none.mpr fun row hrow => ?_⟩
  exact Table.find?_eq_none.mp hfind row (hlater.invocations row hrow)

theorem unfinished_of_step {i : Tid} (hs : Step database.exec c l c') (h : ¬(c'.prog i).Finished) :
    ¬(c.prog i).Finished := by
  cases hs with
  | @mk j _ k _ r _ hprog _ =>
    by_cases hj : i = j
    · subst hj
      rw [hprog]
      exact not_finished_call
    · have hsame : Function.update c.prog j (k r) i = c.prog i := Function.update_of_ne hj ..
      intro hfinished
      refine h ?_
      rw [← hsame] at hfinished
      exact hfinished

/-- Only an admission puts a request in flight. -/
theorem Ledger.flight_subset (h : RunFrom s requests db₀ tr c) (hs : Step database.exec c l c')
    (hnot : ¬L.admits (requests l.tid) l.event) :
    L.flight requests (tr ++ [l]) c' ⊆ L.flight requests tr c := by
  rintro i ⟨⟨e, he, hadmits⟩, hunfinished, hunstored⟩
  have hlater : Later c.world.db c'.world.db := RunFrom.later_of h (.snoc (.nil c) hs)
  refine ⟨⟨e, ?_, hadmits⟩, unfinished_of_step hs hunfinished, hunstored.of_later hlater⟩
  rw [own_append, List.mem_append] at he
  rcases he with he | he
  · exact he
  · have hl : (⟨i, e⟩ : Label) = l := by simpa using mem_own.mp he
    subst hl
    exact absurd hadmits hnot

/-- An admission finds the ledger within the limit. -/
theorem Ledger.Checked.total_le (hL : L.Checked s requests limit) (h : RunFrom s requests db₀ tr c)
    (hs : Step database.exec c l c') (hrequest : ∃ env decisionEnv command,
      requests l.tid = .createInvocation env decisionEnv command)
    (hadmits : L.admits (requests l.tid) l.event) : L.total c.world.db ≤ limit := by
  obtain ⟨env, decisionEnv, command, hrequest⟩ := hrequest
  obtain ⟨q, a, f, he, hq, hf, hle⟩ := hL.reads l.tid l.event hadmits
  have hl : l = ⟨l.tid, ⟨.sql q, .ok a⟩⟩ := by rw [← he]
  rw [hl] at hs
  exact hle _ (ledger_committed hf hq h hrequest hs)

/-- A commit adds to the ledger what its request spent, which was admitted before. -/
theorem Ledger.Checked.settles (hL : L.Checked s requests limit) (h : RunFrom s requests db₀ tr c)
    (hs : Step database.exec c l c') (hl : l = committed l.tid)
    (hcommit : Commit s (requests l.tid) (own l.tid tr) c.world.db c'.world.db)
    (hrows : ∀ row ∈ c'.world.db.invocations, L.keeps row = true → ∀ n ∈ L.amount row, n ≤ most) :
    Moves limit most (L.flight requests tr c) (L.flight requests (tr ++ [l]) c')
      (L.total c.world.db) (L.total c'.world.db) := by
  have hsubset : L.flight requests (tr ++ [l]) c' ⊆ L.flight requests tr c := by
    refine L.flight_subset h hs fun hadmits => ?_
    obtain ⟨_, _, _, he, _⟩ := hL.reads _ _ hadmits
    rw [hl] at he
    cases he
  generalize hr : requests l.tid = r at hcommit
  generalize hdb : c'.world.db = db' at hcommit hrows
  have hsame : db'.invocations = c.world.db.invocations → Moves limit most (L.flight requests tr c)
      (L.flight requests (tr ++ [l]) c') (L.total c.world.db) (L.total db') := by
    intro heq
    refine .keeps hsubset (le_of_eq ?_)
    rw [Ledger.total, Ledger.total, heq]
  cases hcommit with
  | createTenant | registerAgent | registerModel | setPermission | decide => exact hsame rfl
  | @conclude env decisionEnv command _ _ inputText decision invocation row _ _ _ _ _ hconcluded hrow _
      hfresh =>
    have hid : row.id = env.invocationId := by
      obtain ⟨_, hmade, _⟩ := hconcluded.madeOf
      exact (ofInvocation_ok hrow).1.trans hmade.id
    have hfree : c.world.db.invocations.find? row.id = none := hid ▸ hfresh
    have htotal := L.total_insert hfree
    have hmem : row ∈ (c.world.db.insertInvocation row).invocations :=
      Table.mem_insert.mpr (.inr ⟨rfl, hfree⟩)
    by_cases hspent : L.keeps row = true ∧ ∃ n, L.amount row = some n
    · obtain ⟨hkeeps, n, hn⟩ := hspent
      have hle : n ≤ most := hrows row hmem hkeeps n hn
      refine .settles l.tid ⟨?_, ?_, ?_⟩ hsubset ?_ ?_
      · exact hL.admitted _ _ _ _ _ _ _ _ _ _ _ hr hconcluded hrow hkeeps hn
      · cases hs with
        | mk hprog _ =>
          rw [hprog]
          exact not_finished_call
      · exact ⟨env, decisionEnv, command, hr, hfresh⟩
      · rintro ⟨_, _, _, _, _, hr', hfind⟩
        rw [hr] at hr'
        cases hr'
        rw [hdb] at hfind
        exact Table.find?_eq_none.mp hfind row hmem hid
      · rw [htotal, if_pos hkeeps, hn, Option.getD_some]
        omega
    · refine .keeps hsubset (le_of_eq ?_)
      rw [htotal]
      split
      · next hkeeps =>
        cases hamount : L.amount row with
        | none => simp
        | some n => exact absurd ⟨hkeeps, n, hamount⟩ hspent
      · simp

/-- Every step is a move of the ledger. -/
theorem Ledger.Checked.moves (hL : L.Checked s requests limit) (h : RunFrom s requests db₀ tr c)
    (hs : Step database.exec c l c')
    (hrows : ∀ row ∈ c'.world.db.invocations, L.keeps row = true → ∀ n ∈ L.amount row, n ≤ most) :
    Moves limit most (L.flight requests tr c) (L.flight requests (tr ++ [l]) c')
      (L.total c.world.db) (L.total c'.world.db) := by
  obtain hdb | ⟨hl, hcommit⟩ := step_cases h hs
  · by_cases hadmits : L.admits (requests l.tid) l.event
    · refine .admits ?_
      rw [hdb]
      exact hL.total_le h hs (hL.requested _ _ hadmits) hadmits
    · refine .keeps (L.flight_subset h hs hadmits) ?_
      rw [hdb]
  · exact hL.settles h hs hl hcommit hrows

/-- Never more than `k` requests in flight after a step. -/
def FewInFlight (L : Ledger) (requests : Tid → Request) (k : ℕ) (tr : List Label) (_ : Config) (l : Label)
    (c' : Config) : Prop :=
  AtMost k (L.flight requests (tr ++ [l]) c')

/-- The reserve holds in every state of a run. -/
theorem Ledger.Checked.within (hL : L.Checked s requests limit) (hmost : 0 ≤ most)
    (hinit : L.total db₀ ≤ limit)
    (h : RunWhere database.exec (FewInFlight L requests k) []
      ⟨World.ofDb db₀, fun i => s.program (requests i)⟩ tr c)
    (hrows : ∀ row ∈ c.world.db.invocations, L.keeps row = true → ∀ n ∈ L.amount row, n ≤ most) :
    Within (L.flight requests tr c) most (limit + k • most) (L.total c.world.db) := by
  induction h with
  | nil =>
    have hnone : L.flight requests [] ⟨World.ofDb db₀, fun i => s.program (requests i)⟩ = ∅ := by
      refine Set.eq_empty_of_forall_notMem fun i hi => ?_
      obtain ⟨⟨e, he, _⟩, _⟩ := hi
      cases he
    rw [hnone]
    refine within_of_empty (hinit.trans ?_)
    have hpos : 0 ≤ k • most := nsmul_nonneg hmost k
    omega
  | @snoc tr c l c' hinit' hs hfew ih =>
    have hlater : Later c.world.db c'.world.db := RunFrom.later_of hinit'.run (.snoc (.nil c) hs)
    have hbefore := ih fun row hrow => hrows row (hlater.invocations row hrow)
    exact (hL.moves hinit'.run hs hrows).within hmost hfew hbefore

end Steps

/-! ## What an Invocation adds to the ledgers -/

section Spent

variable {settings : RuntimeSettings} {command : CreateInvocationCommand} {c : Invocation.Common}
  {evs : List Event} {effect : String} {invocation : Invocation} {row : InvocationRow}

/-- The constructor neither adds a usage nor a cost. -/
theorem usage_of_new {f : InvocationFields} (h : Invocation.new f = .ok invocation) :
    invocation.usage = f.usage ∧ invocation.estimatedCost = f.estimatedCost := by
  rw [InvocationFields.postInit_eq (Invocation.new_ok h)]
  exact ⟨rfl, rfl⟩

/-- Only a call of the provider spends. -/
theorem Concluded.allowed (h : Concluded settings command c evs effect invocation)
    (hspent : invocation.usage ≠ none ∨ invocation.estimatedCost ≠ none) :
    Allowed settings command c evs := by
  cases h with
  | denied _ hi | limited _ _ _ hi | costLimited _ _ _ _ _ hi =>
    obtain ⟨_, _, hi⟩ := Except.bind_ok_cases hi
    obtain ⟨husage, hcost⟩ := usage_of_new hi
    rcases hspent with hspent | hspent
    · exact absurd husage hspent
    · exact absurd hcost hspent
  | failed _ within _ _ => exact within
  | succeeded _ within _ _ _ => exact within

theorem varchar_ok {n : Nat} {v w : String} (h : varchar n v = .ok w) (hlen : len v ≤ n) : w = v := by
  unfold varchar at h
  split at h
  · cases h
  · cases h
    rfl

theorem ofInvocation_usage (h : InvocationRow.ofInvocation invocation = .ok row)
    (hlen : len invocation.runtimePrincipalId ≤ 255) :
    row.runtimePrincipalId = some invocation.runtimePrincipalId ∧
      (row.totalUnits ≠ none → invocation.usage ≠ none) := by
  unfold InvocationRow.ofInvocation at h
  iterate 2 obtain ⟨_, _, h⟩ := Except.bind_ok_cases h
  obtain ⟨principalId, hprincipal, h⟩ := Except.bind_ok_cases h
  iterate 3 obtain ⟨_, _, h⟩ := Except.bind_ok_cases h
  obtain ⟨totalUnits, htotal, h⟩ := Except.bind_ok_cases h
  iterate 15 obtain ⟨_, _, h⟩ := Except.bind_ok_cases h
  cases h
  refine ⟨congrArg some (varchar_ok hprincipal hlen), fun hsome hnone => hsome ?_⟩
  rw [hnone] at htotal
  cases htotal
  rfl

theorem ofInvocation_cost (h : InvocationRow.ofInvocation invocation = .ok row)
    (hsome : row.costTotal ≠ none) : invocation.estimatedCost ≠ none := by
  unfold InvocationRow.ofInvocation at h
  iterate 14 obtain ⟨_, _, h⟩ := Except.bind_ok_cases h
  obtain ⟨costTotal, hcost, h⟩ := Except.bind_ok_cases h
  iterate 7 obtain ⟨_, _, h⟩ := Except.bind_ok_cases h
  cases h
  intro hnone
  rw [hnone] at hcost
  cases hcost
  exact hsome rfl

/-- A row is charged to the day of the request that stored it. -/
theorem window_eq {start : Utc} {w v : UsageWindow} (hw : utcDayWindow start = .ok w) (hv : DayWindow v)
    (hstart : row.startedAt = start) (hin : row.startedIn v.start v.end = true) : w = v := by
  refine ((startedIn_iff ?_ hv).mp hin).symm
  rw [hstart]
  simp [utcDayWindowOf, orTimeError, hw, Bind.bind, Except.bind]

end Spent

/-! ## The units of a Runtime Principal -/

section Usage

variable {s : Service} {requests : Tid → Request} {limit : Int}

/-- The ledger that the usage limit reads. -/
def usageLedger (principalId : String) (window : UsageWindow) : Ledger where
  keeps row := row.runtimePrincipalId = some principalId && row.startedIn window.start window.end
  amount row := row.totalUnits
  admits r e := ∃ env decisionEnv command consumed d,
    r = .createInvocation env decisionEnv command ∧ command.runtimePrincipalId = principalId ∧
    e = ⟨.sql (.consumedTotalUnits principalId window.start window.end), .ok consumed⟩ ∧
    decideUsageLimit consumed command.usageLimit command.perInvocationAllowance window = .ok d ∧
    d.allowed = true

/-- The requests of the principal leave at least its allowance below its limit. -/
def PrincipalLimit (requests : Tid → Request) (principalId : String) (limit : Int) : Prop :=
  ∀ i env decisionEnv command, requests i = .createInvocation env decisionEnv command →
    len command.runtimePrincipalId ≤ 255 ∧
      (command.runtimePrincipalId = principalId →
        command.usageLimit - command.perInvocationAllowance ≤ limit)

theorem decideUsageLimit_allowed {consumed limit allowance : Int} {window : UsageWindow}
    {d : UsageLimitDecision} (h : decideUsageLimit consumed limit allowance window = .ok d)
    (hallowed : d.allowed = true) : consumed + allowance ≤ limit := by
  unfold decideUsageLimit at h
  split_ifs at h
  cases h
  simpa using hallowed

theorem total_usageLedger {principalId : String} {window : UsageWindow} {db : Db} :
    (usageLedger principalId window).total db =
      consumedTotalUnits db.invocations.rows principalId window.start window.end := rfl

theorem usageLedger_checked {principalId : String} {window : UsageWindow} (hday : DayWindow window)
    (hlimit : PrincipalLimit requests principalId limit) :
    (usageLedger principalId window).Checked s requests limit where
  requested := by
    rintro i _ ⟨env, decisionEnv, command, _, _, hrequest, _⟩
    exact ⟨env, decisionEnv, command, hrequest⟩
  reads := by
    rintro i _ ⟨env, decisionEnv, command, consumed, d, hrequest, hprincipal, rfl, hd, hallowed⟩
    refine ⟨_, _, _, rfl, rfl, fun _ => rfl, fun db hread => ?_⟩
    obtain ⟨_, htext, hread⟩ := Except.bind_ok_cases hread
    cases hread
    have hwithin := decideUsageLimit_allowed hd hallowed
    have hbound := (hlimit i _ _ _ hrequest).2 hprincipal
    rw [(text_ok (column_ok htext)).2] at hwithin
    rw [total_usageLedger]
    omega
  admitted := by
    intro i env decisionEnv command inputText decision evs effect invocation row n hrequest hconcluded
      hrow hkeeps hn
    obtain ⟨hlen, _⟩ := hlimit i _ _ _ hrequest
    obtain ⟨_, hmade, _⟩ := hconcluded.madeOf
    have hprincipal : invocation.runtimePrincipalId = command.runtimePrincipalId :=
      hmade.runtimePrincipalId
    obtain ⟨hid, husage⟩ := ofInvocation_usage hrow (hprincipal ▸ hlen)
    obtain ⟨hkept, hin⟩ := Bool.and_eq_true_iff.mp hkeeps
    have hsame : command.runtimePrincipalId = principalId := by
      rw [hid, hprincipal] at hkept
      simpa using hkept
    have hspent : invocation.usage ≠ none := husage (by rw [show row.totalUnits = some n from hn]; simp)
    obtain ⟨window', d, _, ⟨hwindow, consumed, hread, hd⟩, hallowed, _⟩ := hconcluded.allowed (.inl hspent)
    obtain rfl := window_eq hwindow hday ((ofInvocation_ok hrow).2.2.2.2.2.1.trans hmade.startedAt) hin
    refine ⟨_, hread, env, decisionEnv, command, consumed, d, hrequest, hsame, ?_, hd, hallowed⟩
    rw [← hsame]
    rfl

/-- Whatever requests are interleaved, from a database within the limit: if no row of the
    principal and the day has more than `most` units, and never more than `k` admitted requests
    are in flight, the principal exceeds its limit less its allowance by at most `k * most`. -/
theorem usage_overshoot (s : Service) (requests : Tid → Request) (db₀ : Db) (principalId : String)
    (window : UsageWindow) (limit most : Int) (k : ℕ) (tr : List Label) (c : Config)
    (hday : DayWindow window) (hlimit : PrincipalLimit requests principalId limit) (hmost : 0 ≤ most)
    (hinit : consumedTotalUnits db₀.invocations.rows principalId window.start window.end ≤ limit)
    (h : RunWhere database.exec (FewInFlight (usageLedger principalId window) requests k) []
      ⟨World.ofDb db₀, fun i => s.program (requests i)⟩ tr c)
    (hrows : ∀ row ∈ c.world.db.invocations, row.runtimePrincipalId = some principalId →
      row.startedIn window.start window.end = true → ∀ n ∈ row.totalUnits, n ≤ most) :
    consumedTotalUnits c.world.db.invocations.rows principalId window.start window.end ≤
      limit + k * most := by
  have hwithin := (usageLedger_checked hday hlimit).within hmost hinit h fun row hrow hkeeps => by
    obtain ⟨hkept, hin⟩ := Bool.and_eq_true_iff.mp hkeeps
    exact hrows row hrow (by simpa using hkept) hin
  rw [← nsmul_eq_mul]
  exact hwithin.total_le

end Usage

/-! ## The costs of a tenant -/

section Cost

variable {s : Service} {requests : Tid → Request} {budget : TenantCostBudget} {tenantId : Uuid}
  {window : UsageWindow}

/-- The ledger that the tenant cost budget reads, in units of the last decimal. -/
def costLedger (settings : RuntimeSettings) (tenantId : Uuid) (window : UsageWindow) : Ledger where
  keeps row := row.tenantId = tenantId && row.startedIn window.start window.end
  amount row := row.costTotal
  admits r e := ∃ env decisionEnv command budget cost d,
    r = .createInvocation env decisionEnv command ∧ command.tenantId = tenantId ∧
    e = ⟨.sql (.attributedCost tenantId window.start window.end), .ok cost⟩ ∧
    resolveBudget settings.budgets tenantId = some budget ∧
    decideTenantCostBudget cost budget window = .ok d ∧ d.allowed = true

theorem toRat_attributedCost (rows : List InvocationRow) (settings : RuntimeSettings) {db : Db}
    (hrows : db.invocations.rows = rows) :
    (attributedCost rows tenantId window.start window.end).toRat =
      (costLedger settings tenantId window).total db * 10 ^ (-12 : ℤ) := by
  have htotal : attributedCost rows tenantId window.start window.end =
      if (costLedger settings tenantId window).total db = 0 then 0
      else numericValue 12 ((costLedger settings tenantId window).total db) := by
    rw [← hrows]
    rfl
  rw [htotal]
  split
  · next hzero => rw [hzero, toRat_zero, Int.cast_zero, zero_mul]
  · rfl

theorem resolveBudget_fits {settings : TenantBudgetSettings}
    (h : resolveBudget settings tenantId = some budget) :
    budget.limit.Fits 30 12 ∧ budget.allowance.Fits 30 12 := by
  obtain ⟨entry, _, hentry⟩ := Option.bind_eq_some_iff.mp h
  obtain ⟨made, hmade, hlimit, hallowance⟩ := budgetOf_eq entry
  rw [hmade] at hentry
  obtain rfl : made = budget := Option.some.inj hentry
  exact ⟨hlimit ▸ entry.budget_accepted.2, hallowance ▸ entry.allowance_accepted.2⟩

/-- What a budget that the default context holds admits is within it exactly. -/
theorem decideTenantCostBudget_allowed {cost : Decimal} {consumed : Int} {d : TenantCostBudgetDecision}
    (hcost : cost.toRat = consumed * 10 ^ (-12 : ℤ)) (hlimit : budget.limit.Fits 28 12)
    (hallowance : budget.allowance.Fits 30 12) (h : decideTenantCostBudget cost budget window = .ok d)
    (hallowed : d.allowed = true) :
    consumed + unitsAt 12 budget.allowance ≤ unitsAt 12 budget.limit := by
  have hpow : (0 : ℚ) < 10 ^ (-12 : ℤ) := by positivity
  have hnonneg : 0 ≤ unitsAt 12 budget.allowance :=
    unitsAt_nonneg hallowance (le_iff_toRat.mpr (lt_iff_toRat.mp budget.positive.2.1).le)
  unfold decideTenantCostBudget at h
  split at h
  · cases h
  · next hcost0 =>
    cases h
    have hconsumed : 0 ≤ consumed := by
      rw [lt_iff_toRat, toRat_zero, not_lt, hcost] at hcost0
      exact_mod_cast nonneg_of_mul_nonneg_left hcost0 hpow
    exact (Decimal.add_le_iff (by decide) hcost (toRat_eq_unitsAt hallowance) (toRat_eq_unitsAt hlimit)
      (add_nonneg hconsumed hnonneg) (unitsAt_lt hlimit)).mp (of_decide_eq_true hallowed)

theorem costLedger_checked (hday : DayWindow window)
    (hbudget : resolveBudget s.settings.budgets tenantId = some budget)
    (hlimit : budget.limit.Fits 28 12) : (costLedger s.settings tenantId window).Checked s requests
      (unitsAt 12 budget.limit - unitsAt 12 budget.allowance) where
  requested := by
    rintro i _ ⟨env, decisionEnv, command, _, _, _, hrequest, _⟩
    exact ⟨env, decisionEnv, command, hrequest⟩
  reads := by
    rintro i _ ⟨_, _, _, budget', cost, d, _, _, rfl, hresolved, hd, hallowed⟩
    refine ⟨_, _, _, rfl, rfl, fun _ => rfl, fun db hread => ?_⟩
    rw [hbudget] at hresolved
    cases hresolved
    cases hread
    have hwithin := decideTenantCostBudget_allowed (toRat_attributedCost _ s.settings rfl) hlimit
      (resolveBudget_fits hbudget).2 hd hallowed
    omega
  admitted := by
    intro i env decisionEnv command inputText decision evs effect invocation row n hrequest hconcluded
      hrow hkeeps hn
    obtain ⟨_, hmade, _⟩ := hconcluded.madeOf
    obtain ⟨hkept, hin⟩ := Bool.and_eq_true_iff.mp hkeeps
    have htenant : command.tenantId = tenantId := by
      rw [(ofInvocation_ok hrow).2.1, hmade.tenantId] at hkept
      exact of_decide_eq_true hkept
    have hspent := ofInvocation_cost hrow (by rw [show row.costTotal = some n from hn]; simp)
    obtain ⟨window', _, d, ⟨hwindow, _⟩, _, ⟨budget', cost, hresolved, hread, hd⟩, hallowed⟩ :=
      hconcluded.allowed (.inr hspent)
    obtain rfl := window_eq hwindow hday ((ofInvocation_ok hrow).2.2.2.2.2.1.trans hmade.startedAt) hin
    rw [← htenant]
    exact ⟨_, hread, env, decisionEnv, command, budget', cost, d, hrequest, rfl, rfl, hresolved, hd,
      hallowed⟩

/-- The same of a tenant, whose budget has at most 16 digits before the point: over all its
    principals, its costs exceed the budget less its allowance by at most `k * most`, in units of
    the last decimal. -/
theorem cost_overshoot (s : Service) (requests : Tid → Request) (db₀ : Db) (tenantId : Uuid)
    (budget : TenantCostBudget) (window : UsageWindow) (most : Int) (k : ℕ) (tr : List Label) (c : Config)
    (hday : DayWindow window) (hbudget : resolveBudget s.settings.budgets tenantId = some budget)
    (hlimit : budget.limit.Fits 28 12) (hmost : 0 ≤ most)
    (hinit : (attributedCost db₀.invocations.rows tenantId window.start window.end).toRat ≤
      budget.limit.toRat - budget.allowance.toRat)
    (h : RunWhere database.exec (FewInFlight (costLedger s.settings tenantId window) requests k) []
      ⟨World.ofDb db₀, fun i => s.program (requests i)⟩ tr c)
    (hrows : ∀ row ∈ c.world.db.invocations, row.tenantId = tenantId →
      row.startedIn window.start window.end = true → ∀ n ∈ row.costTotal, n ≤ most) :
    (attributedCost c.world.db.invocations.rows tenantId window.start window.end).toRat ≤
      budget.limit.toRat - budget.allowance.toRat + k * (most * 10 ^ (-12 : ℤ)) := by
  have hpow : (0 : ℚ) < 10 ^ (-12 : ℤ) := by positivity
  have hl : budget.limit.toRat = unitsAt 12 budget.limit * 10 ^ (-12 : ℤ) := toRat_eq_unitsAt hlimit
  have ha : budget.allowance.toRat = unitsAt 12 budget.allowance * 10 ^ (-12 : ℤ) :=
    toRat_eq_unitsAt (resolveBudget_fits hbudget).2
  rw [hl, ha, ← sub_mul] at hinit ⊢
  rw [toRat_attributedCost _ s.settings rfl] at hinit ⊢
  rw [← mul_assoc, ← add_mul, mul_le_mul_iff_left₀ hpow]
  rw [mul_le_mul_iff_left₀ hpow] at hinit
  have hwithin := (costLedger_checked hday hbudget hlimit).within hmost (by exact_mod_cast hinit) h
    fun row hrow hkeeps => by
      obtain ⟨hkept, hin⟩ := Bool.and_eq_true_iff.mp hkeeps
      exact hrows row hrow (by simpa using hkept) hin
  have htotal := hwithin.total_le
  rw [nsmul_eq_mul] at htotal
  exact_mod_cast htotal

end Cost

/-! ## Two requests at once -/

/-- A budget of one dollar, all of it for one request, and a price of three dollars for thirty
    units. -/
def exampleSpender : Service :=
  { exampleControlPlane with
    settings := ⟨⟨[{
      tenantId := 1
      dailyEstimatedCostBudget := ⟨10, -1⟩
      perInvocationCostAllowance := ⟨10, -1⟩
      currency := "USD"
      budget_accepted := by decide +kernel
      allowance_accepted := by decide +kernel
      allowance_fits_budget := by decide +kernel
      usd := rfl }], List.nodup_singleton _⟩, ⟨[{ PricedUsage.tiedUsage.entry with
      providerModelReference := "gpt"
      pricingVersion := "thirty"
      priceBasisUnits := 30
      inputPricePerBasis := ⟨3, 0⟩
      outputPricePerBasis := ⟨0, 0⟩
      texts_stripped := by decide +kernel
      providerModelReference_length := by decide +kernel
      pricingVersion_length := by decide +kernel
      priceBasisUnits_pos := by decide
      inputPrice_accepted := by decide +kernel
      outputPrice_accepted := by decide +kernel }], List.nodup_singleton _, List.nodup_singleton _⟩⟩ }

/-- A limit of ten units, all of it for one request. -/
def spendingCommand : CreateInvocationCommand := ⟨"caller", 1, 2, 3, "hello", 10, 10⟩

def exampleSpending : Tid → Request
  | 3 => (examplePuts 0).request exampleSubject
  | 4 => .createInvocation ⟨30, 40, 50⟩ ⟨60, 35⟩ spendingCommand
  | 5 => .createInvocation ⟨30, 40, 51⟩ ⟨61, 35⟩ spendingCommand
  | i => exampleRequests i

theorem exampleSpending_cases {i : Tid} {env : InvocationEnv} {decisionEnv : DecisionEnv}
    {command : CreateInvocationCommand} (h : exampleSpending i = .createInvocation env decisionEnv command) :
    (i = 4 ∨ i = 5) ∧ command = spendingCommand := by
  match i with
  | 0 | 1 | 2 | 3 => cases h
  | 4 => cases h; exact ⟨.inl rfl, rfl⟩
  | 5 => cases h; exact ⟨.inr rfl, rfl⟩
  | i + 6 => cases h

/-- Two requests are at most two in flight. -/
theorem exampleSpending_few (L : Ledger) (tr : List Label) (c : Config) (l : Label) (c' : Config) :
    FewInFlight L exampleSpending 2 tr c l c' := by
  intro flying hflying
  have hsubset : flying ⊆ {4, 5} := by
    intro i hi
    obtain ⟨_, _, _, _, _, hrequest, _⟩ := hflying i hi
    simpa using (exampleSpending_cases hrequest).1
  exact Finset.card_le_card hsubset

/-- `n` operations of thread `i`, where the provider has used ten units. -/
def spendingTurns (i : Tid) (n : Nat) : List (Tid × Choice) :=
  List.replicate n (i, ⟨false, 20, .ok ⟨"hello", some ⟨some 10, some 0, some 10, by decide⟩, none⟩⟩)

/-- Both read their ledgers before one of them has stored what it spent. -/
theorem exampleSpending_run : ∃ tr c, RunFrom exampleSpender exampleSpending Db.empty tr c ∧
    consumedTotalUnits c.world.db.invocations.rows "caller" sampleWindow.start sampleWindow.end = 20 ∧
    attributedCost c.world.db.invocations.rows 1 sampleWindow.start sampleWindow.end =
      ⟨2 * 10 ^ 12, -12⟩ ∧
    ∀ row ∈ c.world.db.invocations.rows, row.totalUnits = some 10 ∧ row.costTotal = some (10 ^ 12) := by
  obtain ⟨tr, c, hrun, ht⟩ := schedule_any database.exec
    ⟨World.ofDb Db.empty, fun i => exampleSpender.program (exampleSpending i)⟩
    (turns 0 3 0 ++ turns 1 5 0 ++ turns 2 5 0 ++ turns 3 12 10 ++ spendingTurns 4 14 ++
      spendingTurns 5 18 ++ spendingTurns 4 4)
    (fun t => decide (consumedTotalUnits t.2.world.db.invocations.rows "caller" sampleWindow.start
        sampleWindow.end = 20 ∧
      attributedCost t.2.world.db.invocations.rows 1 sampleWindow.start sampleWindow.end =
        ⟨2 * 10 ^ 12, -12⟩ ∧
      ∀ row ∈ t.2.world.db.invocations.rows, row.totalUnits = some 10 ∧ row.costTotal = some (10 ^ 12)))
    (by decide +kernel)
  exact ⟨tr, c, hrun, of_decide_eq_true ht⟩

theorem sampleWindow_day : DayWindow sampleWindow := ⟨(0 : Utc).toAware, by decide +kernel⟩

theorem usage_overshoot_two : ∃ c : Config,
    spendingCommand.usageLimit <
      consumedTotalUnits c.world.db.invocations.rows "caller" sampleWindow.start sampleWindow.end ∧
    consumedTotalUnits c.world.db.invocations.rows "caller" sampleWindow.start sampleWindow.end ≤
      0 + (2 : ℕ) * 10 := by
  obtain ⟨tr, c, hrun, hconsumed, _, hrows⟩ := exampleSpending_run
  refine ⟨c, by rw [hconsumed]; decide, ?_⟩
  refine usage_overshoot exampleSpender exampleSpending Db.empty "caller" sampleWindow 0 10 2 tr c
    sampleWindow_day ?_ (by decide) (by decide)
    (Run.runWhere (fun _ _ _ _ => exampleSpending_few _ _ _ _ _) hrun) ?_
  · intro i env decisionEnv command hrequest
    obtain ⟨_, rfl⟩ := exampleSpending_cases hrequest
    exact ⟨by decide, fun _ => by decide⟩
  · intro row hrow _ _ n hn
    rw [(hrows row hrow).1, Option.mem_some_iff] at hn
    omega

theorem cost_overshoot_two : ∃ c : Config,
    1 < (attributedCost c.world.db.invocations.rows 1 sampleWindow.start sampleWindow.end).toRat ∧
    (attributedCost c.world.db.invocations.rows 1 sampleWindow.start sampleWindow.end).toRat ≤
      1 - 1 + (2 : ℕ) * ((10 ^ 12 : ℤ) * 10 ^ (-12 : ℤ)) := by
  obtain ⟨tr, c, hrun, _, hcost, hrows⟩ := exampleSpending_run
  have hone : toRat ⟨10, -1⟩ = 1 := by norm_num [toRat]
  obtain ⟨budget, hbudget, hlimit, hallowance⟩ : ∃ budget,
      resolveBudget exampleSpender.settings.budgets 1 = some budget ∧ budget.limit = ⟨10, -1⟩ ∧
        budget.allowance = ⟨10, -1⟩ := ⟨_, rfl, rfl, rfl⟩
  refine ⟨c, by rw [hcost]; norm_num [toRat], ?_⟩
  have hbound := cost_overshoot exampleSpender exampleSpending Db.empty 1 budget sampleWindow (10 ^ 12) 2
    tr c sampleWindow_day hbudget (by rw [hlimit]; decide) (by decide)
    (by rw [hlimit, hallowance, sub_self]; exact le_of_eq toRat_zero)
    (Run.runWhere (fun _ _ _ _ => exampleSpending_few _ _ _ _ _) hrun) (fun row hrow _ _ n hn => by
      rw [(hrows row hrow).2, Option.mem_some_iff] at hn
      omega)
  rw [hlimit, hallowance, hone] at hbound
  exact_mod_cast hbound

end Valor.ControlPlane
