/-
  The control plane: the requests for Invocations, and all requests together.

  The handler is gone through gate by gate. What it carries along is `Ready`: the request is
  admitted, its decision is stored, and nothing of a transaction is open.
-/
import Valor.ControlPlane.Commits
import Valor.Lib.Embedding

namespace Valor.ControlPlane

open Python Postgres ManagementAudit IdentityTenancy AssetRegistry PolicyRisk RuntimeGateway
  Prog Interleave ReadCommitted

/-! ## What a request concludes with -/

section Concluded

variable {settings : RuntimeSettings} {command : CreateInvocationCommand} {c : Invocation.Common}
  {evs evs' : List Event} {effect : String} {invocation : Invocation} {window : UsageWindow}

theorem UsageDecided.mono {d : UsageLimitDecision} (h : UsageDecided command c evs window d)
    (hevs : evs ⊆ evs') : UsageDecided command c evs' window d := by
  obtain ⟨consumed, hread, hd⟩ := h.decided
  exact ⟨h.day, consumed, hevs hread, hd⟩

theorem CostDecided.mono {d : TenantCostBudgetDecision} (h : CostDecided settings c evs window d)
    (hevs : evs ⊆ evs') : CostDecided settings c evs' window d := by
  obtain ⟨budget, cost, hbudget, hread, hd⟩ := h.decided
  exact ⟨budget, cost, hbudget, hevs hread, hd⟩

theorem Allowed.mono (h : Allowed settings command c evs) (hevs : evs ⊆ evs') :
    Allowed settings command c evs' := by
  obtain ⟨window, d, d', husage, hd, hcost, hd'⟩ := h
  exact ⟨window, d, d', husage.mono hevs, hd, hcost.mono hevs, hd'⟩

theorem Concluded.mono (h : Concluded settings command c evs effect invocation) (hevs : evs ⊆ evs') :
    Concluded settings command c evs' effect invocation := by
  cases h with
  | denied hne hi => exact .denied hne hi
  | limited allowed usage exceeded hi => exact .limited allowed (usage.mono hevs) exceeded hi
  | costLimited allowed usage within cost exceeded hi =>
    exact .costLimited allowed (usage.mono hevs) within (cost.mono hevs) exceeded hi
  | failed allowed within called hi => exact .failed allowed (within.mono hevs) (hevs called) hi
  | succeeded allowed within called attributed hi =>
    exact .succeeded allowed (within.mono hevs) (hevs called) attributed hi

/-- What every factory takes over. -/
structure MadeOf (c : Invocation.Common) (status : InvocationStatus) (i : Invocation) : Prop where
  id : i.id = c.invocationId
  tenantId : i.tenantId = c.tenantId
  agentId : i.agentId = c.agentId
  modelId : i.modelId = c.modelId
  status : i.status = status
  startedAt : i.startedAt = c.startedAt
  policyDecisionId : i.policyDecisionId = c.policyDecisionId
  runtimePrincipalId : i.runtimePrincipalId = c.runtimePrincipalId

/-- The constructor changes texts only. -/
theorem madeOf_new {f : InvocationFields} (h : Invocation.new f = .ok invocation)
    {status : InvocationStatus} {duration : Int}
    (hf : ∀ text response, { f with
        inputText := text
        providerResponseId := response } = { f with
        id := c.invocationId
        tenantId := c.tenantId
        agentId := c.agentId
        modelId := c.modelId
        status := status
        inputText := text
        startedAt := c.startedAt
        policyDecisionId := c.policyDecisionId
        runtimePrincipalId := c.runtimePrincipalId
        durationMs := some duration
        providerResponseId := response }) : MadeOf c status invocation := by
  have heq := (InvocationFields.postInit_eq (Invocation.new_ok h)).trans (hf _ _)
  constructor <;> rw [heq]

theorem Concluded.madeOf (h : Concluded settings command c evs effect invocation) :
    ∃ status, MadeOf c status invocation ∧ (status = .denied ↔ effect ≠ "allow") := by
  cases h with
  | denied hne hi =>
    obtain ⟨ms, _, hi⟩ := Except.bind_ok_cases hi
    exact ⟨.denied, madeOf_new hi fun _ _ => rfl, by simpa using hne⟩
  | limited allowed _ _ hi =>
    obtain ⟨ms, _, hi⟩ := Except.bind_ok_cases hi
    exact ⟨.limited, madeOf_new hi fun _ _ => rfl, by simpa using allowed⟩
  | costLimited allowed _ _ _ _ hi =>
    obtain ⟨ms, _, hi⟩ := Except.bind_ok_cases hi
    exact ⟨.costLimited, madeOf_new hi fun _ _ => rfl, by simpa using allowed⟩
  | failed allowed _ _ hi =>
    obtain ⟨ms, _, hi⟩ := Except.bind_ok_cases hi
    exact ⟨.failed, madeOf_new hi fun _ _ => rfl, by simpa using allowed⟩
  | succeeded allowed _ _ _ hi =>
    obtain ⟨ms, _, hi⟩ := Except.bind_ok_cases hi
    exact ⟨.succeeded, madeOf_new hi fun _ _ => rfl, by simpa using allowed⟩

end Concluded

/-! ## The handler over its adapters -/

section Handler

variable {s : Service} {env : InvocationEnv} {decisionEnv : DecisionEnv}
  {command : CreateInvocationCommand} {db₀ : Db} {i : Tid} {inputText : String}
  {decision : RuntimePolicyDecision} {evs : List Event} {v : Traced Db Lock Sql Sql.Res Error}
  {α β : Type}

theorem interpret_ask (impl : (p : Port) → Program p.Res) (p : Port) :
    (ask p).interpret impl = impl p :=
  interpret_perform p

theorem interpret_orMissing (impl : (p : Port) → Program p.Res) (value : Option α) (e : Error) :
    (RuntimeGateway.orMissing value e).interpret impl = orMissing value e := by
  cases value <;> rfl

theorem interpret_persist (settings : RuntimeSettings) (invocation : Invocation) :
    (persist invocation).interpret (port settings decisionEnv) =
      unitOfWork ((execute (.invocationsAdd invocation)).bind fun _ => commit) := by
  have hlast : port settings decisionEnv .rollback = (perform Op.rollback).bind fun a => .ret a :=
    (bind_ret _).symm
  rw [persist, interpret_andFinally hlast, bind_eq, interpret_bind, interpret_ask]
  exact congrArg unitOfWork (congrArg (Prog.bind _) (funext fun _ => interpret_ask _ .commit))

/-- Where the call of the provider stands. -/
theorem interpret_attempt_invoke (settings : RuntimeSettings) (reference : String)
    (k : Except Error ProviderInvocationResult → Handler α) :
    ((attempt (Port.invoke reference inputText)).bind k).interpret (port settings decisionEnv) =
      .call (.sql (.invoke reference inputText)) fun r => (k r).interpret (port settings decisionEnv) :=
  congrArg (Prog.call _) (funext fun r => by cases r <;> rfl)

/-- After the decision, with nothing of a transaction open. -/
structure Ready (env : InvocationEnv) (decisionEnv : DecisionEnv) (command : CreateInvocationCommand)
    (i : Tid) (inputText : String) (decision : RuntimePolicyDecision) (evs : List Event)
    (v : Traced Db Lock Sql Sql.Res Error) : Prop where
  input : validatedInput command.inputText = .ok inputText
  id : decision.id = decisionEnv.decisionId
  second : ⟨.commit, .ok ()⟩ ∈ evs
  known : Knows i evs [] [] (fun db => Admitted (subjectOf command) db ∧
    Decided env.invocationId (subjectOf command) decision db) v

theorem lasting_ready {ls : List Lock} : Lasting discipline ls fun db =>
    Admitted (subjectOf command) db ∧ Decided env.invocationId (subjectOf command) decision db :=
  (lasting_admitted _).and (lasting_decided _ _ _)

theorem Ready.next {evs' : List Event} {v' : Traced Db Lock Sql Sql.Res Error}
    (h : Ready env decisionEnv command i inputText decision evs v) (hevs : evs ⊆ evs')
    (hv : Knows i evs' [] [] (fun db => Admitted (subjectOf command) db ∧
      Decided env.invocationId (subjectOf command) decision db) v') :
    Ready env decisionEnv command i inputText decision evs' v' :=
  ⟨h.input, h.id, hevs h.second, hv⟩

theorem acts_persist {invocation : Invocation} {k : Unit → Program β}
    (h : Ready env decisionEnv command i inputText decision evs v)
    (hc : Concluded s.settings command (commonOf env command inputText decision) evs decision.effect
      invocation)
    (hk : ∀ v, Acts s (.createInvocation env decisionEnv command) db₀ i (k ()) v) :
    Acts s (.createInvocation env decisionEnv command) db₀ i
      (((persist invocation).interpret (port s.settings decisionEnv)).bind k) v := by
  rw [interpret_persist]
  refine follows_transaction (W := fun _ _ _ => True) (fun _ _ _ => trivial)
    (fun _ _ _ _ _ _ => trivial) (fun _ _ _ _ => trivial) (fun _ _ v _ _ => hk v) ?_
  refine follows_change (fun _ => rfl) lasting_ready h.known (fun _ _ => trivial)
    (fun _ _ _ _ _ _ => trivial) fun v a g seen hv _ ha => ?_
  obtain ⟨row, hrow, ha⟩ := Except.bind_ok_cases ha
  obtain ⟨_, hchecks, ha⟩ := Except.bind_ok_cases ha
  obtain ⟨_, hfresh, ha⟩ := Except.bind_ok_cases ha
  iterate 4 obtain ⟨_, _, ha⟩ := Except.bind_ok_cases ha
  cases ha
  obtain ⟨status, hmade, _⟩ := hc.madeOf
  have hid : invocation.id = env.invocationId := hmade.id
  have hknown : Knows i _ _ _ (fun db => (Admitted (subjectOf command) db ∧
      Decided env.invocationId (subjectOf command) decision db) ∧
      db.invocations.find? env.invocationId = none) v :=
    hv.mono fun hf => ⟨hf, hid ▸ constraint_ok hfresh⟩
  have hlasting : Lasting discipline ([.invocation invocation.id] ++ []) fun db =>
      db.invocations.find? env.invocationId = none :=
    lasting_of_mem (l := .invocation env.invocationId) (by simp [hid])
      fun d d' hd (hsame : d'.invocations.find? _ = d.invocations.find? _) => hsame.trans hd
  rw [← bind_ret commit]
  refine acts_commit (b := ()) (lasting_ready.and hlasting) hknown fun db hf => ?_
  exact .conclude h.input hf.1.1 hf.1.2 h.id (List.mem_append_left _ h.second)
    (hc.mono (List.subset_append_left _ _)) (column_ok hrow) (column_ok hchecks) hf.2

/-- A ledger that is read. -/
theorem acts_reader {q : Sql} {f : Choice → Db → Except Error q.Res} {e : Error}
    {k : q.Res → Program β} (hq : ∀ ch, stmt ch q = .query (f ch))
    (hB : ∀ v, Promise (.createInvocation env decisionEnv command) (.sql q) v)
    (h : Ready env decisionEnv command i inputText decision evs v)
    (hk : ∀ v a evs', evs ⊆ evs' → ⟨.sql q, .ok a⟩ ∈ evs' →
      Ready env decisionEnv command i inputText decision evs' v →
      Acts s (.createInvocation env decisionEnv command) db₀ i (k a) v) :
    Acts s (.createInvocation env decisionEnv command) db₀ i ((orUnavailable e (session q)).bind k)
      v := by
  refine ((similar_mapError _ (session q)).bind fun a => .refl (k a)).safe (fun _ _ _ _ => trivial) ?_
  refine acts_session (G := fun _ _ => True) hq hB (fun _ _ _ _ => trivial) (fun _ => lasting_true)
    lasting_ready h.known fun v a hv => ?_
  have hevs := List.subset_append_left evs [⟨.sql q, .ok a⟩, ⟨.rollback, .ok ()⟩]
  exact hk v a _ hevs (by simp) (h.next hevs (hv.mono And.left))

/-- The result of the provider is priced and stored. -/
theorem succeed_acts {model : ModelRuntimeReference} {result : ProviderInvocationResult}
    (h : Ready env decisionEnv command i inputText decision evs v) (hallow : decision.effect = "allow")
    (hwithin : Allowed s.settings command (commonOf env command inputText decision) evs)
    (hcalled : ⟨.sql (.invoke model.providerModelReference inputText), .ok result⟩ ∈ evs) :
    Acts s (.createInvocation env decisionEnv command) db₀ i
      ((succeed (commonOf env command inputText decision) model result).interpret
        (port s.settings decisionEnv)) v := by
  rw [succeed, bind_eq, interpret_bind, interpret_ask]
  show Acts s _ db₀ i ((Prog.ret _).bind _) v
  rw [ret_bind, bind_eq, interpret_bind, orCostError, interpret_lift]
  refine acts_lift fun cost hcost => ?_
  rw [bind_eq, interpret_bind, orInvocationError, interpret_lift]
  refine acts_lift fun succeeded hi => ?_
  rw [bind_eq, interpret_bind]
  exact acts_persist h (.succeeded hallow hwithin hcalled hcost hi) fun v => acts_ret

/-- The provider is called where every gate has let the request through. -/
theorem execute_acts {model : ModelRuntimeReference}
    (h : Ready env decisionEnv command i inputText decision evs v) (hallow : decision.effect = "allow")
    (hwithin : Allowed s.settings command (commonOf env command inputText decision) evs) :
    Acts s (.createInvocation env decisionEnv command) db₀ i
      ((RuntimeGateway.execute (commonOf env command inputText decision) model).interpret
        (port s.settings decisionEnv)) v := by
  rw [RuntimeGateway.execute, bind_eq, interpret_attempt_invoke]
  refine follows_attempt (fun _ => rfl) lasting_ready h.known
    (fun v hv => ⟨decision, h.id, hallow, hv.fact.2⟩) fun v r ch hv _ _ => ?_
  have h' := h.next (List.subset_append_left _ _) hv
  have hwithin' := hwithin.mono (List.subset_append_left evs
    [⟨.sql (.invoke model.providerModelReference inputText), r⟩])
  have hmem : ⟨.sql (.invoke model.providerModelReference inputText), r⟩ ∈
    evs ++ [⟨.sql (.invoke model.providerModelReference inputText), r⟩] := by simp
  cases r with
  | ok result => exact succeed_acts h' hallow hwithin' hmem
  | error e =>
    cases e with
    | providerTransportError =>
      show Acts s _ db₀ i (interpret (port s.settings decisionEnv) ((orInvocationError _).bind _)) v
      rw [interpret_bind, orInvocationError, interpret_lift]
      refine acts_lift fun failed hi => ?_
      rw [bind_eq, interpret_bind]
      exact acts_persist h' (.failed hallow hwithin' hmem hi) fun v => acts_raise
    | _ => exact acts_raise

theorem withinUsage_acts {model : ModelRuntimeReference} {window : UsageWindow}
    {d : UsageLimitDecision} (h : Ready env decisionEnv command i inputText decision evs v)
    (hallow : decision.effect = "allow")
    (husage : UsageDecided command (commonOf env command inputText decision) evs window d)
    (hd : d.allowed = true) :
    Acts s (.createInvocation env decisionEnv command) db₀ i
      ((withinUsage (commonOf env command inputText decision) model window).interpret
        (port s.settings decisionEnv)) v := by
  rw [withinUsage, bind_eq, interpret_bind, interpret_ask]
  show Acts s _ db₀ i ((Prog.ret _).bind _) v
  rw [ret_bind, bind_eq, interpret_bind, interpret_orMissing]
  refine acts_orMissing fun budget hbudget => ?_
  rw [bind_eq, interpret_bind, interpret_ask]
  refine acts_reader (fun _ => rfl) (fun _ => trivial) h fun v cost evs' hevs hread h => ?_
  rw [bind_eq, interpret_bind, RuntimeGateway.orValueError, interpret_lift]
  refine acts_lift fun d' hd' => ?_
  have husage' := husage.mono hevs
  have hcost : CostDecided s.settings (commonOf env command inputText decision) evs' window d' :=
    ⟨budget, cost, hbudget, hread, hd'⟩
  cases hallowed : d'.allowed with
  | true =>
    rw [if_pos rfl]
    exact execute_acts h hallow ⟨window, d, d', husage', hd, hcost, hallowed⟩
  | false =>
    rw [if_neg Bool.false_ne_true, bind_eq, interpret_bind, orInvocationError, interpret_lift]
    refine acts_lift fun costLimited hi => ?_
    rw [bind_eq, interpret_bind]
    exact acts_persist h (.costLimited hallow husage' hd hcost hallowed hi) fun v => acts_raise

theorem allowed_acts {model : ModelRuntimeReference}
    (h : Ready env decisionEnv command i inputText decision evs v)
    (hallow : decision.effect = "allow") :
    Acts s (.createInvocation env decisionEnv command) db₀ i
      ((allowed (commonOf env command inputText decision) command model).interpret
        (port s.settings decisionEnv)) v := by
  rw [allowed, bind_eq, interpret_bind, orOverflow, interpret_lift]
  refine acts_lift fun window hwindow => ?_
  rw [bind_eq, interpret_bind, interpret_ask]
  refine acts_reader (fun _ => rfl) (fun _ => trivial) h fun v consumed evs' hevs hread h => ?_
  rw [bind_eq, interpret_bind, RuntimeGateway.orValueError, interpret_lift]
  refine acts_lift fun d hd => ?_
  have husage : UsageDecided command (commonOf env command inputText decision) evs' window d :=
    ⟨hwindow, consumed, hread, hd⟩
  cases hallowed : d.allowed with
  | true =>
    rw [if_pos rfl]
    exact withinUsage_acts h hallow husage hallowed
  | false =>
    rw [if_neg Bool.false_ne_true, bind_eq, interpret_bind, orInvocationError, interpret_lift]
    refine acts_lift fun limited hi => ?_
    rw [bind_eq, interpret_bind]
    exact acts_persist h (.limited hallow husage hallowed hi) fun v => acts_raise

theorem ofPermission_made {id invocationId : Uuid} {subject : Subject}
    {permission : Option AgentModelPermission} {decidedAt : Datetime} {d : PolicyDecision}
    (h : PolicyDecision.ofPermission id invocationId subject permission decidedAt = .ok d) :
    d.id = id ∧ d.invocationId = invocationId ∧ d.subject = subject ∧
      d.permissionId = permission.map (·.id) ∧
      d.effect = (permission.map (·.effect)).getD .deny := by
  obtain ⟨_, _, h⟩ := Except.bind_ok_cases h
  cases h
  exact ⟨rfl, rfl, rfl, rfl, rfl⟩

/-- The policy is evaluated, and its decision stored. -/
theorem acts_decide {before : List Event} {k : PolicyDecision → Program β}
    (hreading : ∀ e ∈ before, reads e.op = true)
    (h : Knows i before [] [] (Admitted (subjectOf command)) v)
    (hk : ∀ v evs (d : PolicyDecision), ⟨.commit, .ok ()⟩ ∈ evs → d.id = decisionEnv.decisionId →
      Knows i evs [] [] (fun db => Admitted (subjectOf command) db ∧
        Decided env.invocationId (subjectOf command) ⟨d.id, d.effect.value, d.permissionId⟩ db) v →
      Acts s (.createInvocation env decisionEnv command) db₀ i (k d) v) :
    Acts s (.createInvocation env decisionEnv command) db₀ i
      ((evaluatePermission decisionEnv env.invocationId (subjectOf command)).bind k) v := by
  let P' : Except Error PolicyDecision → List Event → Db → Prop := fun outcome evs db =>
    match outcome with
    | .ok d => (⟨.commit, .ok ()⟩ ∈ evs ∧ d.id = decisionEnv.decisionId) ∧
        Admitted (subjectOf command) db ∧
        Decided env.invocationId (subjectOf command) ⟨d.id, d.effect.value, d.permissionId⟩ db
    | .error _ => True
  have hgrows : ∀ outcome evs d d', P' outcome evs d → Later d d' → P' outcome evs d' := by
    intro outcome evs d d' hP hlater
    cases outcome with
    | error e => trivial
    | ok decision =>
      exact ⟨hP.1, lasting_ready d d' hP.2 hlater (fun l (hl : l ∈ []) => nomatch hl) (by simp)⟩
  refine follows_transaction (W := P') (fun _ _ _ => trivial) hgrows (fun _ _ _ _ => trivial)
    (fun d evs v hv _ => ?_) ?_
  · obtain ⟨⟨hcommit, hid⟩, hfact⟩ := hv.fact
    exact hk v _ d (List.mem_append_left _ hcommit) hid (hv.mono fun _ => hfact)
  · refine follows_query (fun _ => rfl) (lasting_admitted _) h (fun _ _ => trivial)
      (fun _ _ _ _ _ => trivial) fun v permission ch hv _ _ => ?_
    refine safe_lift (fun _ _ => trivial) fun decision hmade => ?_
    refine follows_change (fun _ => rfl) (lasting_admitted _) hv (fun _ _ => trivial)
      (fun _ _ _ _ _ _ => trivial) fun v a g seen hv _ ha => ?_
    obtain ⟨row, hrow, ha⟩ := Except.bind_ok_cases ha
    obtain ⟨_, hfresh, ha⟩ := Except.bind_ok_cases ha
    obtain ⟨_, _, ha⟩ := Except.bind_ok_cases ha
    obtain ⟨_, _, ha⟩ := Except.bind_ok_cases ha
    obtain ⟨_, _, ha⟩ := Except.bind_ok_cases ha
    cases ha
    have hrow := column_ok hrow
    obtain ⟨hid, hinvocation, hsubject, _, _⟩ := ofPermission_made hmade
    obtain ⟨hrid, hrinvocation, hrsubject, hrpermission, hreffect⟩ := ofDecision_ok hrow
    have hknown : Knows i _ _ _ (fun db => Admitted (subjectOf command) db ∧
        db.decisions.find? decisionEnv.decisionId = none) v :=
      hv.mono fun hf => ⟨hf, hid ▸ constraint_ok hfresh⟩
    have hlasting : Lasting discipline ([.decision decision.id, .decisionOf decision.invocationId] ++
        []) fun db => db.decisions.find? decisionEnv.decisionId = none :=
      lasting_of_mem (l := .decision decisionEnv.decisionId) (by simp [hid])
        fun d d' hd (hsame : d'.decisions.find? _ = d.decisions.find? _) => hsame.trans hd
    refine follows_commit (b := decision) ((lasting_admitted _).and hlasting) hknown
      (fun _ _ => trivial) (fun _ _ _ => trivial) (fun v hv _ => ?_) fun db hf => ?_
    · show Commit s _ (own i v.2) v.1.db (v.1.view i)
      rw [hv.own, hv.view]
      exact .decide (by simp) hreading hv.fact.1 hmade hrow hv.fact.2
    · have hfind : db.decisions.find? row.id = none := by rw [hrid, hid]; exact hf.2
      exact ⟨⟨by simp, hid⟩, hf.1.later (later_insertDecision row), row,
        Table.mem_insert.mpr (.inr ⟨rfl, hfind⟩), hrid, hrinvocation.trans hinvocation, hrsubject.trans hsubject,
        hrpermission, congrArg PolicyEffect.value hreffect⟩

theorem admitted_acts {k : ModelRuntimeReference → Program β}
    (hk : ∀ v before model, (∀ e ∈ before, reads e.op = true) →
      Knows i before [] [] (Admitted (subjectOf command)) v →
      Acts s (.createInvocation env decisionEnv command) db₀ i (k model) v) :
    Acts s (.createInvocation env decisionEnv command) db₀ i
      (((admitted command).interpret (port s.settings decisionEnv)).bind k) (World.ofDb db₀, []) := by
  rw [admitted, bind_eq, interpret_bind, interpret_ask, bind_assoc]
  simp only [bind_eq, interpret_bind, interpret_raiseWhen, bind_assoc]
  refine acts_tenantExists lasting_true (knows_start db₀) fun v h => ?_
  rw [interpret_ask]
  simp only [interpret_orMissing]
  refine acts_getAgent (lasting_true.and (lasting_tenant _)) h fun v found agent h => ?_
  rw [interpret_ask]
  refine acts_getModel ((lasting_true.and (lasting_tenant _)).and (lasting_agent _ _)) h
    fun v found' model h => ?_
  refine acts_raiseWhen fun _ => hk v _ model ?_ (h.mono fun hf => ⟨hf.1.1.2, hf.1.2, hf.2⟩)
  simp [reads]

theorem createInvocation_acts : Acts s (.createInvocation env decisionEnv command) db₀ i
    (createInvocation s.settings env decisionEnv command) (World.ofDb db₀, []) := by
  rw [createInvocation, RuntimeGateway.createInvocation, bind_eq, interpret_bind, orInvocationError,
    interpret_lift]
  refine acts_lift fun inputText hinput => ?_
  rw [bind_eq, interpret_bind]
  refine admitted_acts fun v before model hreading h => ?_
  rw [bind_eq, interpret_bind, interpret_ask]
  show Acts s _ db₀ i (((evaluatePermission decisionEnv env.invocationId (subjectOf command)).bind
    fun d => .ret (⟨d.id, d.effect.value, d.permissionId⟩ : RuntimePolicyDecision)).bind _) v
  rw [bind_assoc]
  refine acts_decide hreading h fun v evs d hcommit hid h => ?_
  have hready : Ready env decisionEnv command i inputText ⟨d.id, d.effect.value, d.permissionId⟩
    evs v := ⟨hinput, hid, hcommit, h⟩
  rw [ret_bind]
  dsimp only
  split
  · next hallow => exact allowed_acts hready hallow
  · next hdeny =>
    rw [bind_eq, interpret_bind, orInvocationError, interpret_lift]
    refine acts_lift fun denied hi => ?_
    rw [bind_eq, interpret_bind]
    exact acts_persist hready (.denied hdeny hi) fun v => acts_raise

end Handler

/-! ## All requests -/

theorem program_acts (s : Service) (r : Request) (db₀ : Db) (i : Tid) :
    Acts s r db₀ i (s.program r) (World.ofDb db₀, []) := by
  cases r with
  | createTenant env name => exact acts_map createTenant_acts
  | registerAgent env command => exact acts_map registerAgent_acts
  | registerModel env command => exact acts_map registerModel_acts
  | setPermission env principalId subject effect => exact acts_map setPermission_acts
  | createInvocation env decisionEnv command => exact acts_map createInvocation_acts

section Runs

variable {s : Service} {requests : Tid → Request} {db₀ : Db} {tr : List Label} {c c' : Config}
  {l : Label}

/-- A step commits what its request commits, or nothing. -/
theorem step_commits (h : RunFrom s requests db₀ tr c) (hs : Step database.exec c l c') :
    CommitsOnly (fun w => Commits s (requests l.tid) l.tid (w, tr)) l.tid l.event.op l.event.answer
      c.world c'.world :=
  run_step (D := database) (C := fun i => Commits s (requests i) i) (B := fun i => Promise (requests i)) lawful
    (fun ch _ => stmt_within ch) (fun _ _ => Commits.disciplined) (fun _ _ _ _ _ _ _ => trivial)
    (fun i => program_acts s (requests i) db₀ i) h hs

/-- A provider is called after a decision to allow is stored. -/
theorem step_promised (h : RunFrom s requests db₀ tr c) (hs : Step database.exec c l c') :
    Promise (requests l.tid) l.event.op (c.world, tr) :=
  run_before (D := database) (C := fun i => Commits s (requests i) i) (B := fun i => Promise (requests i)) lawful
    (fun ch _ => stmt_within ch) (fun _ _ => Commits.disciplined) (fun _ _ _ _ _ _ _ => trivial)
    (fun i => program_acts s (requests i) db₀ i) h hs

theorem step_cases (h : RunFrom s requests db₀ tr c) (hs : Step database.exec c l c') :
    c'.world.db = c.world.db ∨
      (l = committed l.tid ∧
        Commit s (requests l.tid) (own l.tid tr) c.world.db c'.world.db) := by
  obtain ⟨hl, hcommit, hdb⟩ | ⟨_, hdb⟩ := (step_commits h hs).label_cases
  · refine .inr ⟨hl, ?_⟩
    rw [hdb, db_commit]
    exact hcommit
  · exact .inl hdb

/-- What holds at first and is kept by every commit holds in every state that is reached. -/
theorem RunFrom.invariant {inv : Db → Prop} (hinit : inv db₀)
    (hcommit : ∀ i evs db db', inv db → Commit s (requests i) evs db db' → inv db')
    (h : RunFrom s requests db₀ tr c) : inv c.world.db := by
  unfold RunFrom at h
  induction h with
  | nil => exact hinit
  | snoc h hs ih =>
    obtain hdb | ⟨_, hc⟩ := step_cases h hs
    · rw [hdb]
      exact ih
    · exact hcommit _ _ _ _ ih hc

theorem RunFrom.later (h : RunFrom s requests db₀ tr c) : Later db₀ c.world.db :=
  h.invariant (.refl db₀) fun _ _ _ _ hlater hc => hlater.trans hc.later

end Runs

end Valor.ControlPlane
