/-
  The control plane: tenants do not notice each other.

  The requests of a scope are those for its tenants, and those that create tenants. Each of
  them is blind to the rest of the database: what it looks up of others it drops as if it were
  not there, the ledgers that it reads are of its own tenant and principal, and its insertions
  fail only on names and ids of its own. The commits of the other requests are not seen. Hence
  the requests of the scope run as they would alone (`tenants_isolated`).
-/
import Valor.ControlPlane.Loading
import Valor.ControlPlane.Scope

namespace Valor.ControlPlane

open Python Postgres ManagementAudit IdentityTenancy AssetRegistry PolicyRisk RuntimeGateway
  Prog Interleave ReadCommitted Settings

/-! ## Blind programs -/

section Rules

variable {σ : Scope} {i : Tid} {K : Seen → Prop} {α β : Type}

/-- The program does not notice what the scope does not see. -/
abbrev Blinded (σ : Scope) (i : Tid) (clean : Bool) (K : Seen → Prop) (p : Program α) : Prop :=
  Blind database σ.sight i (fun _ _ _ => True) clean K p

variable {clean : Bool}

theorem blinded_ret (a : α) : Blinded σ i clean K (.ret a) := .ret trivial

theorem blinded_raise (e : Error) : Blinded σ i clean K (.raise e : Program α) := .raise trivial

theorem blinded_lift {ε : Type} {g : ε → Error} {x : Except ε β} {f : β → Program α}
    (hf : ∀ b, x = .ok b → Blinded σ i clean K (f b)) : Blinded σ i clean K ((lift g x).bind f) :=
  blind_lift (fun _ => trivial) hf

theorem blinded_raiseWhen {c : Prop} [Decidable c] {e : Error} {f : Unit → Program α}
    (hf : ¬c → Blinded σ i clean K (f ())) : Blinded σ i clean K ((raiseWhen c e).bind f) :=
  blind_raiseWhen trivial hf

theorem blinded_map {p : Program α} {f : α → β} (h : Blinded σ i clean K p) :
    Blinded σ i clean K (f <$> p) :=
  h.bind (fun _ _ _ _ => trivial) fun _ _ _ _ => .ret trivial

theorem blinded_orMissing {x : Option β} {e : Error} {f : β → Program α}
    (hf : ∀ b, Blinded σ i clean K (f b)) : Blinded σ i clean K ((orMissing x e).bind f) := by
  cases x with
  | none => exact blinded_raise e
  | some b => exact hf b

/-- A session whose answer is the same. -/
theorem blinded_session {q : Sql} {g : Choice → Db → Except Error q.Res} {f : q.Res → Program α}
    (hq : ∀ ch, stmt ch q = .query (g ch)) (hK : σ.sight.Lasts K)
    (hsame : ∀ ch d d', σ.sees d = σ.sees d' → K (σ.sees d) → g ch d = g ch d')
    (hf : ∀ a, Blinded σ i true K (f a)) : Blinded σ i true K ((session q).bind f) :=
  blind_session (L := fun _ => K)
    (fun ch => ⟨g ch, hq ch, fun d d' hd hk => congrArg (Except.map f) (hsame ch d d' hd hk), fun _ _ hk _ => hk⟩)
    hK (fun _ => hK) (fun _ => trivial) hf

theorem blinded_tenantExists {tenantId : Uuid} {f : Bool → Program α} (hK : σ.sight.Lasts K)
    (hf : ∀ b, Blinded σ i true K (f b)) : Blinded σ i true K ((session (.tenantExists tenantId)).bind f) := by
  refine blinded_session (q := .tenantExists tenantId) (fun _ => rfl) hK (fun _ d d' hd _ => ?_) hf
  rw [tenants_eq hd]

theorem blinded_knowing {K' : Seen → Prop} {p : Program α} (h : Blinded σ i clean K p)
    (hK : ∀ v, K' v → K v) : Blinded σ i clean K' p :=
  h.knowing hK fun _ _ _ _ _ h => h

/-- What is looked up by its id and has to be of a tenant of the scope. -/
theorem blinded_lookup {γ : Type} {q : Sql} {e : Error} {F : Seen → Prop} {f : γ → Program α}
    (get : Db → q.Res) (filter : q.Res → Option γ) (hq : ∀ ch, stmt ch q = .query fun db => .ok (get db))
    (hsame : ∀ d d', σ.sees d = σ.sees d' → filter (get d) = filter (get d'))
    (hlearns : ∀ d b, filter (get d) = some b → F (σ.sees d)) (hK : σ.sight.Lasts K)
    (hF : σ.sight.Lasts F) (hf : ∀ b, Blinded σ i true (fun v => K v ∧ F v) (f b)) :
    Blinded σ i true K ((session q).bind fun a => (orMissing (filter a) e).bind f) := by
  refine blind_session (L := fun a v => K v ∧ (filter a ≠ none → F v)) (fun ch => ⟨_, hq ch, ?_, ?_⟩) hK
    (fun a => ?_) (fun _ => trivial) fun a => ?_
  · intro d d' hd _
    have hfilter := hsame d d' hd
    simp only [Except.map, hfilter]
  · rintro d a hk ⟨⟩
    refine ⟨hk, fun hne => ?_⟩
    obtain ⟨b, hb⟩ := Option.ne_none_iff_exists'.mp hne
    exact hlearns d b hb
  · exact hK.and fun v v' h hgrows hne => hF v v' (h hne) hgrows
  · cases hb : filter a with
    | none => exact blinded_raise e
    | some b => exact blinded_knowing (hf b) fun v hv => ⟨hv.1, hv.2 (Option.some_ne_none b)⟩

theorem blinded_getAgent {agentId tenantId : Uuid} {e : Error} {f : AgentRuntimeIdentity → Program α}
    (ht : σ.owns tenantId = true) (hK : σ.sight.Lasts K)
    (hf : ∀ agent, Blinded σ i true (fun v => K v ∧ v.hasAgent agentId) (f agent)) :
    Blinded σ i true K ((session (.getAgent agentId)).bind fun agent =>
      (orMissing (agent.filter (·.tenantId = tenantId)) e).bind f) := by
  refine blinded_lookup (q := .getAgent agentId) (fun db => db.getAgent agentId)
    (fun agent => agent.filter (·.tenantId = tenantId)) (fun _ => rfl) (fun d d' hd => ?_)
    (fun d agent h => hasAgent_of_getAgent ht h) hK (lasts_hasAgent agentId) hf
  rw [getAgent_filter ht, getAgent_filter ht, hd]

theorem blinded_getModel {modelId tenantId : Uuid} {e : Error} {f : ModelRuntimeReference → Program α}
    (ht : σ.owns tenantId = true) (hK : σ.sight.Lasts K)
    (hf : ∀ model, Blinded σ i true (fun v => K v ∧ v.hasModel modelId) (f model)) :
    Blinded σ i true K ((session (.getModel modelId)).bind fun model =>
      (orMissing (model.filter (·.tenantId = tenantId)) e).bind f) := by
  refine blinded_lookup (q := .getModel modelId) (fun db => db.getModel modelId)
    (fun model => model.filter (·.tenantId = tenantId)) (fun _ => rfl) (fun d d' hd => ?_)
    (fun d model h => hasModel_of_getModel ht h) hK (lasts_hasModel modelId) hf
  rw [getModel_filter ht, getModel_filter ht, hd]

/-- A change, and the commit after it. -/
theorem blinded_change {q : Sql} {f : q.Res → Program α} (hq : σ.Changes K q)
    (hf : ∀ a, Blinded σ i false K (f a)) : Blinded σ i clean K ((execute q).bind f) :=
  blind_change (fun ch => hq ch) (fun _ => trivial) hf

theorem blinded_commit {f : Unit → Program α} (hf : Blinded σ i true K (f ())) :
    Blinded σ i clean K (commit.bind f) :=
  blind_commit (fun _ _ => trivial) hf

theorem blinded_unitOfWork {p : Program α} (h : Blinded σ i clean K p) :
    Blinded σ i clean K (unitOfWork p) :=
  h.unitOfWork fun _ _ _ _ => trivial

end Rules

/-! ## The commands -/

section Commands

variable {σ : Scope} {i : Tid} {K : Seen → Prop} {α : Type}

theorem createTenant_blinded {casefold : String → String} {env : AssetEnv} {name : String} :
    Blinded σ i true (fun _ => True) (createTenant casefold env name) := by
  refine blinded_lift fun tenant _ => blinded_unitOfWork ?_
  exact blinded_change (tenantsAdd_changes tenant) fun _ => blinded_commit (blinded_ret tenant)

theorem registerAgent_blinded {casefold : String → String} {env : AssetEnv} {command : RegisterAgentCommand}
    (ht : σ.owns command.tenantId = true) (hid : env.id ∈ σ.ids) :
    Blinded σ i true (fun _ => True) (registerAgent casefold env command) := by
  refine blinded_lift fun agent hagent => ?_
  have htenant : σ.owns agent.tenantId = true := (agent_registered hagent).2 ▸ ht
  have hfresh : agent.id ∈ σ.ids := (agent_registered hagent).1 ▸ hid
  refine blinded_tenantExists Sight.lasts_true fun b => blinded_raiseWhen fun _ => blinded_unitOfWork ?_
  exact blinded_change (agentsAdd_changes htenant hfresh) fun _ => blinded_commit (blinded_ret agent)

theorem registerModel_blinded {casefold : String → String} {env : AssetEnv} {command : RegisterModelCommand}
    (ht : σ.owns command.tenantId = true) (hid : env.id ∈ σ.ids) :
    Blinded σ i true (fun _ => True) (registerModel casefold env command) := by
  refine blinded_lift fun model hmodel => ?_
  have htenant : σ.owns model.tenantId = true := (model_registered hmodel).2 ▸ ht
  have hfresh : model.id ∈ σ.ids := (model_registered hmodel).1 ▸ hid
  refine blinded_tenantExists Sight.lasts_true fun b => blinded_raiseWhen fun _ => blinded_unitOfWork ?_
  exact blinded_change (modelsAdd_changes htenant hfresh) fun _ => blinded_commit (blinded_ret model)

/-- What a request knows of its Agent and its Model after its admission. -/
structure Known (σ : Scope) (subject : Subject) (K : Seen → Prop) : Prop where
  lasts : σ.sight.Lasts K
  agent : ∀ v, K v → v.hasAgent subject.agentId
  model : ∀ v, K v → v.hasModel subject.modelId

def Admission (subject : Subject) (v : Seen) : Prop :=
  v.hasAgent subject.agentId ∧ v.hasModel subject.modelId

theorem known_admission (subject : Subject) : Known σ subject (Admission subject) :=
  ⟨(lasts_hasAgent _).and (lasts_hasModel _), fun _ h => h.1, fun _ h => h.2⟩

theorem admitPermission_blinded {subject : Subject} {f : Unit → Program α}
    (ht : σ.owns subject.tenantId = true) (hf : Blinded σ i true (Admission subject) (f ())) :
    Blinded σ i true (fun _ => True) ((admitPermission subject).bind f) := by
  simp only [admitPermission, bind_eq, bind_assoc]
  refine blinded_tenantExists Sight.lasts_true fun b => blinded_raiseWhen fun _ => ?_
  refine blinded_getAgent ht Sight.lasts_true fun agent => ?_
  refine blinded_getModel ht (Sight.lasts_true.and (lasts_hasAgent _)) fun model => ?_
  exact blinded_knowing hf fun v hv => ⟨hv.1.2, hv.2⟩

/-- A query of the current transaction, whose answer is the same. -/
theorem blinded_query {q : Sql} {g : Choice → Db → Except Error q.Res} {f : q.Res → Program α}
    (hq : ∀ ch, stmt ch q = .query (g ch)) (hK : σ.sight.Lasts K)
    (hsame : ∀ ch d d', σ.sees d = σ.sees d' → K (σ.sees d) → g ch d = g ch d')
    (hf : ∀ a, Blinded σ i true K (f a)) : Blinded σ i true K ((execute q).bind f) :=
  blind_query (L := fun _ => K) (fun ch => ⟨g ch, hq ch, hsame ch, fun _ hk => hk⟩) (fun _ hk => hk)
    (fun _ => hK) (fun _ => trivial) hf

theorem setPermission_blinded {sha256 : Sha256} {env : PermissionEnv} {command : SetAgentModelPermissionCommand}
    (ht : σ.owns command.subject.tenantId = true) (hid : env.permissionId ∈ σ.ids) :
    Blinded σ i true (fun _ => True) (setPermission sha256 env command) := by
  have hknown := known_admission (σ := σ) command.subject
  refine admitPermission_blinded ht ?_
  refine blinded_query (q := .clock) (fun _ => rfl) hknown.lasts (fun _ _ _ _ _ => rfl) fun now => ?_
  refine blinded_lift fun proposed hproposed => blinded_unitOfWork ?_
  obtain ⟨hsubject, hrow⟩ := proposed_ok hproposed
  have hfresh : proposed.id ∈ σ.ids := (ofPermission_ok hrow).1 ▸ hid
  have htenant : proposed.tenantId = command.subject.tenantId := congrArg Subject.tenantId hsubject
  have hagent : proposed.agentId = command.subject.agentId := congrArg Subject.agentId hsubject
  have hmodel : proposed.modelId = command.subject.modelId := congrArg Subject.modelId hsubject
  refine blinded_query (q := .getEffective command.subject) (fun _ => rfl) hknown.lasts
    (fun _ d d' hd _ => getEffective_eq ht hd) fun previous => ?_
  refine blinded_change (permissionsSet_changes ?_ hfresh ?_ ?_) fun effective => ?_
  · exact htenant ▸ ht
  · exact fun v hv => hagent ▸ hknown.agent v hv
  · exact fun v hv => hmodel ▸ hknown.model v hv
  refine blinded_lift fun record _ => ?_
  exact blinded_change (auditsAppend_changes record) fun _ => blinded_commit (blinded_ret effective)

end Commands

/-! ## The handler of Invocations -/

section Handler

variable {σ : Scope} {i : Tid} {K : Seen → Prop} {α β : Type} {settings : RuntimeSettings}
  {env : InvocationEnv} {decisionEnv : DecisionEnv} {command : CreateInvocationCommand}
  {c : Invocation.Common} {model : ModelRuntimeReference}

/-- An Invocation of the scope, and what its request knows when it is stored. -/
structure Concluding (σ : Scope) (c : Invocation.Common) (K : Seen → Prop) : Prop where
  known : Known σ ⟨c.tenantId, c.agentId, c.modelId⟩ K
  tenant : σ.owns c.tenantId = true
  principal : c.runtimePrincipalId ∈ σ.principalIds
  id : c.invocationId ∈ σ.ids
  decision : c.policyDecisionId ∈ σ.ids

theorem persist_blinded {status : InvocationStatus} {invocation : Invocation} {f : Unit → Program β}
    (h : Concluding σ c K) (hmade : MadeOf c status invocation) (hf : Blinded σ i true K (f ())) :
    Blinded σ i true K (((persist invocation).interpret (port settings decisionEnv)).bind f) := by
  have hchanges : σ.Changes K (.invocationsAdd invocation) := by
    refine invocationsAdd_changes ?_ ?_ ?_ (fun v hv => ?_) fun v hv => ?_
    · exact hmade.tenantId ▸ h.tenant
    · exact hmade.id ▸ h.id
    · exact hmade.policyDecisionId ▸ h.decision
    · exact hmade.agentId ▸ h.known.agent v hv
    · exact hmade.modelId ▸ h.known.model v hv
  rw [interpret_persist]
  refine Blind.bind (M := fun clean K' _ => clean = true ∧ K' = K) ?_ (fun _ _ _ _ => trivial) ?_
  · refine Blind.unitOfWork (N := fun _ K' _ => K' = K) ?_ fun _ _ _ hK => ⟨rfl, hK⟩
    refine blind_change (fun ch => hchanges ch) (fun _ => rfl) fun _ => ?_
    exact .commit (.ret rfl) fun _ => .raise rfl
  · rintro _ _ _ ⟨rfl, rfl⟩
    exact hf

/-- A ledger of the tenant or of the principal. -/
theorem ledger_blinded {q : Sql} {g : Db → Except Error q.Res} {e : Error} {f : q.Res → Program β}
    (hq : ∀ ch, stmt ch q = .query g) (hK : σ.sight.Lasts K)
    (hsame : ∀ d d', σ.sees d = σ.sees d' → g d = g d') (hf : ∀ a, Blinded σ i true K (f a)) :
    Blinded σ i true K ((orUnavailable e (session q)).bind f) := by
  refine Blind.bind (M := fun clean K' _ => clean = true ∧ K' = K) ?_ (fun _ _ _ _ => trivial) ?_
  · refine Blind.tryBind (M := fun clean K' _ => clean = true ∧ K' = K) ?_ fun clean K' x hx => ?_
    · rw [← bind_ret (session q)]
      exact blind_session (L := fun _ => K)
        (fun ch => ⟨g, hq ch, fun d d' hd _ => congrArg _ (hsame d d' hd), fun _ _ hk _ => hk⟩) hK
        (fun _ => hK) (fun _ => ⟨rfl, rfl⟩) fun _ => .ret ⟨rfl, rfl⟩
    · cases x with
      | ok a => exact .ret hx
      | error e => exact .raise hx
  · rintro _ _ a ⟨rfl, rfl⟩
    exact hf a

theorem succeed_blinded {result : ProviderInvocationResult} (h : Concluding σ c K) :
    Blinded σ i true K ((succeed c model result).interpret (port settings decisionEnv)) := by
  rw [succeed, bind_eq, interpret_bind, interpret_ask]
  show Blinded σ i true K ((Prog.ret _).bind _)
  rw [ret_bind, bind_eq, interpret_bind, orCostError, interpret_lift]
  refine blinded_lift fun cost _ => ?_
  rw [bind_eq, interpret_bind, orInvocationError, interpret_lift]
  refine blinded_lift fun succeeded hi => ?_
  obtain ⟨ms, _, hi⟩ := Except.bind_ok_cases hi
  rw [bind_eq, interpret_bind]
  exact persist_blinded h (madeOf_new hi fun _ _ => rfl) (blinded_ret succeeded)

theorem execute_blinded (h : Concluding σ c K) :
    Blinded σ i true K ((RuntimeGateway.execute c model).interpret (port settings decisionEnv)) := by
  rw [RuntimeGateway.execute, bind_eq, interpret_attempt_invoke]
  refine .query (fun _ => K) (fun ch => ⟨_, rfl, fun d d' _ _ => rfl, fun _ hk => hk⟩) (fun _ hk => hk)
    (fun _ => h.known.lasts) fun r => ?_
  cases r with
  | ok result => exact succeed_blinded h
  | error e =>
    cases e with
    | providerTransportError =>
      show Blinded σ i true K (interpret (port settings decisionEnv) ((orInvocationError _).bind _))
      rw [interpret_bind, orInvocationError, interpret_lift]
      refine blinded_lift fun failed hi => ?_
      obtain ⟨ms, _, hi⟩ := Except.bind_ok_cases hi
      rw [bind_eq, interpret_bind]
      exact persist_blinded h (madeOf_new hi fun _ _ => rfl) (blinded_raise _)
    | _ => exact blinded_raise _

theorem withinUsage_blinded {window : UsageWindow} (h : Concluding σ c K) :
    Blinded σ i true K ((withinUsage c model window).interpret (port settings decisionEnv)) := by
  rw [withinUsage, bind_eq, interpret_bind, interpret_ask]
  show Blinded σ i true K ((Prog.ret _).bind _)
  rw [ret_bind, bind_eq, interpret_bind, interpret_orMissing]
  refine blinded_orMissing fun budget => ?_
  rw [bind_eq, interpret_bind, interpret_ask]
  refine ledger_blinded (fun _ => rfl) h.known.lasts (fun d d' hd => ?_) fun cost => ?_
  · rw [attributedCost_eq h.tenant hd]
  rw [bind_eq, interpret_bind, RuntimeGateway.orValueError, interpret_lift]
  refine blinded_lift fun decision _ => ?_
  split
  · exact execute_blinded h
  · rw [bind_eq, interpret_bind, orInvocationError, interpret_lift]
    refine blinded_lift fun costLimited hi => ?_
    obtain ⟨ms, _, hi⟩ := Except.bind_ok_cases hi
    rw [bind_eq, interpret_bind]
    exact persist_blinded h (madeOf_new hi fun _ _ => rfl) (blinded_raise _)

theorem allowed_blinded (h : Concluding σ c K) :
    Blinded σ i true K ((allowed c command model).interpret (port settings decisionEnv)) := by
  rw [allowed, bind_eq, interpret_bind, orOverflow, interpret_lift]
  refine blinded_lift fun window _ => ?_
  rw [bind_eq, interpret_bind, interpret_ask]
  refine ledger_blinded (fun _ => rfl) h.known.lasts (fun d d' hd => ?_) fun consumed => ?_
  · refine bind_congr_ok fun principalId hp => ?_
    have hsame : principalId = c.runtimePrincipalId := (text_ok (column_ok hp)).2
    rw [consumedTotalUnits_eq (hsame ▸ h.principal) hd]
  rw [bind_eq, interpret_bind, RuntimeGateway.orValueError, interpret_lift]
  refine blinded_lift fun decision _ => ?_
  split
  · exact withinUsage_blinded h
  · rw [bind_eq, interpret_bind, orInvocationError, interpret_lift]
    refine blinded_lift fun limited hi => ?_
    obtain ⟨ms, _, hi⟩ := Except.bind_ok_cases hi
    rw [bind_eq, interpret_bind]
    exact persist_blinded h (madeOf_new hi fun _ _ => rfl) (blinded_raise _)

/-- What is known once the permission of a subject is read. -/
def FoundPermission (K : Seen → Prop) (r : Except Error (Option AgentModelPermission)) (v : Seen) : Prop :=
  K v ∧ ∀ p, r = .ok (some p) → v.hasPermission p.id

theorem Known.found {subject : Subject} (h : Known σ subject K)
    (r : Except Error (Option AgentModelPermission)) : Known σ subject (FoundPermission K r) := by
  refine ⟨h.lasts.and fun v v' hv hgrows p hp => ?_, fun v hv => h.agent v hv.1, fun v hv => h.model v hv.1⟩
  exact lasts_hasPermission (σ := σ) p.id v v' (hv p hp) hgrows

/-- The permission that is read is one of the scope, and so is what the decision names. -/
theorem evaluatePermission_blinded {invocationId : Uuid} {subject : Subject} {f : PolicyDecision → Program β}
    (hknown : Known σ subject K) (ht : σ.owns subject.tenantId = true) (hid : decisionEnv.decisionId ∈ σ.ids)
    (hinvocation : invocationId ∈ σ.ids)
    (hf : ∀ K d, Known σ subject K → d.id = decisionEnv.decisionId → Blinded σ i true K (f d)) :
    Blinded σ i true K ((evaluatePermission decisionEnv invocationId subject).bind f) := by
  refine Blind.bind (M := fun clean K' x => clean = true ∧ Known σ subject K' ∧
    ∀ d, x = .ok d → d.id = decisionEnv.decisionId) ?_ (fun _ _ _ _ => trivial) ?_
  · refine Blind.unitOfWork (N := fun _ K' x => Known σ subject K' ∧
      ∀ d, x = .ok d → d.id = decisionEnv.decisionId) ?_ fun _ _ _ h => ⟨rfl, h⟩
    refine blind_query (q := Sql.getEffective subject) (L := FoundPermission K)
      (fun ch => ⟨fun db => db.getEffective subject, rfl, fun d d' hd _ => getEffective_eq ht hd,
        fun d hk => ⟨hk, fun p hp => hasPermission_of_getEffective ht hp⟩⟩)
      (fun v hv => ⟨hv, fun p hp => by cases hp⟩) (fun r => (hknown.found r).lasts)
      (fun e => ⟨hknown.found _, fun d hd => by cases hd⟩)
      fun permission => ?_
    refine blind_lift (fun e => ⟨hknown.found _, fun d hd => by cases hd⟩) fun decision hmade => ?_
    obtain ⟨hd, hdi, hsubject, hdp, _⟩ := ofPermission_made hmade
    have htenant : decision.tenantId = subject.tenantId := congrArg Subject.tenantId hsubject
    have hagent : decision.agentId = subject.agentId := congrArg Subject.agentId hsubject
    have hmodel : decision.modelId = subject.modelId := congrArg Subject.modelId hsubject
    have hnamed : ∀ v, FoundPermission K (.ok permission) v →
        ∀ id ∈ decision.permissionId, v.hasPermission id := by
      intro v hv id hmem
      rw [hdp, Option.mem_map] at hmem
      obtain ⟨p, hp, rfl⟩ := hmem
      exact hv.2 p (congrArg Except.ok hp)
    have hchanges : σ.Changes (FoundPermission K (.ok permission)) (.decisionsAdd decision) :=
      decisionsAdd_changes (htenant ▸ ht) (hd ▸ hid) (hdi ▸ hinvocation)
        (fun v hv => hagent ▸ hknown.agent v hv.1) (fun v hv => hmodel ▸ hknown.model v hv.1) hnamed
    refine blind_change (fun ch => hchanges ch) (fun e => ⟨hknown.found _, fun d hd => by cases hd⟩) fun _ => ?_
    refine blind_commit (fun _ e => ⟨hknown.found _, fun d hd => by cases hd⟩) (.ret ⟨hknown.found _, ?_⟩)
    rintro _ ⟨⟩
    exact hd
  · rintro _ K' d ⟨rfl, hknown', hd⟩
    exact hf K' d hknown' (hd d rfl)

theorem admitted_blinded {f : ModelRuntimeReference → Program β} (ht : σ.owns command.tenantId = true)
    (hf : ∀ model, Blinded σ i true (Admission (subjectOf command)) (f model)) :
    Blinded σ i true (fun _ => True)
      (((admitted command).interpret (port settings decisionEnv)).bind f) := by
  rw [admitted, bind_eq, interpret_bind, interpret_ask, bind_assoc]
  simp only [bind_eq, interpret_bind, interpret_raiseWhen, bind_assoc]
  refine blinded_tenantExists Sight.lasts_true fun b => blinded_raiseWhen fun _ => ?_
  rw [interpret_ask]
  simp only [interpret_orMissing]
  refine blinded_getAgent ht Sight.lasts_true fun agent => ?_
  rw [interpret_ask]
  refine blinded_getModel ht (Sight.lasts_true.and (lasts_hasAgent _)) fun model => ?_
  exact blinded_raiseWhen fun _ => blinded_knowing (hf model) fun v hv => ⟨hv.1.2, hv.2⟩

theorem createInvocation_blinded (ht : σ.owns command.tenantId = true)
    (hp : command.runtimePrincipalId ∈ σ.principalIds) (hid : env.invocationId ∈ σ.ids)
    (hdecision : decisionEnv.decisionId ∈ σ.ids) :
    Blinded σ i true (fun _ => True) (createInvocation settings env decisionEnv command) := by
  rw [createInvocation, RuntimeGateway.createInvocation, bind_eq, interpret_bind, orInvocationError,
    interpret_lift]
  refine blinded_lift fun inputText _ => ?_
  rw [bind_eq, interpret_bind]
  refine admitted_blinded ht fun model => ?_
  rw [bind_eq, interpret_bind, interpret_ask]
  show Blinded σ i true _ (((evaluatePermission decisionEnv env.invocationId (subjectOf command)).bind
    fun d => .ret (⟨d.id, d.effect.value, d.permissionId⟩ : RuntimePolicyDecision)).bind _)
  rw [bind_assoc]
  refine evaluatePermission_blinded (known_admission _) ht hdecision hid fun K d hknown hd => ?_
  have hconcluding : Concluding σ (commonOf env command inputText ⟨d.id, d.effect.value, d.permissionId⟩) K :=
    ⟨hknown, ht, hp, hid, hd ▸ hdecision⟩
  rw [ret_bind]
  dsimp only
  split
  · exact allowed_blinded hconcluding
  · rw [bind_eq, interpret_bind, orInvocationError, interpret_lift]
    refine blinded_lift fun denied hi => ?_
    obtain ⟨ms, _, hi⟩ := Except.bind_ok_cases hi
    rw [bind_eq, interpret_bind]
    exact persist_blinded hconcluding (madeOf_new hi fun _ _ => rfl) (blinded_raise _)

end Handler

/-! ## Requests -/

/-- The tenant of a request; one that creates a tenant is of none. -/
def Request.tenantId : Request → Option Uuid
  | .createTenant .. => none
  | .registerAgent _ command => some command.tenantId
  | .registerModel _ command => some command.tenantId
  | .setPermission _ _ subject _ => some subject.tenantId
  | .createInvocation _ _ command => some command.tenantId

/-- The ids that a request gives out. -/
def Request.ids : Request → List Uuid
  | .createTenant env _ => [env.id]
  | .registerAgent env _ => [env.id]
  | .registerModel env _ => [env.id]
  | .setPermission env .. => [env.permissionId]
  | .createInvocation env decisionEnv _ => [env.invocationId, decisionEnv.decisionId]

/-- A request of one of the tenants, or one that creates a tenant. -/
def Request.concerns (tenantIds : Finset Uuid) (r : Request) : Bool :=
  r.tenantId.all (· ∈ tenantIds)

/-- What some tenants see: their principals, and the ids of the requests that concern them. -/
def scopeOf (auth : RuntimeAuthenticationSettings) (tenantIds : Finset Uuid) (requests : Tid → Request) :
    Scope where
  tenantIds := tenantIds
  principalIds := (auth.principals.filter (·.tenantId ∈ tenantIds)).map (·.principalId)
  ids := {id | ∃ i, (requests i).concerns tenantIds = true ∧ id ∈ (requests i).ids}

section Requests

variable {s : Service} {auth : RuntimeAuthenticationSettings} {tenantIds : Finset Uuid}
  {requests : Tid → Request} {db db' : Db}

/-- A principal is bound to one tenant. -/
theorem mem_principalIds {p : RuntimePrincipalSettings} (hp : p ∈ auth.principals) :
    p.principalId ∈ (scopeOf auth tenantIds requests).principalIds ↔ p.tenantId ∈ tenantIds := by
  simp only [scopeOf, List.mem_map, List.mem_filter, decide_eq_true_eq]
  constructor
  · rintro ⟨q, ⟨hq, htenant⟩, hid⟩
    rwa [← List.inj_on_of_nodup_map auth.principalIds_unique hq hp hid]
  · exact fun htenant => ⟨p, ⟨hp, htenant⟩, rfl⟩

theorem program_blinded {i : Tid} (hauth : Authenticated auth requests)
    (h : (requests i).concerns tenantIds = true) :
    Blinded (scopeOf auth tenantIds requests) i true (fun _ => True) (s.program (requests i)) := by
  have hids : ∀ id ∈ (requests i).ids, id ∈ (scopeOf auth tenantIds requests).ids :=
    fun id hid => ⟨i, h, hid⟩
  cases hr : requests i with
  | createTenant env name => exact blinded_map createTenant_blinded
  | registerAgent env command =>
    rw [hr] at h hids
    exact blinded_map (registerAgent_blinded h (hids _ (List.mem_singleton_self _)))
  | registerModel env command =>
    rw [hr] at h hids
    exact blinded_map (registerModel_blinded h (hids _ (List.mem_singleton_self _)))
  | setPermission env principalId subject effect =>
    rw [hr] at h hids
    exact blinded_map (setPermission_blinded h (hids _ (List.mem_singleton_self _)))
  | createInvocation env decisionEnv command =>
    obtain ⟨p, hp, hid, htenant⟩ := hauth.principal hr
    rw [hr] at h hids
    have howns : command.tenantId ∈ tenantIds := of_decide_eq_true h
    have hprincipal : p.principalId ∈ (scopeOf auth tenantIds requests).principalIds :=
      (mem_principalIds hp).mpr (htenant ▸ howns)
    exact blinded_map (createInvocation_blinded h (hid ▸ hprincipal) (hids _ (by simp [Request.ids]))
      (hids _ (by simp [Request.ids])))

/-- What the other requests commit is not seen. -/
theorem sees_commit {i : Tid} {evs : List Event} (hauth : Authenticated auth requests)
    (h : (requests i).concerns tenantIds = false)
    (hids : ∀ id ∈ (requests i).ids, id ∉ (scopeOf auth tenantIds requests).ids)
    (hc : Commit s (requests i) evs db db') :
    (scopeOf auth tenantIds requests).sees db' = (scopeOf auth tenantIds requests).sees db := by
  generalize hr : requests i = r at h hids hc
  cases hc with
  | createTenant => cases h
  | @registerAgent env command _ _ agent row made hrow =>
    obtain ⟨hid, htenant⟩ := ofAgent_ok hrow
    obtain ⟨hid', htenant'⟩ := agent_registered made
    refine sees_insertAgent ?_ ?_ db
    · rw [htenant, htenant']
      exact h
    · rw [hid, hid']
      exact hids _ (List.mem_singleton_self _)
  | @registerModel env command _ _ model row made hrow =>
    obtain ⟨hid, htenant⟩ := ofModel_ok hrow
    obtain ⟨hid', htenant'⟩ := model_registered made
    refine sees_insertModel ?_ ?_ db
    · rw [htenant, htenant']
      exact h
    · rw [hid, hid']
      exact hids _ (List.mem_singleton_self _)
  | @setPermission env principalId subject effect _ _ before now previous proposed effective record
      _ _ _ _ _ _ stored recorded =>
    have heffective : effective.subject = subject := by
      rw [(permissionFromRow_id stored).2]
      cases hfound : db.permissions.find? subject with
      | none => rfl
      | some row => exact (Table.find?_some hfound).2
    have hrecord : record.tenantId = some subject.tenantId :=
      (Record.new_ok recorded).1.trans (congrArg (fun x => some x.tenantId) heffective)
    have howns : (scopeOf auth tenantIds requests).owns subject.tenantId = false := h
    rw [sees_appendAudit (by rw [hrecord]; exact howns)]
    exact sees_upsertPermission howns (hids _ (List.mem_singleton_self _)) db
  | @decide env decisionEnv command _ _ before permission decision row _ _ _ made hrow _ =>
    obtain ⟨hid, hinvocation, hsubject, _⟩ := ofDecision_ok hrow
    obtain ⟨hid', hinvocation', hsubject', _⟩ := ofPermission_made made
    refine sees_insertDecision ?_ ?_ ?_ db
    · rw [hsubject, hsubject']
      exact h
    · rw [hid, hid']
      exact hids _ (by simp [Request.ids])
    · rw [hinvocation, hinvocation']
      exact hids _ (by simp [Request.ids])
  | @conclude env decisionEnv command _ _ inputText decision invocation row _ _ _ _ _ concluded hrow =>
    obtain ⟨_, hmade, _⟩ := concluded.madeOf
    obtain ⟨p, hp, hpid, hptenant⟩ := hauth.principal hr
    obtain ⟨hid, htenant, _⟩ := ofInvocation_ok hrow
    have howns : command.tenantId ∉ tenantIds := of_decide_eq_false h
    have hprincipal : invocation.runtimePrincipalId = p.principalId :=
      hmade.runtimePrincipalId.trans hpid.symm
    have hcolumn : row.runtimePrincipalId = some p.principalId := by
      rw [(ofInvocation_usage hrow (hprincipal ▸ p.principalId_length.2)).1, hprincipal]
    have hother : p.principalId ∉ (scopeOf auth tenantIds requests).principalIds := fun hmem =>
      howns (hptenant ▸ (mem_principalIds hp).mp hmem)
    refine sees_insertInvocation ?_ ?_ db
    · rw [Scope.ownsInvocation, htenant, hmade.tenantId, hcolumn]
      simp only [Option.any_some, hother, decide_false, Bool.or_false]
      exact h
    · rw [hid, hmade.id]
      exact hids env.invocationId (List.mem_cons_self ..)

end Requests

section Runs

variable {s : Service} {auth : RuntimeAuthenticationSettings} {tenantIds : Finset Uuid}
  {requests : Tid → Request} {db : Db} {tr : List Label} {c c' : Config} {l : Label}

/-- The ids of a request that concerns the tenants are not given out by one that does not. -/
def IdsApart (tenantIds : Finset Uuid) (requests : Tid → Request) : Prop :=
  ∀ i j, (requests i).concerns tenantIds = true → (requests j).concerns tenantIds = false →
    ∀ id ∈ (requests i).ids, id ∉ (requests j).ids

/-- A step of another request is not seen. -/
theorem sees_step (hauth : Authenticated auth requests) (hids : IdsApart tenantIds requests)
    (h : RunFrom s requests db tr c) (hs : Step database.exec c l c')
    (hl : ¬(requests l.tid).concerns tenantIds = true) :
    (scopeOf auth tenantIds requests).sees c'.world.db = (scopeOf auth tenantIds requests).sees c.world.db := by
  rcases step_cases h hs with hdb | ⟨_, hcommit⟩
  · rw [hdb]
  · have hother : (requests l.tid).concerns tenantIds = false := Bool.eq_false_iff.mpr hl
    refine sees_commit hauth hother (fun id hid => ?_) hcommit
    rintro ⟨i, hi, hmem⟩
    exact hids i l.tid hi hother id hmem hid

end Runs

/-- Requests of some tenants, and those that create tenants, interleaved with the requests of
    others: from any database in which they see the same, they can run by themselves, with the
    same operations in the same order, the calls of the provider included, come to the same reply
    or have the same left to do, and leave the same to see. -/
theorem tenants_isolated (s : Service) (auth : RuntimeAuthenticationSettings) (tenantIds : Finset Uuid)
    (requests : Tid → Request) (db db' : Db) (tr : List Label) (c : Config)
    (hauth : Authenticated auth requests) (hids : IdsApart tenantIds requests)
    (hdb : (scopeOf auth tenantIds requests).sees db = (scopeOf auth tenantIds requests).sees db')
    (h : RunFrom s requests db tr c) :
    ∃ tr' c', RunFrom s requests db' tr' c' ∧
      tr'.map performed = (tr.filter fun l => (requests l.tid).concerns tenantIds).map performed ∧
      (∀ i, (requests i).concerns tenantIds = true → c'.prog i = c.prog i) ∧
      (scopeOf auth tenantIds requests).sees c.world.db =
        (scopeOf auth tenantIds requests).sees c'.world.db := by
  have hstart := shadow_start (D := database) (S := (scopeOf auth tenantIds requests).sight)
    (fun i => (requests i).concerns tenantIds) (fun i => s.program (requests i))
    (fun i hi => program_blinded hauth hi) hdb
  obtain ⟨tr', c', hrun, hperformed, hshadow⟩ := hstart.run h fun tr d hr l d' hs hl =>
    sees_step hauth hids hr hs hl
  exact ⟨tr', c', hrun, hperformed, hshadow.prog, hshadow.world.db⟩

/-! ## A neighbour -/

/-- The principal of the requests that spend. -/
def exampleAuthentication : RuntimeAuthenticationSettings where
  principals := [{
    principalId := "caller"
    tenantId := 1
    agentId := 2
    credential := "the-credential-of-the-one-caller"
    usageLimit := spendingCommand.usageLimit
    perInvocationAllowance := spendingCommand.perInvocationAllowance
    principalId_stripped := by decide +kernel
    principalId_length := by decide +kernel
    credential_length := by decide +kernel
    usageLimit_pos := by decide
    perInvocationAllowance_pos := by decide
    allowance_fits_limit := by decide }]
  principalIds_unique := List.nodup_singleton _
  credentials_unique := List.nodup_singleton _
  bindings_unique := List.nodup_singleton _

/-- Another tenant, which has an Agent of the same name. -/
def exampleNeighbours : Tid → Request
  | 6 => .createTenant ⟨100, 0⟩ "Neighbour"
  | 7 => .registerAgent ⟨101, 0⟩ ⟨100, "Agent"⟩
  | i => exampleSpending i

theorem exampleNeighbours_run : ∃ tr c, RunFrom exampleSpender exampleNeighbours Db.empty tr c ∧
    c.world.db.agents.rows.map (·.tenantId) = [1, 100] ∧
    attributedCost c.world.db.invocations.rows 1 sampleWindow.start sampleWindow.end =
      ⟨2 * 10 ^ 12, -12⟩ := by
  obtain ⟨tr, c, hrun, ht⟩ := schedule_any database.exec
    ⟨World.ofDb Db.empty, fun i => exampleSpender.program (exampleNeighbours i)⟩
    (turns 0 3 0 ++ turns 1 5 0 ++ turns 2 5 0 ++ turns 3 12 10 ++ turns 6 3 0 ++ spendingTurns 4 14 ++
      turns 7 5 0 ++ spendingTurns 5 18 ++ spendingTurns 4 4)
    (fun t => decide (t.2.world.db.agents.rows.map (·.tenantId) = [1, 100] ∧
      attributedCost t.2.world.db.invocations.rows 1 sampleWindow.start sampleWindow.end =
        ⟨2 * 10 ^ 12, -12⟩))
    (by decide +kernel)
  exact ⟨tr, c, hrun, of_decide_eq_true ht⟩

theorem exampleNeighbours_authenticated : Authenticated exampleAuthentication exampleNeighbours := by
  intro i env decisionEnv command h
  have hspending : exampleSpending i = .createInvocation env decisionEnv command := by
    match i with
    | 6 | 7 => cases h
    | 0 | 1 | 2 | 3 | 4 | 5 => exact h
    | i + 8 => exact h
  obtain ⟨_, rfl⟩ := exampleSpending_cases hspending
  have hempty : strip "caller" ≠ "" := by decide +kernel
  refine ⟨some ⟨"Bearer", "the-credential-of-the-one-caller"⟩,
    ⟨"caller", 1, 2, 10, 10, hempty, by decide, by decide⟩, 3, "hello", ?_, rfl⟩
  have htoken : Security.bearerToken (some ⟨"Bearer", "the-credential-of-the-one-caller"⟩) =
    some "the-credential-of-the-one-caller" := by decide +kernel
  unfold Security.requireRuntimePrincipal
  rw [htoken]
  simp [Security.matching, exampleAuthentication, spendingCommand, Security.RuntimePrincipal.new, hempty,
    Except.mapError]

theorem exampleNeighbours_apart : IdsApart {1} exampleNeighbours := by
  have hother : ∀ j, (exampleNeighbours j).concerns {1} = false → j = 7 := by
    intro j hj
    match j with
    | 0 | 1 | 2 | 3 | 4 | 5 | 6 => exact absurd hj (by decide)
    | 7 => rfl
    | j + 8 =>
      have hown : (exampleNeighbours (j + 8)).concerns {1} = true := rfl
      rw [hown] at hj
      cases hj
  intro i j hi hj id hid hmem
  obtain rfl := hother j hj
  have h101 : id = 101 := List.mem_singleton.mp hmem
  match i with
  | 0 | 1 | 2 | 3 | 4 | 5 | 6 => revert hid; rw [h101]; decide
  | 7 => exact absurd hi (by decide)
  | i + 8 => revert hid; rw [h101]; show ¬(101 : Uuid) ∈ [(11 : Uuid)]; decide

theorem tenants_isolated_two : ∃ (c : Config) (tr' : List Label) (c' : Config),
    c.world.db.agents.rows.map (·.tenantId) = [1, 100] ∧
    RunFrom exampleSpender exampleNeighbours Db.empty tr' c' ∧
    (∀ l ∈ tr', l.tid ≠ 7) ∧
    attributedCost c'.world.db.invocations.rows 1 sampleWindow.start sampleWindow.end =
      ⟨2 * 10 ^ 12, -12⟩ := by
  obtain ⟨tr, c, hrun, hagents, hcost⟩ := exampleNeighbours_run
  obtain ⟨tr', c', hrun', hperformed, _, hsees⟩ := tenants_isolated exampleSpender exampleAuthentication
    {1} exampleNeighbours Db.empty Db.empty tr c exampleNeighbours_authenticated exampleNeighbours_apart
    rfl hrun
  refine ⟨c, tr', c', hagents, hrun', fun l hl h7 => ?_, ?_⟩
  · have hmem := List.mem_map_of_mem (f := performed) hl
    rw [hperformed] at hmem
    obtain ⟨l', hl', heq⟩ := List.mem_map.mp hmem
    have htid : l'.tid = 7 := (congrArg Prod.fst heq).trans h7
    have hconcerns := (List.mem_filter.mp hl').2
    rw [htid] at hconcerns
    exact absurd hconcerns (by decide)
  · rw [← attributedCost_eq (by decide) hsees]
    exact hcost

end Valor.ControlPlane
