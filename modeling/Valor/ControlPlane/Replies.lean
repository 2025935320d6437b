/-
  The control plane: what a reply says lasts.

  A request replies with what its last transaction has stored. Tenants, Agents, Models and
  Invocations are not changed again, and a permission keeps its id, its subject and the time of
  its creation. So whoever may see it is answered it by every later GET, whatever other
  requests have done (`replies_last`).

  Only the last transaction of a request matters: what was read before it is skipped
  (`yields_skip`).
-/
import Valor.ControlPlane.GetRoutes

namespace Valor.ControlPlane

open Python Postgres ManagementAudit IdentityTenancy AssetRegistry PolicyRisk RuntimeGateway
  Prog Interleave ReadCommitted Settings Security

/-! ## What is stored of a reply -/

/-- The row that a reply will be loaded from. -/
def Backed (casefold : String → String) (db : Db) : Reply → Prop
  | .tenant tenant => ∃ row ∈ db.tenants, row.id = tenant.id ∧ row.toTenant casefold = .ok tenant
  | .agent agent => ∃ row ∈ db.agents, row.id = agent.id ∧ row.toAgent casefold = .ok agent
  | .model model => ∃ row ∈ db.models, row.id = model.id ∧ row.toModel casefold = .ok model
  | .permission permission => ∃ row, db.permissions.find? permission.subject = some row ∧
      row.id = permission.id ∧ row.createdAt.toAware = permission.createdAt
  | .invocation invocation => ∃ row ∈ db.invocations, row.id = invocation.id ∧
      ∃ loaded, row.toInvocation = .ok (some loaded) ∧
        SameInvocation loaded.toInvocationFields invocation.toInvocationFields

theorem Backed.later {casefold : String → String} {db db' : Db} {reply : Reply} (h : Backed casefold db reply)
    (hlater : Later db db') : Backed casefold db' reply := by
  cases reply with
  | tenant tenant =>
    obtain ⟨row, hrow, h⟩ := h
    exact ⟨row, hlater.tenants row hrow, h⟩
  | agent agent =>
    obtain ⟨row, hrow, h⟩ := h
    exact ⟨row, hlater.agents row hrow, h⟩
  | model model =>
    obtain ⟨row, hrow, h⟩ := h
    exact ⟨row, hlater.models row hrow, h⟩
  | permission permission =>
    obtain ⟨row, hrow, hid, hcreated⟩ := h
    obtain ⟨row', hrow', hid', hcreated'⟩ := hlater.permissions _ row hrow
    exact ⟨row', hrow', hid'.trans hid, hcreated' ▸ hcreated⟩
  | invocation invocation =>
    obtain ⟨row, hrow, h⟩ := h
    exact ⟨row, hlater.invocations row hrow, h⟩

/-! ## What a program returns -/

section Yields

variable {α β : Type} {db₀ : Db} {i : Tid} {P : α → Db → Prop}

/-- With nothing of a transaction open, the program returns only what `P` holds of. -/
def Yields (db₀ : Db) (i : Tid) (P : α → Db → Prop) (p : Program α) : Prop :=
  ∀ v evs, Knows i evs [] [] (fun _ => True) v →
    Follows database discipline db₀ (fun _ => True) (fun _ _ => True) i
      (fun r _ d => ∀ a, r = .ok a → P a d) p v

/-- Of an exception nothing is asked. -/
theorem of_raised {e : Error} {a : α} {Q : Prop} (h : (.error e : Except Error α) = .ok a) : Q := nomatch h

theorem yields_raise {e : Error} : Yields db₀ i P (.raise e) := fun _ _ _ => safe_raise.mpr fun _ => of_raised

theorem yields_lift {ε : Type} {g : ε → Error} {x : Except ε β} {f : β → Program α}
    (hf : ∀ b, x = .ok b → Yields db₀ i P (f b)) : Yields db₀ i P ((lift g x).bind f) :=
  fun v evs h => safe_lift (fun _ _ _ => of_raised) fun b hb => hf b hb v evs h

theorem yields_raiseWhen {c : Prop} [Decidable c] {e : Error} {f : Unit → Program α}
    (hf : Yields db₀ i P (f ())) : Yields db₀ i P ((raiseWhen c e).bind f) :=
  fun v evs h => safe_raiseWhen (fun _ _ _ => of_raised) fun _ => hf v evs h

theorem yields_orMissing {x : Option β} {e : Error} {f : β → Program α}
    (hf : ∀ b, Yields db₀ i P (f b)) : Yields db₀ i P ((orMissing x e).bind f) := by
  cases x with
  | none => exact yields_raise
  | some b => exact hf b

/-- Whatever a transaction has done, the program goes on with nothing open. -/
theorem yields_skip {body : Program β} {f : β → Program α} (hf : ∀ b, Yields db₀ i P (f b)) :
    Yields db₀ i P ((unitOfWork body).bind f) := by
  intro v evs h
  refine follows_transaction (W := fun _ _ _ => True) (fun _ _ _ => trivial) (fun _ _ _ _ _ _ => trivial)
    (fun _ _ _ _ _ => of_raised) (fun b evs v hv _ => hf b v _ hv) ?_
  exact among_any body

theorem yields_reader {q : Sql} {e : Error} {f : q.Res → Program α} (hf : ∀ a, Yields db₀ i P (f a)) :
    Yields db₀ i P ((orUnavailable e (session q)).bind f) := by
  intro v evs h
  refine ((similar_mapError _ (session q)).bind fun a => .refl (f a)).safe (fun _ _ _ _ _ => of_raised) ?_
  exact yields_skip hf v evs h

/-- An operation that reads outside of a transaction. -/
theorem yields_attempt {q : Sql} {f : Except Error q.Res → Program α} {g : Choice → Db → Except Error q.Res}
    (hq : ∀ ch, stmt ch q = .query (g ch)) (hf : ∀ r, Yields db₀ i P (f r)) :
    Yields db₀ i P (.call (Op.sql q) f) :=
  fun _ _ h => follows_attempt hq lasting_true h (fun _ _ => trivial) fun v r _ hv _ _ => hf r v _ hv

theorem yields_execute {q : Sql} {f : q.Res → Program α} {g : Choice → Db → Except Error q.Res}
    (hq : ∀ ch, stmt ch q = .query (g ch)) (hf : ∀ a, Yields db₀ i P (f a)) :
    Yields db₀ i P ((execute q).bind f) :=
  fun _ _ h => follows_query hq lasting_true h (fun _ _ => trivial) (fun _ _ _ _ _ _ => of_raised)
    fun v a _ hv _ _ => hf a v _ hv

theorem yields_map {p : Program β} {f : β → α} (h : Yields db₀ i (fun b => P (f b)) p) :
    Yields db₀ i P (f <$> p) := by
  intro v evs hv
  refine follows_map (fun b _ d hb a ha => ?_) (fun _ _ _ _ _ => of_raised) (h v evs hv)
  cases ha
  exact hb b rfl

/-- The last transaction. -/
theorem yields_unitOfWork {body : Program α} (hP : ∀ a d d', P a d → Later d d' → P a d')
    (h : Yields db₀ i P body) : Yields db₀ i P (unitOfWork body) :=
  fun v evs hv => follows_unitOfWork (fun _ _ _ => trivial) (fun _ _ _ h => h)
    (fun _ _ d d' h hgrows a ha => hP a d d' (h a ha) hgrows) (h v evs hv)

/-- A row is inserted under an id that is free, and stays free until the commit. -/
theorem yields_insert {q : Sql} {l : Lock} {locks : Db → Db → List Lock}
    {act : Db → Db → Except Error (q.Res × (Db → Db))} {a : α} (free : Db → Prop)
    (hq : ∀ ch, stmt ch q = .change locks act) (hl : ∀ seen d, l ∈ locks seen d)
    (hfree : ∀ d d', same l d d' → free d → free d')
    (hact : ∀ seen d b g, act seen d = .ok (b, g) → free d ∧ ∀ d', free d' → P a (g d')) :
    Yields db₀ i P ((execute q).bind fun _ => commit.bind fun _ => .ret a) := by
  intro v evs h
  refine follows_change hq lasting_true h (fun _ _ => trivial) (fun _ _ _ _ _ _ _ => of_raised)
    fun v b g seen hv _ ha => ?_
  obtain ⟨hnow, hlater⟩ := hact _ _ _ _ ha
  have hlasting : Lasting discipline (locks seen v.1.db ++ []) free :=
    lasting_of_mem (List.mem_append_left _ (hl _ _)) fun d d' hd hsame => hfree d d' hsame hd
  refine follows_commit hlasting (hv.mono fun _ => hnow) (fun _ _ => trivial) (fun _ _ _ _ => of_raised)
    (fun _ _ _ => trivial) fun d hd b hb => ?_
  cases hb
  exact hlater d hd

end Yields

/-! ## The requests -/

section Requests

variable {casefold : String → String} {db₀ : Db} {i : Tid} {settings : RuntimeSettings} {decisionEnv : DecisionEnv}

theorem mem_insert_of_free {R K : Type} [DecidableEq K] [Keyed R K] {t : Table R} {row : R} {k : K}
    (hk : Keyed.key row = k) (hfree : t.find? k = none) : row ∈ t.insert row := by
  refine Table.mem_insert.mpr (.inr ⟨rfl, ?_⟩)
  rw [hk]
  exact hfree

theorem createTenant_yields {env : AssetEnv} {name : String} :
    Yields db₀ i (fun tenant d => Backed casefold d (.tenant tenant)) (createTenant casefold env name) := by
  refine yields_lift fun tenant hmade => yields_unitOfWork (fun _ _ _ => Backed.later) ?_
  refine yields_insert (l := .tenant tenant.id) (fun d => d.tenants.find? tenant.id = none) (fun _ => rfl)
    (fun _ _ => List.mem_cons_self ..) (fun d d' hsame hd => hsame.trans hd) fun seen d b g hact => ?_
  obtain ⟨row, hrow, hact⟩ := Except.bind_ok_cases hact
  obtain ⟨_, hfree, hact⟩ := Except.bind_ok_cases hact
  obtain ⟨_, _, hact⟩ := Except.bind_ok_cases hact
  cases hact
  have hid : row.id = tenant.id := ofTenant_ok (column_ok hrow)
  exact ⟨constraint_ok hfree, fun d' hd' =>
    ⟨row, mem_insert_of_free hid hd', hid, toTenant_ofTenant hmade (column_ok hrow)⟩⟩

theorem registerAgent_yields {env : AssetEnv} {command : RegisterAgentCommand} :
    Yields db₀ i (fun agent d => Backed casefold d (.agent agent)) (registerAgent casefold env command) := by
  refine yields_lift fun agent hmade => yields_skip fun «exists» => yields_raiseWhen ?_
  refine yields_unitOfWork (fun _ _ _ => Backed.later) ?_
  refine yields_insert (l := .agent agent.id) (fun d => d.agents.find? agent.id = none) (fun _ => rfl)
    (fun _ _ => List.mem_cons_self ..) (fun d d' hsame hd => hsame.trans hd) fun seen d b g hact => ?_
  obtain ⟨row, hrow, hact⟩ := Except.bind_ok_cases hact
  obtain ⟨_, hfree, hact⟩ := Except.bind_ok_cases hact
  obtain ⟨_, _, hact⟩ := Except.bind_ok_cases hact
  obtain ⟨_, _, hact⟩ := Except.bind_ok_cases hact
  cases hact
  have hid : row.id = agent.id := (ofAgent_ok (column_ok hrow)).1
  exact ⟨constraint_ok hfree, fun d' hd' =>
    ⟨row, mem_insert_of_free hid hd', hid, toAgent_ofAgent hmade (column_ok hrow)⟩⟩

theorem registerModel_yields {env : AssetEnv} {command : RegisterModelCommand} :
    Yields db₀ i (fun model d => Backed casefold d (.model model)) (registerModel casefold env command) := by
  refine yields_lift fun model hmade => yields_skip fun «exists» => yields_raiseWhen ?_
  refine yields_unitOfWork (fun _ _ _ => Backed.later) ?_
  refine yields_insert (l := .model model.id) (fun d => d.models.find? model.id = none) (fun _ => rfl)
    (fun _ _ => List.mem_cons_self ..) (fun d d' hsame hd => hsame.trans hd) fun seen d b g hact => ?_
  obtain ⟨row, hrow, hact⟩ := Except.bind_ok_cases hact
  obtain ⟨_, hfree, hact⟩ := Except.bind_ok_cases hact
  obtain ⟨_, _, hact⟩ := Except.bind_ok_cases hact
  obtain ⟨_, _, hact⟩ := Except.bind_ok_cases hact
  cases hact
  have hid : row.id = model.id := (ofModel_ok (column_ok hrow)).1
  exact ⟨constraint_ok hfree, fun d' hd' =>
    ⟨row, mem_insert_of_free hid hd', hid, toModel_ofModel hmade (column_ok hrow)⟩⟩

theorem permissionFromRow_createdAt {row : PermissionRow} {p : AgentModelPermission}
    (h : permissionFromRow row = .ok p) : row.createdAt.toAware = p.createdAt := by
  obtain ⟨_, hcreated, h⟩ := Except.bind_ok_cases h
  obtain ⟨_, _, h⟩ := Except.bind_ok_cases h
  cases hcreated
  split at h
  · cases h
  · cases h
    rfl

/-- The upsert leaves the row that it returns. -/
theorem setEffective_yields {env : PermissionEnv} {command : SetAgentModelPermissionCommand} {sha256 : Sha256}
    {now : Utc} {proposed : AgentModelPermission} :
    Yields db₀ i (fun permission d => Backed casefold d (.permission permission))
      (setEffective sha256 env command now proposed) := by
  refine yields_execute (fun _ => rfl) fun previous v evs h => ?_
  refine follows_change (fun _ => rfl) lasting_true h (fun _ _ => trivial) (fun _ _ _ _ _ _ _ => of_raised)
    fun v effective g seen hv _ ha => ?_
  obtain ⟨values, hvalues, hstored, hg⟩ := permissionsSet_ok ha
  simp only [List.foldl_nil, List.append_nil, List.nil_append] at hstored hg hv
  have hlasting : Lasting discipline (v.1.db.permissionLocks proposed) fun d =>
      d.permissions.find? proposed.subject = v.1.db.permissions.find? proposed.subject :=
    lasting_of_mem mem_permissionLocks fun d d' hd hsame => hsame.trans hd
  refine safe_lift (fun _ _ _ => of_raised) fun record _ => ?_
  refine follows_change (P := fun r _ d => ∀ a, r = .ok a → Backed casefold d (.permission a))
    (fun _ => rfl) hlasting (hv.mono fun _ => rfl) (fun _ _ => trivial) (fun _ _ _ _ _ _ _ => of_raised)
    fun v' u g' seen' hv' _ ha' => ?_
  cases ha'
  refine follows_commit hlasting hv' (fun _ _ => trivial) (fun _ _ _ _ => of_raised) (fun _ _ _ => trivial)
    fun d hd b hb => ?_
  cases hb
  have hsubject : values.subject = proposed.subject := (ofPermission_ok hvalues).2
  have hupsert : g d = d.upsertPermission values := by
    obtain ⟨row, hrow, rfl⟩ | ⟨hnone, _, rfl⟩ := hg
    · exact updatePermission_eq ((congrArg _ hsubject).trans (hd.trans hrow))
    · exact insertPermission_eq ((congrArg _ hsubject).trans (hd.trans hnone))
  rw [← hd] at hstored
  obtain ⟨hid, hsame⟩ := permissionFromRow_id hstored
  have heffective : effective.subject = proposed.subject := by
    rw [hsame]
    cases hfound : d.permissions.find? proposed.subject with
    | none => exact hsubject
    | some row => exact (Table.find?_some hfound).2
  refine ⟨_, ?_, hid.symm, permissionFromRow_createdAt hstored⟩
  show (g d).permissions.find? effective.subject = _
  rw [hupsert, find?_upsertPermission, heffective, if_pos hsubject.symm]

theorem setPermission_yields {env : PermissionEnv} {command : SetAgentModelPermissionCommand} {sha256 : Sha256} :
    Yields db₀ i (fun permission d => Backed casefold d (.permission permission))
      (setPermission sha256 env command) := by
  simp only [setPermission, admitPermission, bind_eq, bind_assoc]
  refine yields_skip fun «exists» => yields_raiseWhen (yields_skip fun agent => yields_orMissing fun _ => ?_)
  refine yields_skip fun model => yields_orMissing fun _ => ?_
  refine yields_execute (q := .clock) (fun _ => rfl) fun now => yields_lift fun proposed _ => ?_
  exact yields_unitOfWork (fun _ _ _ => Backed.later) setEffective_yields

/-! ### Invocations -/

/-- A rejection is stored, but not returned. -/
theorem persist_raises {P : Invocation → Db → Prop} {invocation : Invocation} {e : Error} :
    Yields db₀ i P (((persist invocation).interpret (port settings decisionEnv)).bind fun _ => .raise e) := by
  rw [interpret_persist]
  exact yields_skip fun _ => yields_raise

theorem persist_yields {invocation : Invocation}
    (hback : ∀ row, InvocationRow.ofInvocation invocation = .ok row → ∃ loaded,
      row.toInvocation = .ok (some loaded) ∧
        SameInvocation loaded.toInvocationFields invocation.toInvocationFields) :
    Yields db₀ i (fun invocation d => Backed casefold d (.invocation invocation))
      (((persist invocation).interpret (port settings decisionEnv)).bind fun _ => .ret invocation) := by
  have hbody : Yields db₀ i (fun (_ : Unit) d => Backed casefold d (.invocation invocation))
      ((execute (.invocationsAdd invocation)).bind fun _ => commit.bind fun _ => .ret ()) := by
    refine yields_insert (l := .invocation invocation.id) (fun d => d.invocations.find? invocation.id = none)
      (fun _ => rfl) (fun _ _ => List.mem_singleton_self _) (fun d d' hsame hd => hsame.trans hd)
      fun seen d b g hact => ?_
    obtain ⟨row, hrow, hact⟩ := Except.bind_ok_cases hact
    obtain ⟨_, _, hact⟩ := Except.bind_ok_cases hact
    obtain ⟨_, hfree, hact⟩ := Except.bind_ok_cases hact
    iterate 4 obtain ⟨_, _, hact⟩ := Except.bind_ok_cases hact
    cases hact
    have hid : row.id = invocation.id := (ofInvocation_ok (column_ok hrow)).1
    exact ⟨constraint_ok hfree, fun d' hd' =>
      ⟨row, mem_insert_of_free hid hd', hid, hback row (column_ok hrow)⟩⟩
  intro v evs h
  rw [interpret_persist, ← bind_ret commit]
  refine follows_transaction (W := fun r _ d => ∀ u, r = .ok u → Backed casefold d (.invocation invocation))
    (fun _ _ _ => trivial) (fun _ _ _ _ hd hgrows u hu => (hd u hu).later hgrows) (fun _ _ _ _ _ => of_raised)
    (fun u evs v hv _ => safe_ret.mpr fun a ha => ?_) (hbody v evs h)
  cases ha
  exact hv.fact u rfl

variable {c : Invocation.Common} {model : ModelRuntimeReference}

/-- What the provider has answered is priced, stored and returned. -/
theorem succeed_yields {result : ProviderInvocationResult} (hprincipal : len c.runtimePrincipalId ≤ 255) :
    Yields db₀ i (fun invocation d => Backed casefold d (.invocation invocation))
      ((succeed c model result).interpret (port settings decisionEnv)) := by
  rw [succeed, bind_eq, interpret_bind, interpret_ask]
  show Yields db₀ i _ ((Prog.ret _).bind _)
  rw [ret_bind, bind_eq, interpret_bind, orCostError, interpret_lift]
  refine yields_lift fun cost hcost => ?_
  rw [bind_eq, interpret_bind, orInvocationError, interpret_lift]
  refine yields_lift fun succeeded hi => ?_
  rw [bind_eq, interpret_bind]
  refine persist_yields fun row hrow => ?_
  obtain ⟨hexact, hpricing⟩ := exact_of_succeeded hcost resolvePricing_ok hi hrow
  refine toInvocation_ofInvocation hrow hexact ?_ hpricing
  rw [(executed_of_succeeded hi).runtimePrincipalId]
  exact hprincipal

theorem execute_yields (hprincipal : len c.runtimePrincipalId ≤ 255) :
    Yields db₀ i (fun invocation d => Backed casefold d (.invocation invocation))
      ((RuntimeGateway.execute c model).interpret (port settings decisionEnv)) := by
  rw [RuntimeGateway.execute, bind_eq, interpret_attempt_invoke]
  refine yields_attempt (fun _ => rfl) fun r => ?_
  cases r with
  | ok result => exact succeed_yields hprincipal
  | error e =>
    cases e with
    | providerTransportError =>
      show Yields db₀ i _ (interpret (port settings decisionEnv) ((orInvocationError _).bind _))
      rw [interpret_bind, orInvocationError, interpret_lift]
      refine yields_lift fun failed _ => ?_
      rw [bind_eq, interpret_bind]
      exact persist_raises
    | _ => exact yields_raise

theorem withinUsage_yields {window : UsageWindow} (hprincipal : len c.runtimePrincipalId ≤ 255) :
    Yields db₀ i (fun invocation d => Backed casefold d (.invocation invocation))
      ((withinUsage c model window).interpret (port settings decisionEnv)) := by
  rw [withinUsage, bind_eq, interpret_bind, interpret_ask]
  show Yields db₀ i _ ((Prog.ret _).bind _)
  rw [ret_bind, bind_eq, interpret_bind, interpret_orMissing]
  refine yields_orMissing fun budget => ?_
  rw [bind_eq, interpret_bind, interpret_ask]
  refine yields_reader fun cost => ?_
  rw [bind_eq, interpret_bind, RuntimeGateway.orValueError, interpret_lift]
  refine yields_lift fun d _ => ?_
  split
  · exact execute_yields hprincipal
  · rw [bind_eq, interpret_bind, orInvocationError, interpret_lift]
    refine yields_lift fun costLimited _ => ?_
    rw [bind_eq, interpret_bind]
    exact persist_raises

theorem allowed_yields {command : CreateInvocationCommand} (hprincipal : len c.runtimePrincipalId ≤ 255) :
    Yields db₀ i (fun invocation d => Backed casefold d (.invocation invocation))
      ((allowed c command model).interpret (port settings decisionEnv)) := by
  rw [allowed, bind_eq, interpret_bind, orOverflow, interpret_lift]
  refine yields_lift fun window _ => ?_
  rw [bind_eq, interpret_bind, interpret_ask]
  refine yields_reader fun consumed => ?_
  rw [bind_eq, interpret_bind, RuntimeGateway.orValueError, interpret_lift]
  refine yields_lift fun d _ => ?_
  split
  · exact withinUsage_yields hprincipal
  · rw [bind_eq, interpret_bind, orInvocationError, interpret_lift]
    refine yields_lift fun limited _ => ?_
    rw [bind_eq, interpret_bind]
    exact persist_raises

theorem admitted_yields {α : Type} {P : α → Db → Prop} {command : CreateInvocationCommand}
    {f : ModelRuntimeReference → Program α} (hf : ∀ model, Yields db₀ i P (f model)) :
    Yields db₀ i P (((admitted command).interpret (port settings decisionEnv)).bind f) := by
  rw [admitted, bind_eq, interpret_bind, interpret_ask, bind_assoc]
  simp only [bind_eq, interpret_bind, interpret_raiseWhen, bind_assoc]
  refine yields_skip fun «exists» => yields_raiseWhen ?_
  rw [interpret_ask]
  simp only [interpret_orMissing]
  refine yields_skip fun agent => yields_orMissing fun _ => ?_
  rw [interpret_ask]
  exact yields_skip fun model => yields_orMissing fun model => yields_raiseWhen (hf model)

theorem createInvocation_yields {env : InvocationEnv} {command : CreateInvocationCommand}
    (hprincipal : len command.runtimePrincipalId ≤ 255) :
    Yields db₀ i (fun invocation d => Backed casefold d (.invocation invocation))
      (createInvocation settings env decisionEnv command) := by
  rw [createInvocation, RuntimeGateway.createInvocation, bind_eq, interpret_bind, orInvocationError,
    interpret_lift]
  refine yields_lift fun inputText _ => ?_
  rw [bind_eq, interpret_bind]
  refine admitted_yields fun model => ?_
  rw [bind_eq, interpret_bind, interpret_ask]
  show Yields db₀ i _ (((evaluatePermission decisionEnv env.invocationId (subjectOf command)).bind
    fun d => .ret (⟨d.id, d.effect.value, d.permissionId⟩ : RuntimePolicyDecision)).bind _)
  rw [bind_assoc]
  refine yields_skip fun d => ?_
  rw [ret_bind]
  dsimp only
  split
  · exact allowed_yields hprincipal
  · rw [bind_eq, interpret_bind, orInvocationError, interpret_lift]
    refine yields_lift fun denied _ => ?_
    rw [bind_eq, interpret_bind]
    exact persist_raises

theorem program_yields {s : Service} {r : Request}
    (hprincipal : ∀ env decisionEnv command, r = .createInvocation env decisionEnv command →
      len command.runtimePrincipalId ≤ 255) :
    Yields db₀ i (fun reply d => Backed s.casefold d reply) (s.program r) := by
  cases r with
  | createTenant env name => exact yields_map createTenant_yields
  | registerAgent env command => exact yields_map registerAgent_yields
  | registerModel env command => exact yields_map registerModel_yields
  | setPermission env principalId subject effect => exact yields_map setPermission_yields
  | createInvocation env decisionEnv command =>
    exact yields_map (createInvocation_yields (hprincipal env decisionEnv command rfl))

end Requests

/-! ## Runs -/

section Runs

variable {s : Service} {auth : RuntimeAuthenticationSettings} {requests : Tid → Request} {db₀ : Db}
  {tr : List Label} {c : Config} {i : Tid} {reply : Reply}

theorem Authenticated.length_principalId (hauth : Authenticated auth requests) {env : InvocationEnv}
    {decisionEnv : DecisionEnv} {command : CreateInvocationCommand}
    (h : requests i = .createInvocation env decisionEnv command) : len command.runtimePrincipalId ≤ 255 := by
  obtain ⟨p, _, hid, _⟩ := hauth.principal h
  rw [← hid]
  exact p.principalId_length.2

/-- What has been returned is in the database. -/
theorem backed_of_run (hauth : Authenticated auth requests) (h : RunFrom s requests db₀ tr c)
    (hreply : c.prog i = .ret reply) : Backed s.casefold c.world.db reply := by
  have hfollows : ∀ j, Follows database discipline db₀ (Commits s (requests j) j) (Promise (requests j)) j
      (fun r _ d => True ∧ ∀ reply, r = .ok reply → Backed s.casefold d reply) (s.program (requests j))
      (World.ofDb db₀, []) := fun j =>
    follows_and (program_acts s (requests j) db₀ j) (program_yields (fun _ _ _ hr =>
      hauth.length_principalId hr) _ _ (knows_start db₀))
  have hreturned := run_returned (D := database) (i := i) lawful (fun ch _ q => stmt_within ch q) (fun j v hv => hv.disciplined)
    (fun _ _ _ _ _ h hgrows => ⟨trivial, fun reply hr => (h.2 reply hr).later hgrows⟩) hfollows h
  exact (hreturned.1 reply hreply).2 reply rfl

end Runs

/-! ## Later GETs -/

section Gets

variable {casefold : String → String} {db : Db}

/-- The GET of what the reply is about, by a principal who may see it, answers what the reply
    has said: of a permission that may have been set again, what does not change. -/
def Answered (casefold : String → String) (db : Db) : Reply → Prop
  | .tenant tenant => ∀ principal : AuthenticatedPrincipal, principal.authorizes tenant.id = true →
      (getTenant principal tenant.id).outcome (answers casefold fun _ => some db) = .ok tenant
  | .agent agent => ∀ principal : AuthenticatedPrincipal, principal.authorizes agent.tenantId = true →
      (getAgent principal agent.id).outcome (answers casefold fun _ => some db) = .ok agent
  | .model model => ∀ principal : AuthenticatedPrincipal, principal.authorizes model.tenantId = true →
      (getModel principal model.id).outcome (answers casefold fun _ => some db) = .ok model
  | .permission permission => ∀ principal : AuthenticatedPrincipal,
      principal.authorizes permission.tenantId = true →
        ∃ current, (getPermission principal permission.id).outcome (answers casefold fun _ => some db) =
            .ok current ∧
          current.id = permission.id ∧ current.subject = permission.subject ∧
            current.createdAt = permission.createdAt
  | .invocation invocation => ∀ principal : RuntimePrincipal,
      principal.principalId = invocation.runtimePrincipalId → principal.tenantId = invocation.tenantId →
        principal.agentId = invocation.agentId →
          ∃ loaded, (getOwnInvocation principal invocation.id).outcome (answers casefold fun _ => some db) =
              .ok loaded ∧
            SameInvocation loaded.toInvocationFields invocation.toInvocationFields

theorem getOwned_eq_ok {α : Type} {q : Reader (Option α)} {own : α → Bool} {missing : ReadError} {a : α}
    {world : Answers Read Read.Res ReadError} (hq : q.outcome world = .ok (some a)) (hown : own a = true) :
    (getOwned q own missing).outcome world = .ok a := by
  rw [outcome_getOwned, hq]
  show (present missing ((some a).filter own)).outcome world = .ok a
  rw [Option.filter_some, hown]
  rfl

theorem mapM_eq_some {R α : Type} {x : Option R} {row : R} {load : R → Except ReadError α} {a : α}
    (hfind : x = some row) (hload : load row = .ok a) : x.mapM load = .ok (some a) := by
  rw [hfind, Option.mapM_some, hload]
  rfl

theorem Backed.answered (hloads : Loads casefold db) {reply : Reply} (h : Backed casefold db reply) :
    Answered casefold db reply := by
  cases reply with
  | tenant tenant =>
    obtain ⟨row, hrow, hid, hload⟩ := h
    intro principal hauthorizes
    have hfetch : fetch casefold db (.tenantsGet tenant.id) = .ok (some tenant) :=
      mapM_eq_some (Table.find?_eq_some.mpr ⟨hrow, hid⟩) hload
    refine (outcome_bind_of_ok (a := ()) ?_).trans ((outcome_bind_of_ok (a := some tenant) ?_).trans rfl)
    · exact outcome_raiseWhen_eq_ok.mpr (by rw [hauthorizes]; exact Bool.noConfusion)
    · rw [outcome_perform]
      exact hfetch
  | agent agent =>
    obtain ⟨row, hrow, hid, hload⟩ := h
    intro principal hauthorizes
    refine getOwned_eq_ok ?_ hauthorizes
    rw [outcome_perform]
    exact mapM_eq_some (Table.find?_eq_some.mpr ⟨hrow, hid⟩) hload
  | model model =>
    obtain ⟨row, hrow, hid, hload⟩ := h
    intro principal hauthorizes
    refine getOwned_eq_ok ?_ hauthorizes
    rw [outcome_perform]
    exact mapM_eq_some (Table.find?_eq_some.mpr ⟨hrow, hid⟩) hload
  | permission permission =>
    obtain ⟨row, hrow, hid, hcreated⟩ := h
    intro principal hauthorizes
    obtain ⟨hmem, hsubject⟩ := Table.find?_some hrow
    obtain ⟨current, hload⟩ := hloads.permissions row hmem
    obtain ⟨hcurrentId, hcurrentSubject⟩ := permissionFromRow_id hload
    have hsame : current.subject = permission.subject := hcurrentSubject.trans hsubject
    -- No other row has the id.
    have hfind : db.permissions.rows.find? (·.id = permission.id) = some row := by
      cases hfound : db.permissions.rows.find? (·.id = permission.id) with
      | none => exact absurd (decide_eq_true hid) (List.find?_eq_none.mp hfound row hmem)
      | some other =>
        have hother : other.id = permission.id := by
          simpa using List.find?_some hfound
        rw [hloads.permissionIds other (List.mem_of_find?_eq_some hfound) row hmem (hother.trans hid.symm)]
    refine ⟨current, getOwned_eq_ok ?_ ?_, hcurrentId.trans hid, hsame,
      (permissionFromRow_createdAt hload).symm.trans hcreated⟩
    · rw [outcome_perform]
      exact mapM_eq_some hfind (Except.mapError_eq_ok.mpr hload)
    · have htenant : current.tenantId = permission.tenantId := congrArg Subject.tenantId hsame
      rw [htenant]
      exact hauthorizes
  | invocation invocation =>
    obtain ⟨row, hrow, hid, loaded, hload, hsame⟩ := h
    intro principal hprincipal htenant hagent
    refine ⟨loaded, getOwned_eq_ok ?_ ?_, hsame⟩
    · rw [outcome_perform]
      show (RuntimeGateway.getInvocation db.invocations invocation.id).mapError ReadError.invocation = _
      unfold RuntimeGateway.getInvocation
      rw [Table.find?_eq_some.mpr ⟨hrow, hid⟩]
      exact Except.mapError_eq_ok.mpr hload
    · have hplain : ∀ {γ : Type} (f : InvocationFields → γ), f loaded.plain = f invocation.plain :=
        fun f => congrArg f hsame.plain
      have hid' : loaded.runtimePrincipalId = invocation.runtimePrincipalId := hplain (·.runtimePrincipalId)
      have htenant' : loaded.tenantId = invocation.tenantId := hplain (·.tenantId)
      have hagent' : loaded.agentId = invocation.agentId := hplain (·.agentId)
      simp only [hid', htenant', hagent', hprincipal, htenant, hagent, decide_true, Bool.and_self]

end Gets

/-- Whatever a request has replied, a GET says the same from then on: no interleaving of
    authenticated requests loses what another was told is stored. -/
theorem replies_last (s : Service) (auth : RuntimeAuthenticationSettings) (requests : Tid → Request)
    (tr : List Label) (c : Config) (i : Tid) (reply : Reply) (hauth : Authenticated auth requests)
    (h : RunFrom s requests Db.empty tr c) (hreply : c.prog i = .ret reply) :
    Answered s.casefold c.world.db reply :=
  (backed_of_run hauth h hreply).answered (loads_of_run hauth h)

/-- The principal of the example, as it is authenticated. -/
def exampleCaller : RuntimePrincipal := ⟨"caller", 1, 2, 10, 10, by decide +kernel, by decide, by decide⟩

/-- The reply is an Invocation of `exampleCaller`. -/
def repliedToCaller : Program Reply → Bool
  | .ret (.invocation invocation) =>
      invocation.runtimePrincipalId = "caller" && invocation.tenantId = 1 && invocation.agentId = 2
  | _ => false

/-- The neighbour comes after the reply. -/
theorem replies_last_two : ∃ (c : Config) (invocation loaded : Invocation),
    c.prog 4 = .ret (.invocation invocation) ∧ c.world.db.agents.rows.map (·.tenantId) = [1, 100] ∧
      (getOwnInvocation exampleCaller invocation.id).outcome
        (answers exampleSpender.casefold fun _ => some c.world.db) = .ok loaded ∧
      SameInvocation loaded.toInvocationFields invocation.toInvocationFields := by
  obtain ⟨tr, c, hrun, ht⟩ := schedule_any database.exec
    ⟨World.ofDb Db.empty, fun i => exampleSpender.program (exampleNeighbours i)⟩
    (turns 0 3 0 ++ turns 1 5 0 ++ turns 2 5 0 ++ turns 3 12 10 ++ spendingTurns 4 18 ++ turns 6 3 0 ++
      turns 7 5 0)
    (fun t => repliedToCaller (t.2.prog 4) && decide (t.2.world.db.agents.rows.map (·.tenantId) = [1, 100]))
    (by decide +kernel)
  rw [Bool.and_eq_true, decide_eq_true_eq] at ht
  obtain ⟨hreplied, hagents⟩ := ht
  cases hprog : c.prog 4 with
  | ret reply =>
    rw [hprog] at hreplied
    cases reply with
    | invocation invocation =>
      simp only [repliedToCaller, Bool.and_eq_true, decide_eq_true_eq] at hreplied
      obtain ⟨⟨hprincipal, htenant⟩, hagent⟩ := hreplied
      obtain ⟨loaded, hloaded, hsame⟩ := replies_last exampleSpender exampleAuthentication exampleNeighbours
        tr c 4 (.invocation invocation) exampleNeighbours_authenticated hrun hprog exampleCaller
        hprincipal.symm htenant.symm hagent.symm
      exact ⟨c, invocation, loaded, hprog, hagents, hloaded, hsame⟩
    | _ => cases hreplied
  | _ =>
    rw [hprog] at hreplied
    cases hreplied

end Valor.ControlPlane
