/-
  The control plane: a request reads its ledgers with nothing of its own uncommitted.

  `CreateInvocationHandler` opens a session for each of its two ledgers, and the session or
  the Unit of Work before it ended with a rollback. The automaton `afterRollback` says so of
  the statements, `portsAfterRollback` of the ports that they implement. Hence what a ledger
  answers is the sum over the committed Invocations (`ledger_committed`).
-/
import Valor.ControlPlane.Invocations
import Valor.Lib.Automaton

namespace Valor.ControlPlane

open Python Postgres ManagementAudit IdentityTenancy AssetRegistry PolicyRisk RuntimeGateway
  Prog Interleave ReadCommitted Settings

def readsLedger : Op Sql → Bool
  | .sql (.consumedTotalUnits ..) | .sql (.attributedCost ..) => true
  | _ => false

/-- The state is whether the last operation was a rollback. -/
def afterRollback : Automaton (Op Sql) (Op.Res Sql.Res) Error Bool where
  may cleared op := readsLedger op = true → cleared = true
  next _ e :=
    match e.op with
    | .rollback => true
    | _ => false

/-- The same of the ports: which of them end with a rollback, and which leave nothing behind. -/
def portsAfterRollback : Automaton Port Port.Res Error Bool where
  may cleared port :=
    match port with
    | .consumedTotalUnits .. | .attributedCost .. => cleared = true
    | _ => True
  next cleared e :=
    match e.op with
    | .resolveBudget _ | .resolvePricing .. => cleared
    | .invoke .. | .invocationsAdd _ | .commit => false
    | _ => true

section AfterRollback

variable {α : Type} {cleared : Bool}

theorem run_afterRollback {evs : List Event} (h : afterRollback.run false evs = true) :
    ∃ r, evs.getLast? = some ⟨.rollback, r⟩ := by
  rcases List.eq_nil_or_concat evs with rfl | ⟨evs, ⟨op, r⟩, rfl⟩
  · cases h
  · rw [List.concat_eq_append, Automaton.run, List.foldl_append] at h
    rw [List.concat_eq_append, List.getLast?_append, List.getLast?_singleton]
    cases op with
    | rollback => exact ⟨r, rfl⟩
    | sql q => cases h
    | begin => cases h
    | commit => cases h

theorem accepts_unitOfWork {body : Program α} {Q : Bool → Except Error α → Prop}
    (h : Accepts afterRollback Q cleared body) :
    Accepts afterRollback (fun t _ => t = true) cleared (unitOfWork body) :=
  h.andFinally (fun _ _ _ hread => nomatch hread) (fun _ _ _ _ => rfl) fun _ _ _ _ => rfl

theorem accepts_execute {q : Sql} (h : readsLedger (.sql q) = true → cleared = true) :
    Accepts afterRollback (fun _ _ => True) cleared (execute q) :=
  accepts_perform (Op.sql q) h fun _ => trivial

theorem accepts_session {q : Sql} (h : readsLedger (.sql q) = true → cleared = true) :
    Accepts afterRollback (fun t _ => t = true) cleared (session q) :=
  accepts_unitOfWork (accepts_execute h)

/-- Ending with a rollback is more than what a port has to do. -/
theorem accepts_of_cleared {p : Program α} {X : Except Error α → Prop}
    (h : Accepts afterRollback (fun t _ => t = true) cleared p) :
    Accepts afterRollback (fun t r => X r → t = true) cleared p :=
  h.mono fun _ _ ht _ => ht

theorem accepts_of_false {p : Program α} {X : Except Error α → Prop} (hX : ∀ r, ¬X r)
    (h : Accepts afterRollback (fun _ _ => True) cleared p) :
    Accepts afterRollback (fun t r => X r → t = true) cleared p :=
  h.mono fun _ r _ hx => absurd hx (hX r)

theorem accepts_orUnavailable {e : Error} {p : Program α}
    (h : Accepts afterRollback (fun t _ => t = true) cleared p) :
    Accepts afterRollback (fun t _ => t = true) cleared (orUnavailable e p) := by
  refine h.tryBind fun t x ht => ?_
  cases x with
  | ok a => exact .ret ht
  | error e => exact .raise ht

theorem evaluatePermission_afterRollback (env : DecisionEnv) (invocationId : Uuid) (subject : Subject) :
    Accepts afterRollback (fun t _ => t = true) cleared (evaluatePermission env invocationId subject) := by
  refine accepts_unitOfWork (Q := fun _ _ => True) ?_
  refine accepts_perform_bind (fun hread => nomatch hread) (fun _ => trivial) fun permission => ?_
  refine accepts_lift (fun _ _ => trivial) fun decision _ => ?_
  refine accepts_perform_bind (fun hread => nomatch hread) (fun _ => trivial) fun _ => ?_
  exact accepts_perform_bind (fun hread => nomatch hread) (fun _ => trivial) fun _ => .ret trivial

/-- Every port is implemented as its automaton says. -/
theorem port_afterRollback (settings : RuntimeSettings) (env : DecisionEnv) {cleared' : Bool}
    (p : Port) (hR : cleared' = true → cleared = true) (hmay : portsAfterRollback.may cleared' p) :
    Accepts afterRollback (fun t r => portsAfterRollback.next cleared' ⟨p, r⟩ = true → t = true)
      cleared (port settings env p) := by
  cases p with
  | tenantExists k => exact accepts_of_cleared (accepts_session (q := .tenantExists k) nofun)
  | getAgent k => exact accepts_of_cleared (accepts_session (q := .getAgent k) nofun)
  | getModel k => exact accepts_of_cleared (accepts_session (q := .getModel k) nofun)
  | decide invocationId tenantId agentId modelId =>
    refine accepts_of_cleared ((evaluatePermission_afterRollback env invocationId _).bind ?_ ?_)
    · exact fun _ _ ht => ht
    · exact fun t d ht => .ret ht
  | consumedTotalUnits principalId start stop =>
    exact accepts_of_cleared (accepts_orUnavailable
      (accepts_session (q := .consumedTotalUnits principalId start stop) fun _ => hR hmay))
  | resolveBudget k => exact .ret hR
  | attributedCost k start stop =>
    exact accepts_of_cleared (accepts_orUnavailable
      (accepts_session (q := .attributedCost k start stop) fun _ => hR hmay))
  | invoke reference text =>
    exact accepts_of_false (fun _ => nofun) (accepts_execute (q := .invoke reference text) nofun)
  | resolvePricing provider reference => exact .ret hR
  | invocationsAdd invocation =>
    exact accepts_of_false (fun _ => nofun) (accepts_execute (q := .invocationsAdd invocation) nofun)
  | commit => exact accepts_of_false (fun _ => nofun) (accepts_perform Op.commit nofun fun _ => trivial)
  | rollback => exact accepts_of_cleared (accepts_perform Op.rollback nofun fun _ => rfl)

variable {c : Invocation.Common} {model : ModelRuntimeReference} {β : Type}

/-- A port that is no ledger. -/
theorem accepts_ask {p : Port} {f : p.Res → Handler β} {cleared' : Bool}
    (hmay : portsAfterRollback.may cleared p)
    (hnext : ∀ r, portsAfterRollback.next cleared ⟨p, r⟩ = cleared')
    (hf : ∀ a, Accepts portsAfterRollback (fun _ _ => True) cleared' (f a)) :
    Accepts portsAfterRollback (fun _ _ => True) cleared ((ask p).bind f) :=
  accepts_perform_bind hmay (fun _ => trivial) fun a => hnext (.ok a) ▸ hf a

theorem accepts_orMissing {γ : Type} {x : Option γ} {e : Error} {f : γ → Handler β}
    (hf : ∀ b, x = some b → Accepts portsAfterRollback (fun _ _ => True) cleared (f b)) :
    Accepts portsAfterRollback (fun _ _ => True) cleared ((RuntimeGateway.orMissing x e).bind f) := by
  cases x with
  | none => exact .raise trivial
  | some b => exact hf b rfl

/-- What comes after the ledgers reads none. -/
theorem persist_afterRollback {invocation : Invocation} {f : Unit → Handler β}
    (hf : ∀ t, Accepts portsAfterRollback (fun _ _ => True) t (f ())) :
    Accepts portsAfterRollback (fun _ _ => True) cleared ((persist invocation).bind f) := by
  have hbody : Accepts portsAfterRollback (fun _ _ => True) cleared (persist invocation) := by
    refine Accepts.andFinally (P := fun _ _ => True) ?_ (fun _ _ _ => trivial) (fun _ _ _ _ => trivial)
      fun _ _ _ _ => trivial
    exact accepts_ask trivial (fun _ => rfl) fun _ => accepts_perform Port.commit trivial fun _ => trivial
  exact hbody.bind (fun _ _ _ => trivial) fun t _ _ => hf t

theorem execute_afterRollback :
    Accepts portsAfterRollback (fun _ _ => True) cleared (RuntimeGateway.execute c model) := by
  refine .call trivial fun r => ?_
  cases r with
  | ok result =>
    refine accepts_ask trivial (fun _ => rfl) fun pricing => ?_
    refine accepts_lift (fun _ _ => trivial) fun cost _ => ?_
    refine accepts_lift (fun _ _ => trivial) fun succeeded _ => ?_
    exact persist_afterRollback fun _ => .ret trivial
  | error e =>
    cases e with
    | providerTransportError =>
      refine accepts_lift (fun _ _ => trivial) fun failed _ => ?_
      exact persist_afterRollback fun _ => .raise trivial
    | _ => exact .raise trivial

theorem withinUsage_afterRollback {window : UsageWindow} :
    Accepts portsAfterRollback (fun _ _ => True) true (withinUsage c model window) := by
  refine accepts_ask trivial (fun _ => rfl) fun budget => ?_
  refine accepts_orMissing fun budget _ => ?_
  refine accepts_ask rfl (fun _ => rfl) fun cost => ?_
  refine accepts_lift (fun _ _ => trivial) fun decision _ => ?_
  split
  · exact execute_afterRollback
  · refine accepts_lift (fun _ _ => trivial) fun costLimited _ => ?_
    exact persist_afterRollback fun _ => .raise trivial

theorem allowed_afterRollback {command : CreateInvocationCommand} :
    Accepts portsAfterRollback (fun _ _ => True) true (allowed c command model) := by
  refine accepts_lift (fun _ _ => trivial) fun window _ => ?_
  refine accepts_ask rfl (fun _ => rfl) fun consumed => ?_
  refine accepts_lift (fun _ _ => trivial) fun decision _ => ?_
  split
  · exact withinUsage_afterRollback
  · refine accepts_lift (fun _ _ => trivial) fun limited _ => ?_
    exact persist_afterRollback fun _ => .raise trivial

theorem admitted_afterRollback {command : CreateInvocationCommand} {f : ModelRuntimeReference → Handler β}
    (hf : ∀ model, Accepts portsAfterRollback (fun _ _ => True) true (f model)) :
    Accepts portsAfterRollback (fun _ _ => True) cleared ((admitted command).bind f) := by
  simp only [admitted, bind_eq, bind_assoc]
  refine accepts_ask trivial (fun _ => rfl) fun «exists» => ?_
  refine accepts_raiseWhen (fun _ => trivial) fun _ => ?_
  refine accepts_ask trivial (fun _ => rfl) fun agent => ?_
  refine accepts_orMissing fun agent _ => ?_
  refine accepts_ask trivial (fun _ => rfl) fun model => ?_
  refine accepts_orMissing fun model _ => ?_
  exact accepts_raiseWhen (fun _ => trivial) fun _ => hf model

theorem createInvocation_afterRollback (settings : RuntimeSettings) (env : InvocationEnv)
    (decisionEnv : DecisionEnv) (command : CreateInvocationCommand) :
    Accepts afterRollback (fun _ _ => True) false
      (createInvocation settings env decisionEnv command) := by
  refine Accepts.interpret (R := fun t' t => t' = true → t = true)
    (fun _ _ p => port_afterRollback settings decisionEnv p) (fun _ _ _ _ _ => trivial)
    (B := portsAfterRollback) (P := fun _ _ => True) (t := false) ?_ (fun h => h)
  refine accepts_lift (fun _ _ => trivial) fun inputText _ => ?_
  refine admitted_afterRollback fun model => ?_
  refine accepts_ask trivial (fun _ => rfl) fun decision => ?_
  dsimp only
  split
  · exact allowed_afterRollback
  · refine accepts_lift (fun _ _ => trivial) fun denied _ => ?_
    exact persist_afterRollback fun _ => .raise trivial

end AfterRollback

/-- A ledger answers from the committed database. -/
theorem ledger_committed {s : Service} {requests : Tid → Request} {db₀ : Db} {tr : List Label}
    {c c' : Config} {i : Tid} {env : InvocationEnv} {decisionEnv : DecisionEnv}
    {command : CreateInvocationCommand} {q : Sql} {a : q.Res} {f : Db → Except Error q.Res}
    (hf : ∀ ch, stmt ch q = .query f) (hq : readsLedger (.sql q) = true)
    (h : RunFrom s requests db₀ tr c) (hrequest : requests i = .createInvocation env decisionEnv command)
    (hs : Step database.exec c ⟨i, ⟨.sql q, .ok a⟩⟩ c') : f c.world.db = .ok a := by
  have hprogram : Accepts afterRollback (fun _ _ => True) false (s.program (requests i)) := by
    rw [hrequest]
    exact (createInvocation_afterRollback s.settings env decisionEnv command).bind
      (fun _ _ _ => trivial) fun _ _ _ => .ret trivial
  have haccepted := run_accepts h hprogram
  cases hs with
  | @mk _ _ k ch _ w' hprog hexec =>
    rw [hprog] at haccepted
    obtain ⟨r, hlast⟩ := run_afterRollback (haccepted.may hq)
    obtain ⟨hanswer, _⟩ | hperform := exec_sql hexec
    · cases hanswer
    · have hstmt : database.stmt ch i q = .query f := hf ch
      rw [hstmt, World.perform, view_of_rolledBack h hlast] at hperform
      exact congrArg Prod.fst (Option.some.inj hperform)

end Valor.ControlPlane
