/-
  One bootstrap.

  Every route but the bootstrap authenticates first, which takes a stored principal. So from
  an empty store the first principal is that of a bootstrap, which counts the principals
  and commits without giving up the lock of the management state: nothing is added in
  between, and no other bootstrap commits (`one_bootstrap`).

  What a bootstrap does after a count that is not zero, and what a route has done before it
  calls the service, is read off the path of its program.
-/
import Valor.Lib.Path
import Valor.ManagementIdentity.Routes
import Valor.ManagementIdentity.TokenLifecycle

namespace Valor.ManagementIdentity

open Python Postgres ManagementAudit Prog Interleave ReadCommitted Security

/-! ## Routes among others -/

/-- The evidence of an authentication, and nothing else, has changed. -/
structure OnlyEvidence (db db' : Db) : Prop where
  principals : db'.principals = db.principals
  credentials : db'.credentials = db.credentials
  scopes : db'.scopes = db.scopes
  tenants : db'.tenants = db.tenants
  audits : db'.audits = db.audits

def HttpRequest.isBootstrap (r : HttpRequest) : Bool :=
  match r.route with
  | .bootstrap .. => true
  | .managed _ | .getPrincipal _ => false

/-- The commands that a route can hand to the service. -/
def HttpRequest.Calls (r : HttpRequest) (command : Command) : Prop :=
  match r.route with
  | .bootstrap displayName tenantIds =>
      ∃ token, command = .bootstrap ⟨token, displayName, tenantIds⟩
  | .managed payload => ∃ actor, command = payload.command actor
  | .getPrincipal _ => False

/-- A world whose commit by thread `i` is that of its authentication, or its command as an
    atomic step. -/
def ServeCommits (s : Service) (r : HttpRequest) (i : Tid) (v : Traced Db Lock Sql Sql.Res Error) :
    Prop :=
  (r.isBootstrap = false ∧ OnlyEvidence v.1.db (v.1.view i)) ∨
    ∃ command before, r.Calls command ∧ Commits s True ⟨command, r.env⟩ before i v

theorem OnlyEvidence.later {db db' : Db} (h : OnlyEvidence db db') : Later db db' :=
  later_of_eq h.principals h.credentials h.tenants (h.audits ▸ List.prefix_rfl)

theorem OnlyEvidence.still {api : Prop} {db db' : Db} (h : OnlyEvidence db db') : Still api db db' :=
  ⟨fun _ r hr => ⟨r, h.principals ▸ hr, rfl⟩, fun _ c hc => ⟨c, h.credentials ▸ hc, rfl⟩,
    fun _ => h.principals⟩

theorem ServeCommits.disciplined {s : Service} {r : HttpRequest} {i : Tid}
    {v : Traced Db Lock Sql Sql.Res Error} (h : ServeCommits s r i v) :
    Disciplined (discipline True) i v.1 := by
  rcases h with ⟨_, h⟩ | ⟨command, before, _, h⟩
  · exact ⟨h.later, fun l _ _ => h.still⟩
  · exact h.disciplined

section Serve

variable {sqlNow : Tid → Utc} {s : Service} {r : HttpRequest} {db₀ : Db} {i : Tid}
  {v : Traced Db Lock Sql Sql.Res Error} {α : Type}

/-- Thread `i` serves a part of the request `r`; its value and the database are related by `P`. -/
abbrev Serves (sqlNow : Tid → Utc) (s : Service) (r : HttpRequest) (db₀ : Db) (i : Tid)
    (P : α → Db → Prop) (p : Program α) (v : Traced Db Lock Sql Sql.Res Error) : Prop :=
  Follows (database sqlNow) (discipline True) db₀ (ServeCommits s r i) (fun _ _ => True) i
    (fun o _ d => ∀ a, o = .ok a → P a d) p v

theorem serves_ret {P : α → Db → Prop} {a : α} (h : P a v.1.db) :
    Serves sqlNow s r db₀ i P (.ret a) v := by
  refine safe_ret.mpr fun b hb => ?_
  cases hb
  exact h

theorem serves_raise {P : α → Db → Prop} {e : Error} :
    Serves sqlNow s r db₀ i P (.raise e) v :=
  safe_raise.mpr fun _ h => nomatch h

theorem serves_lift {ε β : Type} {P : α → Db → Prop} {g : ε → Error} {x : Except ε β}
    {k : β → Program α} (hk : ∀ b, x = .ok b → Serves sqlNow s r db₀ i P (k b) v) :
    Serves sqlNow s r db₀ i P ((lift g x).bind k) v :=
  safe_lift (fun _ _ _ h => nomatch h) hk

theorem serves_query {P : α → Db → Prop} {q : Sql} {act : Choice → Db → Except Error q.Res}
    {k : q.Res → Program α} {evs : List StoreEvent} {ws : List (Db → Db)} {ls : List Lock}
    {F : Db → Prop} (hq : ∀ ch, stmt (sqlNow i) ch i q = .query (act ch))
    (hF : Lasting (discipline True) ls F) (h : Knows i evs ws ls F v)
    (hk : ∀ v a ch, Knows i (evs ++ [⟨.sql q, .ok a⟩]) ws ls F v →
      act ch (ws.foldl (fun d f => f d) v.1.db) = .ok a → Serves sqlNow s r db₀ i P (k a) v) :
    Serves sqlNow s r db₀ i P ((sql q).bind k) v :=
  follows_query hq hF h (fun _ _ => trivial) (fun _ _ _ _ _ _ h => nomatch h)
    fun v a ch h _ => hk v a ch h

theorem serves_change {P : α → Db → Prop} {q : Sql} {locks : Db → Db → List Lock}
    {act : Db → Db → Except Error (q.Res × (Db → Db))} {k : q.Res → Program α} {evs : List StoreEvent}
    {ws : List (Db → Db)} {ls : List Lock} {F : Db → Prop}
    (hq : ∀ ch, stmt (sqlNow i) ch i q = .change locks act) (hF : Lasting (discipline True) ls F)
    (h : Knows i evs ws ls F v)
    (hk : ∀ v a g seen, Knows i (evs ++ [⟨.sql q, .ok a⟩]) (ws ++ [g])
        (locks seen (ws.foldl (fun d f => f d) v.1.db) ++ ls) F v →
      act seen (ws.foldl (fun d f => f d) v.1.db) = .ok (a, g) →
      Serves sqlNow s r db₀ i P (k a) v) :
    Serves sqlNow s r db₀ i P ((sql q).bind k) v :=
  follows_change hq hF h (fun _ _ => trivial) (fun _ _ _ _ _ _ _ h => nomatch h)
    fun v a g seen h _ => hk v a g seen h

/-- An authentication that has succeeded has found a principal. -/
def Found (identity : Option AuthenticatedManagementIdentity) (db : Db) : Prop :=
  identity.isSome → db.principals.rows ≠ []

theorem lasting_found {identity : Option AuthenticatedManagementIdentity} {ls : List Lock} :
    Lasting (discipline True) ls (Found identity) :=
  lasting_of_grows fun _ _ h hlater hsome =>
    (show Admits True _ from fun _ => h hsome).later hlater trivial

theorem observe_serves {credentialId principalId : Uuid} {outcome : ManagementAuthenticationOutcome}
    {at' : Aware} {identity : Option AuthenticatedManagementIdentity} {evs : List StoreEvent}
    (hr : r.isBootstrap = false) (h : Knows i evs [] [] (Found identity) v) :
    Serves sqlNow s r db₀ i Found
      ((ManagementAuthenticator.observe credentialId principalId outcome at').bind fun _ =>
        .ret identity) v := by
  unfold ManagementAuthenticator.observe
  simp only [bind_eq, bind_assoc]
  refine serves_lift fun evidence _ => serves_lift fun before _ => ?_
  refine serves_change (fun _ => rfl) lasting_found h fun v a g _ h ha => ?_
  cases ha
  refine serves_change (fun _ => rfl) lasting_found h fun v a g _ h ha => ?_
  obtain ⟨row, _, ha⟩ := Except.bind_ok_cases ha
  obtain ⟨_, _, ha⟩ := Except.bind_ok_cases ha
  cases ha
  refine follows_commit lasting_found h (fun _ _ => trivial) (fun _ _ _ _ h => nomatch h)
    (fun v h _ => .inl ⟨hr, ?_⟩) fun d hd a ha => ?_
  · rw [h.view]
    exact ⟨rfl, rfl, rfl, rfl, rfl⟩
  · cases ha
    exact hd

/-- The transaction of an authentication. -/
theorem authenticate_serves {a : ManagementAuthenticator} {token : String} {at' : Aware}
    {k : Option AuthenticatedManagementIdentity → Program α} {P : α → Db → Prop}
    (hr : r.isBootstrap = false) (h : Knows i [] [] [] (fun _ => True) v)
    (hk : ∀ identity evs v, Knows i evs [] [] (Found identity) v →
      Serves sqlNow s r db₀ i P (k identity) v) :
    Serves sqlNow s r db₀ i P ((a.authenticate token at').bind k) v := by
  unfold ManagementAuthenticator.authenticate
  split
  · exact hk none [] v (h.mono fun _ h => nomatch h)
  · next credentialId secret _ =>
    refine follows_transaction (fun _ _ _ => trivial)
      (fun (o : Except Error _) _ d _ (hx : ∀ x, o = .ok x → Found x d) hlater x ho hsome => ?_)
      (fun _ _ _ _ _ h => nomatch h) (fun x evs v h _ => hk x _ v (h.mono fun hx => hx x rfl)) ?_
    · exact (show Admits True _ from fun _ => hx x ho hsome).later hlater trivial
    · refine serves_query (fun _ => rfl) lasting_true h fun v credential? _ h _ => ?_
      cases credential? with
      | none => exact serves_ret fun h => nomatch h
      | some credential =>
        refine serves_query (fun _ => rfl) lasting_true h fun v principal? _ h hprincipal => ?_
        cases principal? with
        | none => exact serves_ret fun h => nomatch h
        | some p =>
          obtain ⟨row, hrow, _⟩ := find?_of_getPrincipal (Except.ok.inj hprincipal)
          have hne : v.1.db.principals.rows ≠ [] := List.ne_nil_of_mem (Table.find?_some hrow).1
          simp only [bind_eq, pure_eq, ManagementAuthenticator.observe_outcome]
          exact observe_serves hr (h.mono fun _ _ => hne)

/-- What runs behind `require_management_principal` runs with a principal in the store. -/
theorem require_serves {a : ManagementAuthenticator} {k : AuthenticatedPrincipal → Program α}
    {P : α → Db → Prop} (hr : r.isBootstrap = false) (h : Knows i [] [] [] (fun _ => True) v)
    (hk : ∀ principal evs v, Knows i evs [] [] (fun db => db.principals.rows ≠ []) v →
      Serves sqlNow s r db₀ i P (k principal) v) :
    Serves sqlNow s r db₀ i P
      ((requireManagementPrincipal a r.credentials r.at').bind k) v := by
  unfold requireManagementPrincipal
  split
  · exact serves_raise
  · simp only [bind_eq, bind_assoc]
    refine authenticate_serves hr h fun identity evs v h => ?_
    cases identity with
    | none => exact serves_raise
    | some identity => exact serves_lift fun principal _ => hk principal evs v (h.mono fun hf => hf rfl)

/-- `get_principal` only reads. -/
theorem getPrincipal_serves {actor : ManagementActor} {principalId : Uuid} {evs : List StoreEvent}
    {k : ManagementPrincipal → Program α} (h : Knows i evs [] [] (fun _ => True) v)
    (hk : ∀ p evs v, Knows i evs [] [] (fun _ => True) v →
      Serves sqlNow s r db₀ i (fun _ _ => True) (k p) v) :
    Serves sqlNow s r db₀ i (fun _ _ => True) ((Service.getPrincipal actor principalId).bind k) v := by
  unfold Service.getPrincipal Service.requireManager raiseWhen
  split
  · exact serves_raise
  · simp only [bind_eq, ret_bind, bind_assoc]
    refine follows_transaction (W := fun o _ d => ∀ a, o = .ok a → (fun _ _ => True) a d)
      (fun _ _ _ => trivial) (fun _ _ _ _ _ _ _ _ => trivial) (fun _ _ _ _ _ _ => trivial)
      (fun found evs v h _ => ?_) ?_
    · cases found with
      | none => exact serves_raise
      | some p => exact hk p _ v (h.mono fun _ => trivial)
    · rw [← bind_ret (sql (Sql.principalsGet principalId))]
      exact serves_query (fun _ => rfl) lasting_true h fun v found _ h _ => serves_ret trivial

/-- Every route, run among others. -/
theorem serve_serves (i : Tid) :
    Serves sqlNow s r db₀ i (fun _ _ => True) (s.serve r) (World.ofDb db₀, []) := by
  have h : Knows i [] [] [] (fun _ => True)
      ((World.ofDb db₀, []) : Traced Db Lock Sql Sql.Res Error) := knows_start db₀
  unfold Service.serve
  split
  · next displayName tenantIds hroute =>
    split
    · exact serves_raise
    · next token _ =>
      refine follows_mono (fun v hv => .inr ⟨_, [], ?_, hv⟩) (fun _ _ _ _ _ _ => trivial)
        (handle_acts (fun hne => absurd rfl (hne _)) h)
      simp [HttpRequest.Calls, hroute]
  · next payload hroute =>
    have hr : r.isBootstrap = false := by simp [HttpRequest.isBootstrap, hroute]
    refine require_serves hr h fun principal evs v h => ?_
    refine follows_mono (fun v hv => .inr ⟨_, evs, ?_, hv⟩) (fun _ _ _ _ _ _ => trivial)
      (handle_acts (fun _ _ => h.fact) (h.mono fun _ => trivial))
    unfold HttpRequest.Calls
    rw [hroute]
    exact ⟨actor principal, rfl⟩
  · next principalId hroute =>
    have hr : r.isBootstrap = false := by simp [HttpRequest.isBootstrap, hroute]
    refine require_serves hr h fun principal evs v h => ?_
    exact getPrincipal_serves (h.mono fun _ => trivial) fun p evs v _ => serves_ret trivial

end Serve

/-! ## Runs -/

/-- A run of requests from an empty management store. -/
abbrev ServeRun (sqlNow : Tid → Utc) (s : Service) (requests : Tid → HttpRequest)
    (tenants : Finset Uuid) (tr : List RunLabel) (c : RunConfig) : Prop :=
  Run (database sqlNow).exec ⟨World.ofDb (Db.empty tenants), fun i => s.serve (requests i)⟩ tr c

section Runs

variable {sqlNow : Tid → Utc} {s : Service} {requests : Tid → HttpRequest} {tenants : Finset Uuid}
  {tr tr' : List RunLabel} {c c' : RunConfig} {l : RunLabel}

theorem serve_step (h : ServeRun sqlNow s requests tenants tr c)
    (hs : Step (database sqlNow).exec c l c') :
    CommitsOnly (fun w => ServeCommits s (requests l.tid) l.tid (w, tr)) l.tid l.event.op
      l.event.answer c.world c'.world :=
  run_step (D := database sqlNow) (C := fun i => ServeCommits s (requests i) i)
    (B := fun _ _ _ => True) (P := fun _ o _ d => ∀ a : Reply, o = .ok a → (fun _ _ => True) a d)
    (lawful True) (fun ch i q => stmt_within (sqlNow i) ch i q) (fun _ _ => ServeCommits.disciplined)
    (fun _ _ _ _ _ h _ => h) (fun i => serve_serves i) h hs

/-- The first principal and its credential. -/
structure FirstManager (db : Db) (p : ManagementPrincipalRow) (c : ManagementCredentialRow) : Prop where
  principals : db.principals.rows = [p]
  credentials : db.credentials.rows = [c]
  manager : p.canManagePrincipals = true
  active : p.disabledAt = none
  owner : c.principalId = p.principalId
  unrevoked : c.revokedAt = none
  unexpiring : c.expiresAt = none

theorem rows_insert_nil {R K : Type} [DecidableEq K] [Keyed R K] {t : Table R} (h : t.rows = [])
    (r : R) : (t.insert r).rows = [r] := by
  simp [Table.insert, h]

/-- A command that finds no principal and leaves one is the bootstrap. -/
theorem Does.first {env : Env} {read : Option ManagementPrincipal} {db : Db} {command : Command}
    {change : Change} {records : List Record} {i : Tid} (h : Does s True env read db command change records)
    (hadmits : command.guarded = false → Admits True db) (hnone : db.principals.rows = [])
    (howned : Owned db) (hsome : (change.apply i db).principals.rows ≠ []) :
    (∃ b, command = .bootstrap b) ∧
      ∃ p c, FirstManager ((change.apply i db).appendAudits records) p c := by
  have hcredentials : db.credentials.rows = [] := by
    refine List.eq_nil_iff_forall_not_mem.mpr fun x hx => ?_
    obtain ⟨p, hp⟩ := Option.ne_none_iff_exists'.mp (howned _ x (Table.mem_iff_find?.mp hx))
    have hmem : p ∈ db.principals.rows := (Table.find?_some hp).1
    rw [hnone] at hmem
    cases hmem
  cases h with
  | @bootstrapped _ p x row crow _ _ principal_ok credential_ok row_ok crow_ok _ _ =>
    obtain ⟨_, hmanager, _, hactive⟩ := principal_new_ok principal_ok
    obtain ⟨_, hxp, hxexpires, hxrevoked⟩ := Credential.new_ok credential_ok
    obtain ⟨hrid, hrmanager, hractive⟩ := ofPrincipal_ok row_ok
    obtain ⟨_, hcp, hcexpires, hcrevoked⟩ := ofCredential_ok crow_ok
    refine ⟨⟨_, rfl⟩, row, crow, rows_insert_nil hnone row, rows_insert_nil hcredentials crow,
      hrmanager.trans hmanager, ?_, hcp.trans (hxp.trans hrid.symm), ?_, ?_⟩
    · simpa [hactive] using hractive
    · simpa [hxrevoked] using hcrevoked
    · simpa [hxexpires] using hcexpires
  | created => exact absurd hnone (hadmits rfl trivial)
  | issued => exact absurd hnone hsome
  | scopesSet => exact absurd hnone hsome
  | revoked => exact absurd hnone hsome
  | disabled =>
    refine absurd ?_ hsome
    simp [Change.apply, Db.disablePrincipal, Table.modify, hnone]

/-- What the commits of a run have left. -/
structure Bootstraps (requests : Tid → HttpRequest) (tr : List RunLabel) (db : Db) : Prop where
  owned : Owned db
  done : ∀ i, committed i ∈ tr → (requests i).isBootstrap → db.principals.rows ≠ []
  once : ∀ i j, committed i ∈ tr → committed j ∈ tr → (requests i).isBootstrap →
    (requests j).isBootstrap → i = j

theorem Calls.bootstrap_iff {r : HttpRequest} {command : Command} (h : r.Calls command) :
    r.isBootstrap = true ↔ ∃ b, command = .bootstrap b := by
  unfold HttpRequest.Calls at h
  unfold HttpRequest.isBootstrap
  split at h
  · obtain ⟨token, rfl⟩ := h
    simp
  · next payload _ =>
    obtain ⟨actor, rfl⟩ := h
    cases payload <;> simp [Payload.command]
  · exact h.elim

/-- A command that commits leaves a principal. -/
theorem Does.principals_ne_nil {env : Env} {read : Option ManagementPrincipal} {db : Db}
    {b : BootstrapCommand} {change : Change} {records : List Record} {i : Tid}
    (h : Does s True env read db (.bootstrap b) change records) :
    db.principals.rows = [] ∧ (change.apply i db).principals.rows ≠ [] := by
  cases h with
  | @bootstrapped _ _ _ row _ _ first =>
    refine ⟨first trivial, ?_⟩
    show (db.principals.insert row).rows ≠ []
    rw [rows_insert_nil (first trivial)]
    exact List.cons_ne_nil _ _

theorem OnlyEvidence.owned {db db' : Db} (h : OnlyEvidence db db') (howned : Owned db) : Owned db' := by
  intro k row hrow
  rw [h.principals]
  exact howned k row (h.credentials ▸ hrow)

theorem Bootstraps.step (h : Bootstraps requests tr c.world.db)
    (hs : CommitsOnly (fun w => ServeCommits s (requests l.tid) l.tid (w, tr)) l.tid l.event.op
      l.event.answer c.world c'.world) : Bootstraps requests (tr ++ [l]) c'.world.db := by
  rcases hs.label_cases with ⟨hl, hcommit, hw⟩ | ⟨hl, hsame⟩
  · have hdb : c'.world.db = c.world.view l.tid := by rw [hw, db_commit]
    have hmem : ∀ i, committed i ∈ tr ++ [l] → committed i ∈ tr ∨ i = l.tid := by
      intro i hi
      rcases List.mem_append.mp hi with hi | hi
      · exact .inl hi
      · rw [hl, List.mem_singleton] at hi
        exact .inr (committed_inj.mp hi)
    rcases hcommit with ⟨hr, honly⟩ | ⟨command, before, hcalls, read, change, records, hcommit⟩
    · have hold : ∀ i, committed i ∈ tr ++ [l] → (requests i).isBootstrap → committed i ∈ tr := by
        intro i hi hb
        rcases hmem i hi with hi | rfl
        · exact hi
        · rw [hr] at hb
          cases hb
      rw [hdb]
      refine ⟨honly.owned h.owned, fun i hi hb => ?_, fun i j hi hj hbi hbj => ?_⟩
      · rw [honly.principals]
        exact h.done i (hold i hi hb) hb
      · exact h.once i j (hold i hi hbi) (hold j hj hbj) hbi hbj
    · have hdoes := hcommit.does
      have hview : c.world.view l.tid = (change.apply l.tid c.world.db).appendAudits records :=
        hcommit.view
      have hlater : Later c.world.db ((change.apply l.tid c.world.db).appendAudits records) :=
        hdoes.later.trans (later_appendAudits records)
      have hnew : (requests l.tid).isBootstrap → c.world.db.principals.rows = [] ∧
          (change.apply l.tid c.world.db).principals.rows ≠ [] := by
        intro hb
        obtain ⟨b, rfl⟩ := (Calls.bootstrap_iff hcalls).mp hb
        exact hdoes.principals_ne_nil
      rw [hdb, hview]
      refine ⟨h.owned.step hdoes, fun i hi hb => ?_, fun i j hi hj hbi hbj => ?_⟩
      · rcases hmem i hi with hi | rfl
        · exact (show Admits True c.world.db from fun _ => h.done i hi hb).later hlater trivial
        · exact (hnew hb).2
      · rcases hmem i hi with hi | rfl <;> rcases hmem j hj with hj | hji
        · exact h.once i j hi hj hbi hbj
        · exact absurd (hnew (hji ▸ hbj)).1 (h.done i hi hbi)
        · exact absurd (hnew hbi).1 (h.done j hj hbj)
        · exact hji.symm
  · rw [hsame]
    have hold : ∀ i, committed i ∈ tr ++ [l] → committed i ∈ tr := by
      intro i hi
      rcases List.mem_append.mp hi with hi | hi
      · exact hi
      · exact absurd (List.mem_singleton.mp hi).symm (hl i)
    exact ⟨h.owned, fun i hi => h.done i (hold i hi), fun i j hi hj => h.once i j (hold i hi) (hold j hj)⟩

theorem bootstraps_run (h : ServeRun sqlNow s requests tenants tr c) :
    Bootstraps requests tr c.world.db := by
  induction h with
  | nil => exact ⟨fun k row hrow => absurd hrow.symm (Option.some_ne_none row), by simp, by simp⟩
  | snoc init hs ih => exact ih.step (serve_step init hs)

end Runs

/-! ## What a thread has done -/

section Paths

variable {s : Service} {r : HttpRequest} {evs : List StoreEvent} {q : Program Reply}

/-- The program has raised that the bootstrap is completed, or raises it once it has rolled
    back. -/
def Refused (q : Program Reply) : Prop :=
  q = .raise .bootstrapAlreadyCompleted ∨
    ∃ k, q = .call .rollback k ∧ k (.ok ()) = .raise .bootstrapAlreadyCompleted

/-- From a count that is not zero on a bootstrap only rolls back. -/
theorem counted_path {n : Nat} (hn : n ≠ 0) {rest : Program (ManagementPrincipal × IssuedCredential)}
    {f : ManagementPrincipal × IssuedCredential → Program Reply}
    (h : Path ((unitOfWork ((raiseWhen (n ≠ 0) Error.bootstrapAlreadyCompleted).bind
      fun _ => rest)).bind f) evs q)
    (hrollback : ∀ x, ⟨.rollback, x⟩ ∈ evs → x = .ok ()) :
    (∀ e ∈ evs, e.op = .rollback) ∧ Refused q := by
  rw [raiseWhen, if_pos hn] at h
  rcases path_call h with ⟨rfl, rfl⟩ | ⟨x, evs, rfl, hx⟩
  · exact ⟨by simp, .inr ⟨_, rfl, rfl⟩⟩
  · obtain rfl := hrollback x (List.mem_cons_self ..)
    obtain ⟨rfl, rfl⟩ := path_raise hx
    exact ⟨by simp, .inl rfl⟩

/-- The bootstrap counts once. -/
theorem bootstrap_rest_only {env : Env} {displayName : String} {tenantIds : Finset Uuid}
    {f : ManagementPrincipal × IssuedCredential → Program Reply}
    (hf : ∀ x, (f x).Only (· ≠ .sql .principalsCount)) :
    ((unitOfWork (do
      Service.requireTenants tenantIds
      let principal ← Service.newPrincipal env displayName true tenantIds
      let issued ← s.newCredential env principal.principalId (some "bootstrap") none
      sql (Sql.principalsAdd principal)
      sql (Sql.credentialsAdd issued.credential)
      commit
      return (principal, issued))).bind f).Only (· ≠ .sql .principalsCount) := by
  refine .bind (.andFinally (by simp) (.bind ?_ fun _ => .bind (only_lift _) fun principal => ?_)) hf
  · unfold Service.requireTenants
    split
    · exact .bind (only_perform (by simp)) fun _ => only_raiseWhen
    · exact .ret ()
  · refine .bind ?_ fun issued => .bind (only_perform (by simp)) fun _ =>
      .bind (only_perform (by simp)) fun _ => .bind (only_perform (by simp)) fun _ => .ret _
    unfold Service.newCredential
    exact .bind (only_lift _) fun _ => .ret _

/-- A bootstrap counts under the lock of the management state, and once; it is over if it
    has counted principals. -/
theorem bootstrap_path {n : Nat} (hr : r.isBootstrap = true) (h : Path (s.serve r) evs q)
    (hrollback : ∀ x, ⟨.rollback, x⟩ ∈ evs → x = .ok ())
    (hcount : ⟨.sql .principalsCount, .ok n⟩ ∈ evs) :
    ∃ rest, evs = ⟨.sql .lockManagementState, .ok ()⟩ :: ⟨.sql .principalsCount, .ok n⟩ :: rest ∧
      (∀ e ∈ rest, e.op ≠ .sql .principalsCount) ∧
      (n ≠ 0 → (∀ e ∈ rest, e.op = .rollback) ∧ Refused q) := by
  have hraised : ∀ {e : Error}, ¬Path (.raise e : Program Reply) evs q := by
    intro e h
    obtain ⟨rfl, _⟩ := path_raise h
    cases hcount
  have hf : ∀ x : ManagementPrincipal × IssuedCredential,
      (Prog.ret (.bootstrapped x.1 x.2) : Program Reply).Only (· ≠ .sql .principalsCount) :=
    fun _ => .ret _
  have hfailed : ∀ {e : Error} {evs : List StoreEvent},
      Path ((unitOfWork (.raise e)).bind fun x : ManagementPrincipal × IssuedCredential =>
        (.ret (.bootstrapped x.1 x.2) : Program Reply)) evs q →
      (⟨.sql .principalsCount, .ok n⟩ : StoreEvent) ∉ evs :=
    fun h hmem => (Only.bind (.andFinally (by simp) (.raise _)) hf).path h _ hmem rfl
  unfold Service.serve at h
  unfold HttpRequest.isBootstrap at hr
  split at h
  · split at h
    · exact absurd h hraised
    · simp only [Service.handle, Service.bootstrap, compareDigest] at h
      split at h
      · simp only [bind_eq, ret_bind, raiseWhen] at h
        split at h
        · exact absurd h hraised
        · obtain ⟨rfl, _⟩ | ⟨x, evs, rfl, hx⟩ := path_call h
          · cases hcount
          · replace hcount := (List.mem_cons.mp hcount).resolve_left (by simp)
            cases x with
            | error e => exact absurd hcount (hfailed hx)
            | ok u =>
              obtain ⟨rfl, _⟩ | ⟨y, evs, rfl, hy⟩ := path_call hx
              · cases hcount
              · cases y with
                | error e =>
                  exact absurd ((List.mem_cons.mp hcount).resolve_left (by simp)) (hfailed hy)
                | ok m =>
                  have honce : ∀ e ∈ evs, e.op ≠ .sql .principalsCount := by
                    by_cases hm : m = 0
                    · subst hm
                      exact (bootstrap_rest_only hf).path hy
                    · obtain ⟨honly, _⟩ := counted_path hm hy fun x hx => hrollback x (by simp [hx])
                      intro e he
                      rw [honly e he]
                      simp
                  obtain hmn | hcount := List.mem_cons.mp hcount
                  · cases hmn
                    exact ⟨evs, rfl, honce, fun hn =>
                      counted_path hn hy fun x hx => hrollback x (by simp [hx])⟩
                  · exact absurd rfl (honce _ hcount)
      · exact absurd h hraised
  all_goals
    next hroute =>
      rw [hroute] at hr
      cases hr

/-- What an authentication that returns an identity has read first. -/
theorem authenticate_path {a : ManagementAuthenticator} {token : String} {at' : Aware}
    {identity : AuthenticatedManagementIdentity}
    (h : Path (a.authenticate token at') evs (.ret (some identity))) :
    ∃ credentialId x c p later, parseBearerToken token = some (credentialId, x) ∧
      evs = ⟨.sql (.credentialsGet credentialId), .ok (some c)⟩ ::
        ⟨.sql (.principalsGet c.principalId), .ok (some p)⟩ :: later ∧
      a.outcome x c p at' = .succeeded ∧
      identity = ⟨p.principalId, c.credentialId, p.tenantIds, p.canManagePrincipals⟩ := by
  unfold ManagementAuthenticator.authenticate at h
  split at h
  · cases (path_ret h).2
  · next credentialId x hparse =>
    obtain ⟨evs, u, rfl, hbody⟩ := Path.andFinally_ret h
    obtain ⟨c?, evs, rfl, hc⟩ := Path.perform_ret hbody
    cases c? with
    | none => cases (path_ret hc).2
    | some c =>
      obtain ⟨p?, evs, rfl, hp⟩ := Path.perform_ret hc
      cases p? with
      | none => cases (path_ret hp).2
      | some p =>
        simp only [bind_eq, pure_eq, ManagementAuthenticator.observe_outcome] at hp
        obtain ⟨evs₁, evs₂, _, rfl, _, hret⟩ := hp.bind_ret
        have hidentity := (path_ret hret).2
        refine ⟨credentialId, x, c, p, _, hparse, rfl, ?_⟩
        unfold ManagementAuthenticator.Resolution.identity at hidentity
        split at hidentity
        · next hs =>
          cases hidentity
          exact ⟨hs, rfl⟩
        · cases hidentity

/-- What a route has done before it calls the service. -/
theorem require_path {principal : AuthenticatedPrincipal} {a : ManagementAuthenticator}
    (h : Path (requireManagementPrincipal a r.credentials r.at') evs (.ret principal)) :
    ∃ token credentialId x c p later, bearerToken r.credentials = some token ∧
      parseBearerToken token = some (credentialId, x) ∧
      evs = ⟨.sql (.credentialsGet credentialId), .ok (some c)⟩ ::
        ⟨.sql (.principalsGet c.principalId), .ok (some p)⟩ :: later ∧
      a.outcome x c p r.at' = .succeeded ∧ principal.principalId = p.principalId ∧
      principal.credentialId = c.credentialId ∧ principal.authorizedTenantIds = p.tenantIds ∧
      principal.canManagePrincipals = p.canManagePrincipals := by
  unfold requireManagementPrincipal at h
  split at h
  · cases (path_raise h).2
  · next token htoken =>
    obtain ⟨evs₁, evs₂, identity?, rfl, hauthenticate, h⟩ := Path.bind_ret h
    cases identity? with
    | none => cases (path_raise h).2
    | some identity =>
      obtain ⟨credentialId, x, c, p, later, hparse, rfl, hs, rfl⟩ := authenticate_path hauthenticate
      have hnew : AuthenticatedPrincipal.new p.principalId c.credentialId .management p.tenantIds
          p.canManagePrincipals = .ok principal := by
        revert h
        show Path (lift _ (AuthenticatedPrincipal.new _ _ _ _ _)) _ _ → _
        cases hx : AuthenticatedPrincipal.new p.principalId c.credentialId .management p.tenantIds
            p.canManagePrincipals with
        | error e => exact fun h => nomatch (path_raise h).2
        | ok principal' =>
          intro h
          cases (path_ret h).2
          rfl
      obtain ⟨h1, h2, h3, h4⟩ := AuthenticatedPrincipal.new_ok hnew
      exact ⟨token, credentialId, x, c, p, later ++ evs₂, htoken, hparse, rfl, hs, h1, h2, h3, h4⟩

end Paths

/-! ## Late bootstraps -/

section Late

variable {sqlNow : Tid → Utc} {s : Service} {requests : Tid → HttpRequest} {tenants : Finset Uuid}
  {tr tr' : List RunLabel} {c c' : RunConfig} {l : RunLabel}

theorem principals_stay (h : ServeRun sqlNow s requests tenants tr c)
    (h' : Run (database sqlNow).exec c tr' c') (hsome : c.world.db.principals.rows ≠ []) :
    c'.world.db.principals.rows ≠ [] := by
  have hlater : Later c.world.db c'.world.db := by
    induction h' with
    | nil => exact .refl _
    | snoc init hs ih =>
      exact ih.trans ((serve_step (h.append init) hs).rel .refl fun hmet => hmet.disciplined.grows)
  exact (show Admits True c.world.db from fun _ => hsome).later hlater trivial

/-- A count after a principal has committed is not zero. -/
theorem count_ne_zero {n : Nat} (h : ServeRun sqlNow s requests tenants tr c)
    (hs : Step (database sqlNow).exec c l c') (hr : (requests l.tid).isBootstrap = true)
    (hl : l.event = ⟨.sql .principalsCount, .ok n⟩) (hsome : c.world.db.principals.rows ≠ []) :
    n ≠ 0 := by
  have hpath := run_path (h.snoc hs) l.tid
  have hown : own l.tid (tr ++ [l]) = own l.tid tr ++ [⟨.sql .principalsCount, .ok n⟩] := by
    rw [← hl]
    exact own_snoc_self
  have hrollback : ∀ x, ⟨.rollback, x⟩ ∈ own l.tid (tr ++ [l]) → x = .ok () :=
    fun _ => rollback_answer (h.snoc hs)
  obtain ⟨rest, hrest, honce, _⟩ := bootstrap_path (n := n) hr hpath hrollback (by simp [hown])
  -- the count is the last event, and there is no other
  have hlock : own l.tid tr = [⟨.sql .lockManagementState, .ok ()⟩] := by
    rcases List.eq_nil_or_concat rest with rfl | ⟨rest, e, rfl⟩
    · exact (List.append_inj' (hown.symm.trans hrest) rfl).1
    · have hends : own l.tid tr ++ [⟨.sql .principalsCount, .ok n⟩] =
          (⟨.sql .lockManagementState, .ok ()⟩ :: ⟨.sql .principalsCount, .ok n⟩ :: rest) ++ [e] := by
        rw [← hown, hrest, List.concat_eq_append, List.cons_append, List.cons_append]
      have hlast := List.singleton_inj.mp (List.append_inj' hends rfl).2
      exact absurd (congrArg Event.op hlast.symm) (honce e (by simp))
  have hview : c.world.view l.tid = c.world.db := by
    refine view_of_neutral h fun e he => ?_
    rw [hlock, List.mem_singleton] at he
    subst he
    refine neutral_change (fun _ => rfl) fun _ _ _ _ hact => ?_
    cases hact
    rfl
  cases hs with
  | @mk i _ _ ch _ _ _ hexec =>
    cases hl
    rcases exec_sql hexec with ⟨h, _⟩ | h
    · cases h
    · have hn : (c.world.view i).principals.rows.length = n :=
        Except.ok.inj (congrArg Prod.fst (Option.some.inj h))
      rw [← hn, show c.world.view i = c.world.db from hview]
      simpa using hsome

/-- A bootstrap that counts after a principal has committed never commits, and raises. -/
theorem late_bootstrap {n : Nat} (h : ServeRun sqlNow s requests tenants tr c)
    (hs : Step (database sqlNow).exec c l c') (hr : (requests l.tid).isBootstrap = true)
    (hl : l.event = ⟨.sql .principalsCount, .ok n⟩) (hsome : c.world.db.principals.rows ≠ [])
    {c'' : RunConfig} (h' : Run (database sqlNow).exec c' tr' c'') :
    committed l.tid ∉ tr ++ l :: tr' ∧ Refused (c''.prog l.tid) := by
  have hn := count_ne_zero h hs hr hl hsome
  have hrun : ServeRun sqlNow s requests tenants (tr ++ l :: tr') c'' := by
    rw [List.append_cons]
    exact (h.snoc hs).append h'
  obtain ⟨rest, hrest, _, hover⟩ := bootstrap_path (n := n) hr (run_path hrun l.tid)
    (fun _ => rollback_answer hrun) (mem_own.mpr (by rw [← hl]; simp))
  obtain ⟨hrollback, hrefused⟩ := hover hn
  refine ⟨fun hmem => ?_, hrefused⟩
  have hcommit : ⟨.commit, .ok ()⟩ ∈ own l.tid (tr ++ l :: tr') := mem_own.mpr hmem
  rw [hrest] at hcommit
  simp only [List.mem_cons, reduceCtorEq, Event.mk.injEq] at hcommit
  rcases hcommit with h | h | h
  · cases h.1
  · cases h.1
  · cases hrollback _ h

end Late

/-! ## Actors -/

/-- The principal that a request has authenticated: its token names a credential that was
    committed, whose principal was committed, and the attempt succeeded with the two. -/
def Authenticated (sqlNow : Tid → Utc) (s : Service) (requests : Tid → HttpRequest)
    (tenants : Finset Uuid) (tr : List RunLabel) (r : HttpRequest) (principal : AuthenticatedPrincipal) :
    Prop :=
  ∃ token credentialId secret credential p,
    bearerToken r.credentials = some token ∧ parseBearerToken token = some (credentialId, secret) ∧
    (∃ tr₁ tr₂ d, tr = tr₁ ++ tr₂ ∧ ServeRun sqlNow s requests tenants tr₁ d ∧
      d.world.db.getCredential credentialId = some credential) ∧
    (∃ tr₁ tr₂ d, tr = tr₁ ++ tr₂ ∧ ServeRun sqlNow s requests tenants tr₁ d ∧
      d.world.db.getPrincipal credential.principalId = some p) ∧
    s.authenticator.outcome secret credential p r.at' = .succeeded ∧
    principal.principalId = p.principalId ∧ principal.credentialId = credential.credentialId ∧
    principal.authorizedTenantIds = p.tenantIds ∧
    principal.canManagePrincipals = p.canManagePrincipals

/-- Thread `i` is still authenticating, or it responds with an actor that it has authenticated. -/
def RespondsAs (sqlNow : Tid → Utc) (s : Service) (requests : Tid → HttpRequest) (tenants : Finset Uuid)
    (tr : List RunLabel) (c : RunConfig) (i : Tid) (respond : ManagementActor → Program Reply) : Prop :=
  (∃ p', Path (requireManagementPrincipal s.authenticator (requests i).credentials (requests i).at')
      (own i tr) p' ∧ (∀ principal, p' ≠ .ret principal) ∧
    c.prog i = p'.bind fun principal => respond (actor principal)) ∨
  ∃ evs₁ evs₂ principal, own i tr = evs₁ ++ evs₂ ∧ Path (respond (actor principal)) evs₂ (c.prog i) ∧
    Authenticated sqlNow s requests tenants tr (requests i) principal

section Actors

variable {sqlNow : Tid → Utc} {s : Service} {requests : Tid → HttpRequest} {tenants : Finset Uuid}
  {tr : List RunLabel} {c : RunConfig} {i : Tid}

theorem authenticated_of_path (h : ServeRun sqlNow s requests tenants tr c) {evs₁ evs₂ : List StoreEvent}
    {principal : AuthenticatedPrincipal} (hown : own i tr = evs₁ ++ evs₂)
    (hpath : Path (requireManagementPrincipal s.authenticator (requests i).credentials (requests i).at')
      evs₁ (.ret principal)) :
    Authenticated sqlNow s requests tenants tr (requests i) principal := by
  obtain ⟨token, credentialId, secret, credential, p, later, htoken, hparse, rfl, hsucceeded, hprincipal⟩ :=
    require_path hpath
  refine ⟨token, credentialId, secret, credential, p, htoken, hparse, ?_, ?_, hsucceeded, hprincipal⟩
  · obtain ⟨tr₁, tr₂, d, ch, htr, hd, _, hread⟩ := answered_query (D := database sqlNow) (x := [])
      (fun _ => rfl) h hown (by simp)
    exact ⟨tr₁, _, d, htr, hd, Except.ok.inj hread⟩
  · obtain ⟨tr₁, tr₂, d, ch, htr, hd, _, hread⟩ := answered_query (D := database sqlNow)
      (x := [⟨.sql (.credentialsGet credentialId), .ok (some credential)⟩]) (fun _ => rfl) h hown
      (fun e he => by
        rw [List.mem_singleton] at he
        subst he
        exact neutral_query fun _ => rfl)
    exact ⟨tr₁, _, d, htr, hd, Except.ok.inj hread⟩

/-- A route behind `require_management_principal`. -/
theorem respondsAs (h : ServeRun sqlNow s requests tenants tr c) {respond : ManagementActor → Program Reply}
    (hserve : s.serve (requests i) =
      (requireManagementPrincipal s.authenticator (requests i).credentials (requests i).at').bind
        fun principal => respond (actor principal)) :
    RespondsAs sqlNow s requests tenants tr c i respond := by
  have hpath : Path (s.serve (requests i)) (own i tr) (c.prog i) := run_path h i
  rw [hserve] at hpath
  obtain ⟨p', hp', hq⟩ | ⟨evs₁, evs₂, principal, hown, hauth, hrest⟩ := Path.bind_cases hpath
  · by_cases hret : ∃ principal, p' = .ret principal
    · obtain ⟨principal, rfl⟩ := hret
      have hown : own i tr = own i tr ++ [] := (List.append_nil _).symm
      exact .inr ⟨_, [], principal, hown, hq ▸ .nil _, authenticated_of_path h hown hp'⟩
    · exact .inl ⟨p', hp', not_exists.mp hret, hq⟩
  · exact .inr ⟨evs₁, evs₂, principal, hown, hrest, authenticated_of_path h hown hauth⟩

end Actors

/-- From an empty store at most one bootstrap commits, and the first principal is the one it
    creates. Once a principal has committed, a bootstrap that counts never commits and
    raises. The other requests reach the service with an authenticated actor. -/
theorem one_bootstrap (sqlNow : Tid → Utc) (s : Service) (requests : Tid → HttpRequest)
    (tenants : Finset Uuid) (tr : List RunLabel) (c : RunConfig)
    (h : ServeRun sqlNow s requests tenants tr c) :
    (∀ i j, committed i ∈ tr → committed j ∈ tr → (requests i).isBootstrap → (requests j).isBootstrap →
      i = j) ∧
    (∀ l c', Step (database sqlNow).exec c l c' → c.world.db.principals.rows = [] →
      c'.world.db.principals.rows ≠ [] →
      l = committed l.tid ∧ (requests l.tid).isBootstrap ∧ ∃ p x, FirstManager c'.world.db p x) ∧
    (∀ tr₁ d l d' n tr₂ e, c.world.db.principals.rows ≠ [] → Run (database sqlNow).exec c tr₁ d →
      Step (database sqlNow).exec d l d' → (requests l.tid).isBootstrap →
      l.event = ⟨.sql .principalsCount, .ok n⟩ → Run (database sqlNow).exec d' tr₂ e →
      committed l.tid ∉ tr ++ tr₁ ++ l :: tr₂ ∧ Refused (e.prog l.tid) ∧
      ∀ l' e', Step (database sqlNow).exec e l' e' → l'.tid = l.tid → e'.world.db = e.world.db) ∧
    (∀ i payload, (requests i).route = .managed payload →
      RespondsAs sqlNow s requests tenants tr c i fun actor =>
        s.handle ⟨payload.command actor, (requests i).env⟩) ∧
    ∀ i principalId, (requests i).route = .getPrincipal principalId →
      RespondsAs sqlNow s requests tenants tr c i fun actor =>
        (Service.getPrincipal actor principalId).bind fun found => .ret (.principal found) := by
  refine ⟨(bootstraps_run h).once, fun l c' hs hnone hsome => ?_,
    fun tr₁ d l d' n tr₂ e hsome hd hs hr hl he => ?_, fun i payload hroute => ?_,
    fun i principalId hroute => ?_⟩
  · rcases (serve_step h hs).label_cases with ⟨hl, hcommit, hw⟩ | ⟨_, hsame⟩
    · have hdb : c'.world.db = c.world.view l.tid := by rw [hw, db_commit]
      rcases hcommit with ⟨_, honly⟩ | ⟨command, before, hcalls, read, change, records, hcommit⟩
      · rw [hdb, honly.principals] at hsome
        exact absurd hnone hsome
      · have hview : c.world.view l.tid = (change.apply l.tid c.world.db).appendAudits records :=
          hcommit.view
        rw [hdb, hview] at hsome ⊢
        obtain ⟨hb, p, x, hfirst⟩ := hcommit.does.first hcommit.admitted hnone (bootstraps_run h).owned hsome
        exact ⟨hl, (Calls.bootstrap_iff hcalls).mpr hb, p, x, hfirst⟩
    · rw [hsame] at hsome
      exact absurd hnone hsome
  · have hrun := h.append hd
    obtain ⟨hnever, hrefused⟩ := late_bootstrap hrun hs hr hl (principals_stay h hd hsome) he
    refine ⟨hnever, hrefused, fun l' e' hs' htid => ?_⟩
    obtain ⟨hnever', _⟩ := late_bootstrap hrun hs hr hl (principals_stay h hd hsome) (he.snoc hs')
    rcases (serve_step ((hrun.snoc hs).append he) hs').label_cases with ⟨hl', _⟩ | ⟨_, hsame⟩
    · rw [htid] at hl'
      rw [hl'] at hnever'
      exact absurd (by simp) hnever'
    · exact hsame
  · exact respondsAs h (by rw [Service.serve, hroute]; rfl)
  · exact respondsAs h (by rw [Service.serve, hroute]; rfl)

/-- Two bootstraps, of which one commits before the other counts. -/
def twoBootstraps : Tid → HttpRequest
  | 0 => ⟨some ⟨"Bearer", "token"⟩, .bootstrap "M" ∅, epoch, envAt 0 1 11⟩
  | _ => ⟨some ⟨"Bearer", "token"⟩, .bootstrap "N" ∅, epoch, envAt 1 2 12⟩

theorem one_bootstrap_of_two : ∃ tr c, ServeRun (fun _ => epoch) exampleService twoBootstraps ∅ tr c ∧
    committed 0 ∈ tr ∧ c.prog 1 = .raise .bootstrapAlreadyCompleted ∧ committed 1 ∉ tr := by
  obtain ⟨tr, c, hrun, ht⟩ := schedule_any (database fun _ => epoch).exec
    ⟨World.ofDb (Db.empty ∅), fun i => exampleService.serve (twoBootstraps i)⟩ (steps 0 6 ++ steps 1 3)
    (fun (tr, c) => tr.any (isCommit 0) && (match c.prog 1 with
      | .raise .bootstrapAlreadyCompleted => true
      | _ => false)) (by decide +kernel)
  simp only [Bool.and_eq_true, List.any_eq_true] at ht
  obtain ⟨⟨l, hl, hcommit⟩, hraised⟩ := ht
  have hmem : committed 0 ∈ tr := eq_committed hcommit ▸ hl
  obtain ⟨honce, _⟩ := one_bootstrap (fun _ => epoch) exampleService twoBootstraps ∅ tr c hrun
  refine ⟨tr, c, hrun, hmem, ?_, fun hother => absurd (honce 0 1 hmem hother rfl rfl) (by decide)⟩
  split at hraised
  · assumption
  · cases hraised

end Valor.ManagementIdentity
