/-
  What the three bearer boundaries make of an arbitrary text.

  Two of them compare bytes, or digests in hexadecimal. The bootstrap compares texts, and
  `compare_digest` refuses texts that are not ASCII. Of the other exceptions each needs a store or
  settings that name a nil UUID, an id of control characters or a credential that UTF-8 does
  not encode, or a clock at the end of the range of `datetime`; no text raises one by itself.
-/
import Valor.ManagementIdentity.LastManager
import Valor.ManagementIdentity.Routes
import Valor.RuntimeAuthentication

namespace Valor

open Python Postgres Prog Interleave ReadCommitted Security Settings ManagementIdentity
  ManagementAuthenticator

/-- The bearer credentials of a request. -/
def bearer (token : String) : Option HTTPAuthorizationCredentials := some ⟨"Bearer", token⟩

theorem bearerToken_bearer (token : String) : bearerToken (bearer token) = some token := by
  have hscheme : ManagementAudit.lower "Bearer" = "bearer" := by decide
  simp [bearerToken, bearer, Option.filter, hscheme]

/-! ## Management authentication -/

section Management

variable {sqlNow : Tid → Utc} {ch : Choice} {i : Tid} {s : Service} {db : Db} {token : String}
  {at' : Utc}

/-- The attempt is recorded, and a principal with its credential has ids that are not nil. -/
def Authenticable (s : Service) (db : Db) (token : String) (at' : Utc) : Prop :=
  ∀ r, s.authenticator.resolves db token at' = some r → Recordable at' ∧
    (r.outcome = .succeeded → r.principal.principalId.int ≠ 0 ∧ r.credential.credentialId.int ≠ 0)

/-- Accepted, or refused with the error of the boundary. -/
def Authenticated (o : Except ManagementIdentity.Error AuthenticatedPrincipal) : Prop :=
  (∃ principal, o = .ok principal) ∨ o = .error .managementAuthenticationFailed

/-- The request is authenticated, or refused with the error of the boundary. -/
def ManagementUniform (sqlNow : Tid → Utc) (ch : Choice) (i : Tid) (s : Service) (db : Db)
    (token : String) (at' : Utc) : Prop :=
  Authenticated ((requireManagementPrincipal s.authenticator (bearer token) at').runState
    ((database sqlNow).alone ch i) (World.ofDb db)).result

theorem requireManagementPrincipal_bearer (a : ManagementAuthenticator) :
    requireManagementPrincipal a (bearer token) at' =
      (a.authenticate token at').bind fun
        | none => .raise .managementAuthenticationFailed
        | some identity =>
            orValueError (AuthenticatedPrincipal.new identity.principalId identity.credentialId
              .management identity.authorizedTenantIds identity.canManagePrincipals) := by
  rw [requireManagementPrincipal, bearerToken_bearer]
  exact congrArg (Prog.bind _) (funext fun identity => by cases identity <;> rfl)

theorem managementUniform_of_ends {db' : Db}
    {o : Except ManagementIdentity.Error AuthenticatedPrincipal}
    (h : Ends (database sqlNow) ch i (requireManagementPrincipal s.authenticator (bearer token) at')
      (World.ofDb db) o db') : ManagementUniform sqlNow ch i s db token at' ↔ Authenticated o := by
  rw [ManagementUniform, h.1]

/-- What the constructor of the principal makes of an identity. -/
theorem authenticated_lift {principalId credentialId : Uuid} {tenantIds : Finset Uuid}
    {canManage : Bool} :
    Authenticated ((AuthenticatedPrincipal.new principalId credentialId .management tenantIds
      canManage).mapError fun e => ManagementIdentity.Error.valueError e.message) ↔
      principalId.int ≠ 0 ∧ credentialId.int ≠ 0 := by
  unfold AuthenticatedPrincipal.new
  split
  · next h =>
    refine iff_of_false ?_ (not_and_or.mpr (h.imp not_not.mpr not_not.mpr))
    rintro (⟨principal, hok⟩ | herror)
    · cases hok
    · cases herror
  · next h => exact iff_of_true (.inl ⟨_, rfl⟩) (not_or.mp h)

theorem ends_lift_last {α ε : Type} {g : ε → ManagementIdentity.Error} (x : Except ε α)
    (w : World Db Lock) :
    Ends (database sqlNow) ch i (lift g x : Program α) w (x.mapError g) w.db := by
  cases x
  · exact ⟨rfl, rfl⟩
  · exact ⟨rfl, rfl⟩

theorem managementUniform_iff (hch : ch.fails = false) :
    ManagementUniform sqlNow ch i s db token at' ↔ Authenticable s db token at' := by
  have hbind : requireManagementPrincipal s.authenticator (bearer token) at' = _ :=
    requireManagementPrincipal_bearer s.authenticator
  cases h : s.authenticator.resolves db token at' with
  | none =>
    have hnone : Authenticable s db token at' := fun r hr => nomatch h.symm.trans hr
    have hends : Ends (database sqlNow) ch i
        (requireManagementPrincipal s.authenticator (bearer token) at') (World.ofDb db)
        (.error .managementAuthenticationFailed) db := by
      rw [hbind]
      exact ends_bind (authenticate_unresolved hch h) fun w hw => ⟨rfl, hw⟩
    exact iff_of_true ((managementUniform_of_ends hends).mpr (.inr rfl)) hnone
  | some r =>
    have hone : Authenticable s db token at' ↔ Recordable at' ∧ (r.outcome = .succeeded →
        r.principal.principalId.int ≠ 0 ∧ r.credential.credentialId.int ≠ 0) := by
      simp [Authenticable, h]
    rw [hone]
    by_cases hrec : Recordable at'
    · obtain ⟨u, before, hu, hbefore, -⟩ := recordable_bucket hrec
      have hobserved : Yields (database sqlNow) ch i (s.authenticator.authenticate token at')
          (World.ofDb db) r.identity _ := authenticate_observed hch h hu hbefore
      generalize (db.deleteEvidence before).insertEvidence (r.row u) = db' at hobserved
      by_cases hsucceeded : r.outcome = .succeeded
      · have hidentity : r.identity = some ⟨r.principal.principalId, r.credential.credentialId,
            r.principal.tenantIds, r.principal.canManagePrincipals⟩ := if_pos hsucceeded
        rw [hidentity] at hobserved
        have hends : Ends (database sqlNow) ch i
            (requireManagementPrincipal s.authenticator (bearer token) at') (World.ofDb db)
            ((AuthenticatedPrincipal.new r.principal.principalId r.credential.credentialId
              .management r.principal.tenantIds r.principal.canManagePrincipals).mapError
                fun e => .valueError e.message) db' := by
          rw [hbind]
          exact ends_bind hobserved fun w hw => hw ▸ ends_lift_last _ w
        rw [managementUniform_of_ends hends, authenticated_lift]
        simp [hrec, hsucceeded]
      · have hidentity : r.identity = none := if_neg hsucceeded
        rw [hidentity] at hobserved
        have hends : Ends (database sqlNow) ch i
            (requireManagementPrincipal s.authenticator (bearer token) at') (World.ofDb db)
            (.error .managementAuthenticationFailed) db' := by
          rw [hbind]
          exact ends_bind hobserved fun w hw => ⟨rfl, hw⟩
        exact iff_of_true ((managementUniform_of_ends hends).mpr (.inr rfl))
          ⟨hrec, fun h => absurd h hsucceeded⟩
    · have hends : Ends (database sqlNow) ch i
          (requireManagementPrincipal s.authenticator (bearer token) at') (World.ofDb db)
          (.error .overflowError) db := by
        rw [hbind]
        exact ends_bind_error (authenticate_overflow hch h hrec)
      rw [managementUniform_of_ends hends]
      refine iff_of_false ?_ fun hboth => hrec hboth.1
      rintro (⟨principal, hok⟩ | herror)
      · cases hok
      · cases herror

end Management

/-! ## The bootstrap -/

section Bootstrap

variable {sqlNow : Tid → Utc} {ch : Choice} {i : Tid} {s : Service} {db : Db} {token displayName : String}
  {tenantIds : Finset Uuid} {at' : Utc} {env : Env}

/-- The foreign keys of the two tables that refer to principals. -/
structure References (db : Db) : Prop where
  scopes : ∀ r ∈ db.scopes, db.principals.find? r.principalId ≠ none
  credentials : ∀ c ∈ db.credentials, db.principals.find? c.principalId ≠ none

/-- A body that passes the checks of the domain, with tenants of the store. -/
structure ValidBody (db : Db) (displayName : String) (tenantIds : Finset Uuid) : Prop where
  name : ∃ name, normalizeDisplayName displayName = .ok name ∧ hasNul name = false
  tenants : tenantIds ⊆ db.tenants

def bootstrapRequest (token displayName : String) (tenantIds : Finset Uuid) (at' : Utc) (env : Env) :
    HttpRequest :=
  ⟨bearer token, .bootstrap displayName tenantIds, at', env⟩

theorem serve_bootstrap : s.serve (bootstrapRequest token displayName tenantIds at' env) =
    (s.bootstrap env ⟨token, displayName, tenantIds⟩).bind fun (p, x) => .ret (.bootstrapped p x) := by
  simp only [Service.serve, bootstrapRequest, bearerToken_bearer]
  rfl

/-- `compare_digest` takes both texts: they are ASCII. -/
def Comparable (a b : String) : Prop := (a ++ b).toList.all (·.toNat < 128)

instance (a b : String) : Decidable (Comparable a b) := inferInstanceAs (Decidable (_ = true))

theorem compareDigest_comparable {a b : String} (h : Comparable a b) :
    compareDigest a b = .ret (a = b) := if_pos h

theorem compareDigest_raises {a b : String} (h : ¬Comparable a b) :
    compareDigest a b = .raise .typeError := if_neg h

/-- The rest of the bootstrap, in its Unit of Work. -/
def bootstrapBody (s : Service) (env : Env) (displayName : String) (tenantIds : Finset Uuid) :
    ManagementIdentity.Program (ManagementPrincipal × IssuedCredential) := do
  sql Sql.lockManagementState
  let count : Nat ← sql Sql.principalsCount
  raiseWhen (count ≠ 0) .bootstrapAlreadyCompleted
  Service.requireTenants tenantIds
  let principal ← Service.newPrincipal env displayName true tenantIds
  let issued ← s.newCredential env principal.principalId (some "bootstrap") none
  sql (Sql.principalsAdd principal)
  sql (Sql.credentialsAdd issued.credential)
  commit
  return (principal, issued)

theorem bootstrap_accepted (h : Comparable token s.bootstrapToken) (heq : token = s.bootstrapToken) :
    s.bootstrap env ⟨token, displayName, tenantIds⟩ =
      unitOfWork (bootstrapBody s env displayName tenantIds) := by
  subst heq
  simp only [Service.bootstrap, compareDigest_comparable h]
  rfl

theorem bootstrap_refused (h : Comparable token s.bootstrapToken) (hne : token ≠ s.bootstrapToken) :
    s.bootstrap env ⟨token, displayName, tenantIds⟩ = .raise .bootstrapAuthenticationFailed := by
  simp only [Service.bootstrap, compareDigest_comparable h, hne]
  rfl

theorem bootstrap_raises (h : ¬Comparable token s.bootstrapToken) :
    s.bootstrap env ⟨token, displayName, tenantIds⟩ = .raise .typeError := by
  simp only [Service.bootstrap, compareDigest_raises h]
  rfl

/-- The credential of a bootstrap passes its checks, and so does its row. -/
theorem newCredential_bootstrap (s : Service) (env : Env) (principalId : Uuid) :
    ∃ credential row, Credential.new env.credentialId principalId
        (s.hmacSha256 s.pepper env.secret) (some "bootstrap") (.aware env.now) none none =
          .ok credential ∧
      credential.credentialId = env.credentialId ∧ credential.principalId = principalId ∧
      CredentialRow.ofCredential credential = .ok row := by
  have hcanonical : canonicalLabel (some "bootstrap") = some "bootstrap" := by decide +kernel
  obtain ⟨c, hnew, hcreated, hlabel, hexpires, hrevoked⟩ := Credential.new_unending
    env.now (by rw [hcanonical]; decide)
      (s.hmacSha256 s.pepper env.secret).property
  obtain ⟨hid, hprincipal, -, -⟩ := Credential.new_ok hnew
  have htext : c.label.mapM text = .ok (some "bootstrap") := by
    rw [hlabel, hcanonical]
    rfl
  obtain ⟨row, hrow⟩ := ofCredential_exists (by rw [hcreated, timestamptz_toAware])
    (by rw [hexpires]; rfl) (by rw [hrevoked]; rfl) htext
  exact ⟨c, row, hnew, hid, hprincipal, hrow⟩

/-- The principal of a valid body passes its checks, and so does its row. -/
theorem newPrincipal_bootstrap (env : Env) (hbody : ValidBody db displayName tenantIds) :
    ∃ principal row, ManagementPrincipal.new env.principalId displayName true tenantIds
        (.aware env.now) none = .ok principal ∧
      principal.principalId = env.principalId ∧ principal.tenantIds = tenantIds ∧
      ManagementPrincipalRow.ofPrincipal principal = .ok row := by
  obtain ⟨name, hname, hnul⟩ := hbody.name
  have hnew : ∃ principal, ManagementPrincipal.new env.principalId displayName true tenantIds
      (.aware env.now) none = .ok principal ∧ principal.principalId = env.principalId ∧
        principal.tenantIds = tenantIds ∧ principal.displayName = name ∧
        principal.createdAt = env.now ∧ principal.disabledAt = none := by
    unfold ManagementPrincipal.new
    split
    · next e he => cases hname.symm.trans he
    · next n hn =>
      cases hname.symm.trans hn
      exact ⟨_, rfl, rfl, rfl, rfl, rfl, rfl⟩
  obtain ⟨principal, hnew, hid, htenants, hdisplay, hcreated, hdisabled⟩ := hnew
  refine ⟨principal, ⟨principal.principalId, principal.displayName, principal.canManagePrincipals,
    env.now, none, principal.normalized⟩, hnew, hid, htenants, ?_⟩
  have htext : text principal.displayName = .ok name := by
    rw [hdisplay, text, hnul]
    rfl
  simp [ManagementPrincipalRow.ofPrincipal, hcreated, hdisabled, htext, Bind.bind, Except.bind,
    pure, Except.pure]

/-- `_require_tenants` finds the tenants of a valid body. -/
theorem requireTenants_ends {α : Type} {ws : List (Db → Db)} {w : World Db Lock}
    {k : Unit → ManagementIdentity.Program α} {o : Except ManagementIdentity.Error α} {db' : Db}
    (hch : ch.fails = false) (hw : Sole i db ws w)
    (htenants : tenantIds ⊆ (ws.foldl (fun d f => f d) db).tenants)
    (hk : Ends (database sqlNow) ch i (k ()) w o db') :
    Ends (database sqlNow) ch i ((Service.requireTenants tenantIds).bind k) w o db' := by
  unfold Service.requireTenants
  by_cases hnonempty : tenantIds.Nonempty
  · rw [if_pos hnonempty]
    simp only [bind_eq, Prog.bind_assoc]
    have hfilter : (ws.foldl (fun d f => f d) db).tenants.filter (· ∈ tenantIds) = tenantIds := by
      rw [Finset.filter_mem_eq_inter, Finset.inter_eq_right]
      exact htenants
    refine ends_query (r := true) hch rfl hw (by simp [hfilter]) ?_
    exact ends_raiseWhen (by simp) hk
  · rw [if_neg hnonempty]
    exact hk

/-- A bootstrap with the right token is the first one, or finds that it is not. -/
theorem bootstrapBody_ends (sqlNow : Tid → Utc) (i : Tid) (s : Service) (env : Env)
    (hch : ch.fails = false) (hrefs : References db) (hbody : ValidBody db displayName tenantIds) :
    ∃ o db', Ends (database sqlNow) ch i (bootstrapBody s env displayName tenantIds) (World.ofDb db)
      o db' ∧ ((∃ x, o = .ok x) ∨ o = .error .bootstrapAlreadyCompleted) := by
  by_cases hcount : db.principals.rows.length = 0
  · obtain ⟨principal, row, hnew, hid, htenants, hrow⟩ := newPrincipal_bootstrap env hbody
    obtain ⟨credential, crow, hcnew, hcid, hcprincipal, hcrow⟩ :=
      newCredential_bootstrap s env principal.principalId
    have hnone : ∀ k, db.principals.find? k = none := by
      intro k
      rw [Table.find?, List.length_eq_zero_iff.mp hcount]
      rfl
    have hscopes : ∀ k, db.scopes.find? k = none := by
      intro k
      rw [Table.find?_eq_none]
      intro r hr
      exact absurd (hnone r.principalId) (hrefs.scopes r hr)
    have hcredentials : ∀ k, db.credentials.find? k = none := by
      intro k
      rw [Table.find?_eq_none]
      intro c hc
      exact absurd (hnone c.principalId) (hrefs.credentials c hc)
    have hends : Ends (database sqlNow) ch i (bootstrapBody s env displayName tenantIds)
        (World.ofDb db)
        (.ok (principal, ⟨credential, "valor_mgmt_" ++ env.credentialId.str ++ "_" ++ env.secret⟩))
        (((db.insertPrincipal row).insertScopes principal.principalId
          (principal.tenantIds.sort (· ≤ ·)) i).insertCredential crow) := by
      unfold bootstrapBody
      refine ends_change (g := id) (r := ()) hch rfl (sole_ofDb db) (fun _ => rfl) fun w hw => ?_
      refine ends_query hch rfl hw rfl ?_
      refine ends_raiseWhen (by simpa using hcount) ?_
      refine requireTenants_ends hch hw hbody.tenants ?_
      refine ends_lift hnew ?_
      simp only [Service.newCredential, bind_eq, Prog.bind_assoc]
      refine ends_lift hcnew ?_
      refine ends_change (r := ()) hch rfl hw (fun _ => Except.bind_eq_ok
        (congrArg (column ManagementIdentity.Error.database) hrow)
        (Except.bind_eq_ok (constraint_of (hnone _))
          (Except.bind_eq_ok (constraint_of ⟨?_, fun t _ => hscopes _⟩) rfl))) fun w hw => ?_
      · rw [htenants]
        exact hbody.tenants
      refine ends_change (r := ()) hch rfl hw (fun _ => Except.bind_eq_ok
        (congrArg (column ManagementIdentity.Error.database) hcrow)
        (Except.bind_eq_ok (constraint_of (hcredentials _))
          (Except.bind_eq_ok (constraint_of ?_) rfl))) fun w hw => ?_
      · rw [hcprincipal, ← principalId_ofPrincipal hrow]
        show ((db.insertPrincipal row).principals.find? row.principalId) ≠ none
        rw [Db.insertPrincipal, Table.find?_insert, hnone]
        simp [Keyed.key]
      exact ends_commit hch hw fun w hw => yields_ret hw
    exact ⟨_, _, hends, .inl ⟨_, rfl⟩⟩
  · refine ⟨.error .bootstrapAlreadyCompleted, db, ?_, .inr rfl⟩
    unfold bootstrapBody
    refine ends_change (g := id) (r := ()) hch rfl (sole_ofDb db) (fun _ => rfl) fun w hw => ?_
    refine ends_query hch rfl hw rfl ?_
    exact ends_raiseWhen_raised (by simpa using hcount) hw

/-- The request bootstraps, or is refused with one of the two errors of the boundary. -/
def BootstrapUniform (sqlNow : Tid → Utc) (ch : Choice) (i : Tid) (s : Service) (db : Db)
    (request : HttpRequest) : Prop :=
  let result := ((s.serve request).runState ((database sqlNow).alone ch i) (World.ofDb db)).result
  (∃ reply, result = .ok reply) ∨ result = .error .bootstrapAuthenticationFailed ∨
    result = .error .bootstrapAlreadyCompleted

theorem bootstrapUniform_iff (hch : ch.fails = false) (hrefs : References db)
    (hbody : ValidBody db displayName tenantIds) :
    BootstrapUniform sqlNow ch i s db (bootstrapRequest token displayName tenantIds at' env) ↔
      Comparable token s.bootstrapToken := by
  unfold BootstrapUniform
  rw [serve_bootstrap]
  by_cases h : Comparable token s.bootstrapToken
  · refine iff_of_true ?_ h
    by_cases heq : token = s.bootstrapToken
    · rw [bootstrap_accepted h heq]
      obtain ⟨o, db', hends, ⟨x, rfl⟩ | rfl⟩ :=
        bootstrapBody_ends sqlNow i s env hch hrefs hbody
      · have hserved := yields_map (f := fun x => Reply.bootstrapped x.1 x.2) (ends_unitOfWork hends)
        exact .inl ⟨_, hserved.1⟩
      · have hserved := ends_bind_error (k := fun x => .ret (Reply.bootstrapped x.1 x.2))
          (ends_unitOfWork hends)
        exact .inr (.inr hserved.1)
    · rw [bootstrap_refused h heq]
      exact .inr (.inl rfl)
  · refine iff_of_false ?_ h
    rw [bootstrap_raises h]
    rintro (⟨reply, hok⟩ | herror | herror)
    · cases hok
    · cases herror
    · cases herror

end Bootstrap

/-! ## The three boundaries -/

/-- The request is authenticated as a runtime principal, or refused with the error of the
    boundary. -/
def RuntimeUniform (settings : RuntimeAuthenticationSettings) (token : String) : Prop :=
  (∃ principal, requireRuntimePrincipal settings (bearer token) = .ok principal) ∨
    requireRuntimePrincipal settings (bearer token) = .error .runtimeAuthenticationFailed

/-- The boundaries are uniform on exactly these texts: the bootstrap on texts that compare
    with its own, the two others unless the text is good for a nil UUID or a blank id or the
    settings have a credential that UTF-8 does not encode. -/
theorem bearer_uniform_iff (sqlNow : Tid → Utc) (ch : Choice) (i : Tid) (s : Service)
    (settings : RuntimeAuthenticationSettings) (db : Db) (token displayName : String)
    (tenantIds : Finset Uuid) (at' : Utc) (env : Env) (hch : ch.fails = false)
    (hrefs : References db) (hbody : ValidBody db displayName tenantIds) :
    ManagementUniform sqlNow ch i s db token at' ∧
        BootstrapUniform sqlNow ch i s db (bootstrapRequest token displayName tenantIds at' env) ∧
        RuntimeUniform settings token ↔
      Authenticable s db token at' ∧ Comparable token s.bootstrapToken ∧
        (∀ p ∈ settings.principals, p.credential.hasSurrogate = false) ∧
        ∀ p ∈ settings.principals, p.credential = (token : Str) → strip p.principalId ≠ "" := by
  rw [managementUniform_iff hch, bootstrapUniform_iff hch hrefs hbody]
  exact and_congr_right' (and_congr_right'
    (requireRuntimePrincipal_cases settings (bearerToken_bearer token)))

/-! ## An example -/

/-- A service whose bootstrap token has the 32 characters that the settings ask for. -/
def deployedService : Service where
  pepper := "management-credential-pepper-0123"
  bootstrapToken := "management-bootstrap-token-01234"
  hmacSha256 := exampleService.hmacSha256
  sha256 := exampleService.sha256

def deployedSettings : RuntimeAuthenticationSettings where
  principals := []
  principalIds_unique := List.nodup_nil
  credentials_unique := List.nodup_nil
  bindings_unique := List.nodup_nil

def quiet : Choice := ⟨false, tableOrder⟩

theorem references_empty (tenants : Finset Uuid) : References (Db.empty tenants) where
  scopes := fun _ hr => absurd hr (Table.not_mem_empty _)
  credentials := fun _ hc => absurd hc (Table.not_mem_empty _)

theorem validBody_admin : ValidBody (Db.empty ∅) "Admin" ∅ where
  name := ⟨"Admin", by decide +kernel, by decide +kernel⟩
  tenants := by simp

/-- A wrong token of ASCII characters is refused by all three. -/
theorem bearer_uniform_wrong :
    ManagementUniform (fun _ => epoch) quiet 0 deployedService (Db.empty ∅) "wrong" epoch ∧
      BootstrapUniform (fun _ => epoch) quiet 0 deployedService (Db.empty ∅)
        (bootstrapRequest "wrong" "Admin" ∅ epoch exampleEnv) ∧
      RuntimeUniform deployedSettings "wrong" := by
  refine (bearer_uniform_iff (fun _ => epoch) quiet 0 deployedService deployedSettings (Db.empty ∅)
    "wrong" "Admin" ∅ epoch exampleEnv rfl (references_empty ∅) validBody_admin).mpr
    ⟨?_, by decide +kernel, fun _ hp => absurd hp List.not_mem_nil,
      fun _ hp => absurd hp List.not_mem_nil⟩
  intro r hr
  have hparse : parseBearerToken "wrong" = none := by decide +kernel
  simp [resolves, hparse] at hr

/-- One character beyond ASCII: the bootstrap raises TypeError. -/
theorem bootstrap_typeError :
    ((deployedService.serve (bootstrapRequest "é" "Admin" ∅ epoch exampleEnv)).runState
      ((database fun _ => epoch).alone quiet 0) (World.ofDb (Db.empty ∅))).result =
        .error .typeError := by
  have hnot : ¬Comparable "é" deployedService.bootstrapToken := by decide +kernel
  rw [serve_bootstrap, bootstrap_raises hnot]
  rfl

end Valor
