/-
  Runtime identity: what a command commits.

  `Does` is a command as one atomic step: what it answers, how it changes the rows and
  which audit records it appends, given what it read (`Answers`). Run among others, a
  command commits just that (`handle_commits`), but part of what it read can be from
  before (`Observed`): only rows that it has locked are those of its commit. Rows are
  never taken away, and `Later` says what else no commit takes back.
-/
import Valor.Lib.Transaction
import Valor.RuntimeIdentity.Service

namespace Valor.RuntimeIdentity

open Python Postgres ManagementAudit Prog Interleave ReadCommitted

/-! ## Growth -/

/-- What no change takes back in the row of a principal. -/
structure LaterPrincipal (r r' : RuntimePrincipalRow) : Prop where
  tenantId : r'.tenantId = r.tenantId
  disabledAt : r.disabledAt.isSome → r'.disabledAt.isSome
  dailyUsageLimitUnits : r.dailyUsageLimitUnits.isSome → r'.dailyUsageLimitUnits.isSome
  continuity : r.legacyRuntimePrincipalId.isSome →
    r'.legacyRuntimePrincipalId = r.legacyRuntimePrincipalId ∧
      r'.identityContinuityBoundAt = r.identityContinuityBoundAt

theorem LaterPrincipal.refl (r : RuntimePrincipalRow) : LaterPrincipal r r :=
  ⟨rfl, id, id, fun _ => ⟨rfl, rfl⟩⟩

theorem LaterPrincipal.trans {a b c : RuntimePrincipalRow} (h : LaterPrincipal a b)
    (h' : LaterPrincipal b c) : LaterPrincipal a c := by
  refine ⟨h'.tenantId.trans h.tenantId, h'.disabledAt ∘ h.disabledAt,
    h'.dailyUsageLimitUnits ∘ h.dailyUsageLimitUnits, fun hsome => ?_⟩
  obtain ⟨hl, hb⟩ := h.continuity hsome
  obtain ⟨hl', hb'⟩ := h'.continuity (by rwa [hl])
  exact ⟨hl'.trans hl, hb'.trans hb⟩

/-- From an earlier committed database to a later one. -/
structure Later (db db' : Db) : Prop where
  principals : ∀ k r, db.principals.find? k = some r →
    ∃ r', db'.principals.find? k = some r' ∧ LaterPrincipal r r'
  credentials : ∀ k c, db.credentials.find? k = some c →
    ∃ c', db'.credentials.find? k = some c' ∧ LaterCredential c c'
  agents : db.agents ⊆ db'.agents
  invocations : db'.invocations = db.invocations

theorem Later.refl (db : Db) : Later db db :=
  ⟨fun _ r h => ⟨r, h, .refl r⟩, fun _ c h => ⟨c, h, .refl c⟩, subset_rfl, rfl⟩

theorem Later.trans {a b c : Db} (h : Later a b) (h' : Later b c) : Later a c := by
  refine ⟨?_, ?_, h.agents.trans h'.agents, h'.invocations.trans h.invocations⟩
  · intro k r hr
    obtain ⟨r₁, hr₁, h₁⟩ := h.principals k r hr
    obtain ⟨r₂, hr₂, h₂⟩ := h'.principals k r₁ hr₁
    exact ⟨r₂, hr₂, h₁.trans h₂⟩
  · intro k x hx
    obtain ⟨x₁, hx₁, h₁⟩ := h.credentials k x hx
    obtain ⟨x₂, hx₂, h₂⟩ := h'.credentials k x₁ hx₁
    exact ⟨x₂, hx₂, h₁.trans h₂⟩

def discipline : Discipline Db Lock where
  same := same
  still _ _ _ := True
  grows := Later

theorem lawful : Lawful discipline :=
  ⟨same_refl, same_trans, fun _ _ => trivial, fun _ _ _ _ _ _ => trivial, .refl,
    fun _ _ _ => .trans⟩

/-! ## Commands as atomic steps -/

/-- How a command changes the rows. -/
inductive Change where
  | created (principal : RuntimePrincipalRow) (credential : RuntimeCredentialRow)
  | continuity (values : RuntimePrincipalRow)
  | limits (values : RuntimePrincipalRow)
  | issued (credential : RuntimeCredentialRow)
  | revoked (credentialId : Uuid) (revokedAt : Option Utc)
  | disabled (principalId : Uuid) (disabledAt : Option Utc)

def Change.apply : Change → Db → Db
  | created principal credential, db => (db.insertPrincipal principal).insertCredential credential
  | continuity values, db => db.bindIdentityContinuity values
  | limits values, db => db.initializeUsageLimits values
  | issued credential, db => db.insertCredential credential
  | revoked credentialId revokedAt, db => db.revokeCredential credentialId revokedAt
  | disabled principalId disabledAt, db => db.disablePrincipal principalId disabledAt

def Db.appendAudits (db : Db) (records : List Record) : Db :=
  { db with audits := db.audits ++ records }

/-- What a command reads without a lock; `principal` also where it has one. -/
structure Answers where
  principal : Option RuntimePrincipal
  credential : Option RuntimeCredential
  usable : Bool

/-- What the database answers the request. -/
def Request.answers (r : Request) (db : Db) : Answers :=
  match r.command with
  | .createPrincipal _ => ⟨none, none, false⟩
  | .bindIdentityContinuity c =>
      ⟨db.getPrincipal c.principalId, none, db.hasPotentiallyUsable c.principalId r.env.now⟩
  | .initializeUsageLimits c => ⟨db.getPrincipal c.principalId, none, false⟩
  | .issueCredential c => ⟨db.getPrincipal c.principalId, none, false⟩
  | .revokeCredential c => ⟨db.getPrincipal c.principalId, db.getCredential c.credentialId, false⟩
  | .disablePrincipal c => ⟨db.getPrincipal c.principalId, none, false⟩

/-- The command, having read `a`, succeeds on `db` with this reply, change and records. -/
inductive Does (s : Service) (env : Env) (a : Answers) (db : Db) :
    Command → Reply → Change → List Record → Prop
  | created {c principal credential row crow record record'}
      (actor : c.actor.canManagePrincipals = true)
      (expiry : Service.validateExpiry env.now c.expiresAt = .ret ())
      (binding : (c.tenantId, c.agentId) ∈ db.agents)
      (principal_ok : RuntimePrincipal.create env.principalId c.tenantId c.agentId (.aware env.now)
        c.dailyUsageLimitUnits c.perInvocationAllowanceUnits = .ok principal)
      (credential_ok : Credential.new env.credentialId principal.principalId
        (s.hmacSha256 s.pepper env.secret) c.label (.aware env.now) c.expiresAt none = .ok credential)
      (row_ok : RuntimePrincipalRow.ofPrincipal principal = .ok row)
      (crow_ok : CredentialRow.ofCredential credential = .ok crow)
      (record_ok : s.principalRecord env c.actor.principalId principal none
        .runtimePrincipalCreated = .ok record)
      (record'_ok : s.credentialRecord env env.auditId₂ c.actor.principalId principal.tenantId
        credential none .runtimeCredentialIssued = .ok record')
      (free : db.principals.find? principal.principalId = none)
      (credential_free : db.credentials.find? credential.credentialId = none) :
      Does s env a db (.createPrincipal c)
        (.created principal
          ⟨credential, "valor_runtime_" ++ env.credentialId.str ++ "_" ++ env.secret⟩)
        (.created row crow) [record, record']
  | bound {c principal dayEnd bound row record}
      (actor : c.actor.canManagePrincipals = true)
      (found : a.principal = some principal)
      (active : principal.isActive = true)
      (unready : principal.identityContinuityReady = false)
      (legacy_text : text c.legacyRuntimePrincipalId = .ok c.legacyRuntimePrincipalId)
      (dayEnd_ok : env.now.midnight.addDay = .ok dayEnd)
      (safe : (Service.preflightOf env principal c.legacyRuntimePrincipalId
        (db.inspectInvocations c.legacyRuntimePrincipalId principal.principalId.str principal.tenantId
          principal.agentId env.now.midnight dayEnd) false a.usable).safeToBind = true)
      (bound_ok : principal.bindIdentityContinuity c.legacyRuntimePrincipalId env.now = .ok bound)
      (row_ok : RuntimePrincipalRow.ofPrincipal bound = .ok row)
      (record_ok : s.principalRecord env c.actor.principalId bound (some principal)
        .runtimePrincipalIdentityContinuityBound = .ok record)
      (matched : db.matches bound.principalId (·.unbound) = true)
      (unclaimed : db.claimed (strip c.legacyRuntimePrincipalId) = false) :
      Does s env a db (.bindIdentityContinuity c) (.principal bound) (.continuity row) [record]
  | initialized {c principal configured row record}
      (actor : c.actor.canManagePrincipals = true)
      (found : a.principal = some principal)
      (active : principal.isActive = true)
      (unconfigured : principal.usageLimitsConfigured = false)
      (configured_ok : principal.initializeUsageLimits c.dailyUsageLimitUnits
        c.perInvocationAllowanceUnits = .ok configured)
      (row_ok : RuntimePrincipalRow.ofPrincipal configured = .ok row)
      (record_ok : s.principalRecord env c.actor.principalId configured (some principal)
        .runtimePrincipalUsageLimitsInitialized = .ok record)
      (matched : db.matches configured.principalId (·.unlimited) = true) :
      Does s env a db (.initializeUsageLimits c) (.principal configured) (.limits row) [record]
  | issued {c principal credential crow record}
      (actor : c.actor.canManagePrincipals = true)
      (expiry : Service.validateExpiry env.now c.expiresAt = .ret ())
      (found : a.principal = some principal)
      (active : principal.isActive = true)
      (credential_ok : Credential.new env.credentialId principal.principalId
        (s.hmacSha256 s.pepper env.secret) c.label (.aware env.now) c.expiresAt none = .ok credential)
      (row_ok : CredentialRow.ofCredential credential = .ok crow)
      (record_ok : s.credentialRecord env env.auditId c.actor.principalId principal.tenantId credential
        none .runtimeCredentialIssued = .ok record)
      (free : db.credentials.find? credential.credentialId = none)
      (owner : db.principals.find? credential.principalId ≠ none) :
      Does s env a db (.issueCredential c)
        (.issued ⟨credential, "valor_runtime_" ++ env.credentialId.str ++ "_" ++ env.secret⟩)
        (.issued crow) [record]
  | revoked {c principal credential revoked revokedAt record}
      (actor : c.actor.canManagePrincipals = true)
      (found : a.principal = some principal)
      (credential_found : a.credential = some credential)
      (owns : credential.principalId = principal.principalId)
      (unrevoked : credential.revokedAt = none)
      (revoked_ok : credential.revoke env.now = .ok revoked)
      (column_ok : revoked.revokedAt.mapM timestamptz = .ok revokedAt)
      (record_ok : s.credentialRecord env env.auditId c.actor.principalId principal.tenantId revoked
        (some credential) .runtimeCredentialRevoked = .ok record) :
      Does s env a db (.revokeCredential c) (.credential revoked)
        (.revoked revoked.credentialId revokedAt) [record]
  | disabled {c principal disabled disabledAt record}
      (actor : c.actor.canManagePrincipals = true)
      (found : a.principal = some principal)
      (active : principal.isActive = true)
      (disabled_ok : principal.disable env.now = .ok disabled)
      (column_ok : disabled.disabledAt.mapM timestamptz = .ok disabledAt)
      (record_ok : s.principalRecord env c.actor.principalId disabled (some principal)
        .runtimePrincipalDisabled = .ok record) :
      Does s env a db (.disablePrincipal c) (.principal disabled)
        (.disabled disabled.principalId disabledAt) [record]

/-! ## Values and their rows -/

section Values

variable {p q : RuntimePrincipal} {row : RuntimePrincipalRow} {db : Db} {k : Uuid} {at' : Aware}

theorem getPrincipal_some (h : db.getPrincipal k = some p) :
    ∃ row, db.principals.find? k = some row ∧ row.principalId = k ∧ p = principalFromRow row := by
  obtain ⟨row, hrow, rfl⟩ := Option.map_eq_some_iff.mp h
  exact ⟨row, hrow, (Table.find?_some hrow).2, rfl⟩

theorem getCredential_some {c : RuntimeCredential} (h : db.getCredential k = some c) :
    ∃ row, db.credentials.find? k = some row ∧ row.credentialId = k ∧ c = credentialFromRow row := by
  obtain ⟨row, hrow, rfl⟩ := Option.map_eq_some_iff.mp h
  exact ⟨row, hrow, (Table.find?_some hrow).2, rfl⟩

theorem isActive_principalFromRow :
    (principalFromRow row).isActive = row.disabledAt.isNone := by
  simp [RuntimePrincipal.isActive, principalFromRow]

theorem create_ok {principalId tenantId agentId : Uuid} {createdAt : Datetime}
    {daily allowance : Int}
    (h : RuntimePrincipal.create principalId tenantId agentId createdAt daily allowance = .ok p) :
    p.principalId = principalId ∧ p.legacyRuntimePrincipalId = none := by
  unfold RuntimePrincipal.create RuntimePrincipal.new at h
  obtain ⟨_, _, h⟩ := Except.bind_ok_cases h
  obtain ⟨_, _, h⟩ := Except.bind_ok_cases h
  split at h
  · cases h
  · split at h
    · cases h
    · split at h
      · cases h
      · split at h
        · cases h
        · split at h
          · cases h
          · cases h
            exact ⟨rfl, rfl⟩

theorem bindIdentityContinuity_ok {legacyId : String}
    (h : p.bindIdentityContinuity legacyId at' = .ok q) :
    q.principalId = p.principalId ∧ q.legacyRuntimePrincipalId = some (strip legacyId) := by
  unfold RuntimePrincipal.bindIdentityContinuity at h
  split at h
  · cases h
  · split at h
    · cases h
    · split at h
      · cases h
      · cases h
        exact ⟨rfl, rfl⟩

theorem initializeUsageLimits_ok {daily allowance : Int}
    (h : p.initializeUsageLimits daily allowance = .ok q) :
    q.principalId = p.principalId ∧ q.dailyUsageLimitUnits = some daily := by
  unfold RuntimePrincipal.initializeUsageLimits at h
  split at h
  · cases h
  · split at h
    · cases h
    · split at h
      · cases h
      · cases h
        exact ⟨rfl, rfl⟩

theorem disable_ok (h : p.disable at' = .ok q) :
    q.principalId = p.principalId ∧ q.disabledAt = some at' := by
  unfold RuntimePrincipal.disable at h
  split at h
  · cases h
  · cases h
    exact ⟨rfl, rfl⟩

theorem revoke_ok {c d : Credential} (h : c.revoke at' = .ok d) :
    d.credentialId = c.credentialId ∧ d.revokedAt = some at' := by
  unfold Credential.revoke at h
  split at h
  · cases h
  · cases h
    exact ⟨rfl, rfl⟩

/-- The row keeps the daily limit of its principal. -/
theorem daily_ofPrincipal (h : RuntimePrincipalRow.ofPrincipal p = .ok row) :
    row.dailyUsageLimitUnits = p.dailyUsageLimitUnits := by
  unfold RuntimePrincipalRow.ofPrincipal at h
  split at h
  · cases h
    rfl
  · cases h

end Values

/-! ## Commits grow -/

section Growth

variable {db : Db}

theorem later_modifyPrincipal {k : Uuid} {f : RuntimePrincipalRow → RuntimePrincipalRow}
    {hf : ∀ r, Keyed.key (f r) = Keyed.key r}
    (h : ∀ r, LaterPrincipal r (f r)) :
    Later db { db with principals := db.principals.modify k f hf } := by
  refine ⟨fun q r hr => ?_, fun q c hc => ⟨c, hc, .refl c⟩, subset_rfl, rfl⟩
  have hfind := Table.find?_modify db.principals k f hf q
  rw [hr] at hfind
  by_cases hq : q = k
  · exact ⟨f r, hfind.trans (by simp [hq]), h r⟩
  · exact ⟨r, hfind.trans (by simp [hq]), .refl r⟩

theorem later_insertPrincipal (row : RuntimePrincipalRow) : Later db (db.insertPrincipal row) := by
  refine ⟨fun k r hr => ⟨r, ?_, .refl r⟩, fun k c hc => ⟨c, hc, .refl c⟩, subset_rfl, rfl⟩
  have hfind := Table.find?_insert db.principals row k
  rw [hr] at hfind
  exact hfind

theorem later_insertCredential (row : RuntimeCredentialRow) : Later db (db.insertCredential row) := by
  refine ⟨fun k r hr => ⟨r, hr, .refl r⟩, fun k c hc => ⟨c, ?_, .refl c⟩, subset_rfl, rfl⟩
  have hfind := Table.find?_insert db.credentials row k
  rw [hc] at hfind
  exact hfind

theorem later_revokeCredential {c : Uuid} {revokedAt : Option Utc} (h : revokedAt.isSome) :
    Later db (db.revokeCredential c revokedAt) := by
  refine ⟨fun k r hr => ⟨r, hr, .refl r⟩, fun k x hx => ?_, subset_rfl, rfl⟩
  have hfind := Table.find?_modify db.credentials c (fun r => { r with revokedAt }) (fun _ => rfl) k
  rw [hx] at hfind
  by_cases hk : k = c
  · exact ⟨{ x with revokedAt }, hfind.trans (by simp [hk]), rfl, rfl, fun _ => h, rfl, rfl, rfl⟩
  · exact ⟨x, hfind.trans (by simp [hk]), .refl x⟩

theorem later_appendAudits (records : List Record) : Later db (db.appendAudits records) :=
  ⟨fun _ r hr => ⟨r, hr, .refl r⟩, fun _ c hc => ⟨c, hc, .refl c⟩, subset_rfl, rfl⟩

/-- A time that is there is there in its column. -/
theorem isSome_column {at' : Aware} {t : Option Aware} {u : Option Utc} (ht : t = some at')
    (h : t.mapM timestamptz = .ok u) : u.isSome := by
  rw [Except.isSome_mapM h, ht]
  rfl

theorem Does.later {s : Service} {env : Env} {a : Answers} {command : Command} {reply : Reply}
    {change : Change} {records : List Record} (h : Does s env a db command reply change records) :
    Later db (change.apply db) := by
  cases h with
  | created => exact (later_insertPrincipal _).trans (later_insertCredential _)
  | bound =>
    refine later_modifyPrincipal fun r => ?_
    split
    · next hunbound =>
      exact ⟨rfl, id, id, fun hsome => absurd hunbound (by simp_all [RuntimePrincipalRow.unbound])⟩
    · exact .refl r
  | initialized _ _ _ _ hconfigured hrow _ _ =>
    refine later_modifyPrincipal fun r => ?_
    have hdaily := (daily_ofPrincipal hrow).trans (initializeUsageLimits_ok hconfigured).2
    split
    · exact ⟨rfl, id, fun _ => by rw [RuntimePrincipalRow.setLimits, hdaily]; rfl,
        fun _ => ⟨rfl, rfl⟩⟩
    · exact .refl r
  | issued => exact later_insertCredential _
  | revoked _ _ _ _ _ hrevoked hcolumn _ =>
    exact later_revokeCredential (isSome_column (revoke_ok hrevoked).2 hcolumn)
  | disabled _ _ _ hdisabled hcolumn _ =>
    have hsome := isSome_column (disable_ok hdisabled).2 hcolumn
    exact later_modifyPrincipal fun r => ⟨rfl, fun _ => hsome, id, fun _ => ⟨rfl, rfl⟩⟩

end Growth

/-! ## Commands among others -/

/-- The change that an operation asks for, as the reply to its command. -/
def written (env : Env) (e : Event (Op Sql) (Op.Res Sql.Res) Error) : Option Reply :=
  match e.op with
  | .sql (.bindIdentityContinuity p) => some (.principal p)
  | .sql (.initializeUsageLimits p) => some (.principal p)
  | .sql (.principalsDisable p) => some (.principal p)
  | .sql (.credentialsAdd c) =>
      some (.issued ⟨c, "valor_runtime_" ++ env.credentialId.str ++ "_" ++ env.secret⟩)
  | .sql (.credentialsRevoke c) => some (.credential c)
  | _ => none

/-- The events of a command that gives the reply. A `create_principal` writes two values. -/
def Request.wrote (r : Request) (reply : Reply)
    (evs : List (Event (Op Sql) (Op.Res Sql.Res) Error)) : Prop :=
  match r.command with
  | .createPrincipal _ => True
  | _ => evs.filterMap (written r.env) = [reply]

/-- An event that asks for no change. -/
theorem Request.wrote.append {r : Request} {reply : Reply}
    {evs : List (Event (Op Sql) (Op.Res Sql.Res) Error)} {e : Event (Op Sql) (Op.Res Sql.Res) Error}
    (h : r.wrote reply evs) (he : written r.env e = none) : r.wrote reply (evs ++ [e]) := by
  unfold Request.wrote at h ⊢
  split at h
  · trivial
  · rw [List.filterMap_append, h]
    simp [he]

/-- Where the answers of a command came from, when it commits on `db`. -/
structure Observed (r : Request) (db₀ db : Db)
    (evs : List (Event (Op Sql) (Op.Res Sql.Res) Error)) (a : Answers) : Prop where
  principal : ∃ seen, Later db₀ seen ∧ Later seen db ∧ a.principal = (r.answers seen).principal
  credential : ∃ seen, Later db₀ seen ∧ Later seen db ∧ a.credential = (r.answers seen).credential
  usable : ∃ seen, Later db₀ seen ∧ Later seen db ∧ a.usable = (r.answers seen).usable
  read : match r.command with
    | .bindIdentityContinuity c => a.principal = db.getPrincipal c.principalId
    | .initializeUsageLimits c => ⟨.sql (.principalsGet c.principalId), .ok a.principal⟩ ∈ evs
    | .disablePrincipal c => ⟨.sql (.principalsGet c.principalId), .ok a.principal⟩ ∈ evs
    | .revokeCredential c => ⟨.sql (.credentialsGet c.credentialId), .ok a.credential⟩ ∈ evs
    | _ => True

/-- A world whose commit by thread `i` is its command as an atomic step. -/
structure Committing (s : Service) (r : Request) (db₀ : Db) (i : Tid)
    (v : Traced Db Lock Sql Sql.Res Error) (a : Answers) (reply : Reply) (change : Change)
    (records : List Record) : Prop where
  does : Does s r.env a v.1.db r.command reply change records
  view : v.1.view i = (change.apply v.1.db).appendAudits records
  observed : Observed r db₀ v.1.db (own i v.2) a
  wrote : r.wrote reply (own i v.2)
  first : committed i ∉ v.2

def Commits (s : Service) (r : Request) (db₀ : Db) (i : Tid) (v : Traced Db Lock Sql Sql.Res Error) :
    Prop :=
  ∃ a reply change records, Committing s r db₀ i v a reply change records

theorem Commits.disciplined {s : Service} {r : Request} {db₀ : Db} {i : Tid}
    {v : Traced Db Lock Sql Sql.Res Error} (h : Commits s r db₀ i v) :
    Disciplined discipline i v.1 := by
  obtain ⟨a, reply, change, records, h⟩ := h
  refine ⟨?_, fun _ _ => trivial⟩
  rw [h.view]
  exact h.does.later.trans (later_appendAudits records)

/-- What the outcome of a thread says about its own events. -/
def Request.Answered (r : Request) {α : Type} (f : α → Reply) :
    Except Error α → List (Event (Op Sql) (Op.Res Sql.Res) Error) → Prop
  | .ok x, evs => r.wrote (f x) evs ∧ ⟨.commit, .ok ()⟩ ∈ evs
  | .error _, _ => True

section Parts

variable {s : Service} {r : Request} {db₀ : Db} {i : Tid} {v : Traced Db Lock Sql Sql.Res Error}
  {evs : List (Event (Op Sql) (Op.Res Sql.Res) Error)} {ws : List (Db → Db)} {ls : List Lock}
  {F : Db → Prop} {α : Type} {f : α → Reply}

/-- Thread `i` runs `p`, a part of the request `r`. -/
abbrev Acts (s : Service) (r : Request) (db₀ : Db) (i : Tid) (f : α → Reply) (p : Program α)
    (v : Traced Db Lock Sql Sql.Res Error) : Prop :=
  Among database discipline db₀ (Commits s r db₀ i) i (r.Answered f) p v

theorem acts_raise {e : Error} : Acts s r db₀ i f (.raise e) v := safe_raise.mpr trivial

theorem acts_raiseWhen {c : Prop} [Decidable c] {e : Error} {k : Unit → Program α}
    (hk : ¬c → Acts s r db₀ i f (k ()) v) : Acts s r db₀ i f ((raiseWhen c e).bind k) v :=
  safe_raiseWhen (fun _ _ => trivial) hk

theorem acts_requireActive {found : Option RuntimePrincipal} {k : RuntimePrincipal → Program α}
    (hk : ∀ p, found = some p → p.isActive = true → Acts s r db₀ i f (k p) v) :
    Acts s r db₀ i f ((Service.requireActive found).bind k) v := by
  cases found with
  | none => exact acts_raise
  | some p =>
    simp only [Service.requireActive, bind_eq, bind_assoc]
    exact acts_raiseWhen fun h => hk p rfl (by simpa using h)

theorem acts_unitOfWork {body : Program α} (h : Acts s r db₀ i f body v) :
    Acts s r db₀ i f (unitOfWork body) v := by
  refine knows_unitOfWork (fun o evs ho => ?_) h
  cases o with
  | error e => trivial
  | ok x => exact ⟨ho.1.append rfl, List.mem_append_left _ ho.2⟩

theorem acts_auditsAppend {record : Record} {k : Unit → Program α} (hF : Lasting discipline ls F)
    (h : Knows i evs ws ls F v)
    (hk : ∀ v, Knows i (evs ++ [⟨.sql (.auditsAppend record), .ok ()⟩])
      (ws ++ [fun db => db.appendAudit record]) ls F v → Acts s r db₀ i f (k ()) v) :
    Acts s r db₀ i f ((sql (.auditsAppend record)).bind k) v := by
  refine knows_change (fun _ _ => trivial) (fun _ => rfl) hF h fun v a g _ h _ ha => ?_
  cases ha
  exact hk v h

theorem acts_auditPrincipal {actor : Uuid} {value : RuntimePrincipal}
    {before : Option RuntimePrincipal} {action : Action} {k : Unit → Program α}
    (hF : Lasting discipline ls F) (h : Knows i evs ws ls F v)
    (hk : ∀ v record, s.principalRecord r.env actor value before action = .ok record →
      Knows i (evs ++ [⟨.sql (.auditsAppend record), .ok ()⟩])
        (ws ++ [fun db => db.appendAudit record]) ls F v → Acts s r db₀ i f (k ()) v) :
    Acts s r db₀ i f ((s.auditPrincipal r.env actor value before action).bind k) v := by
  unfold Service.auditPrincipal
  rw [bind_eq, bind_assoc]
  exact safe_lift (fun _ _ => trivial) fun record hrecord =>
    acts_auditsAppend hF h fun v h => hk v record hrecord h

theorem acts_auditCredential {auditId actor tenantId : Uuid} {value : RuntimeCredential}
    {before : Option RuntimeCredential} {action : Action} {k : Unit → Program α}
    (hF : Lasting discipline ls F) (h : Knows i evs ws ls F v)
    (hk : ∀ v record, s.credentialRecord r.env auditId actor tenantId value before action =
        .ok record →
      Knows i (evs ++ [⟨.sql (.auditsAppend record), .ok ()⟩])
        (ws ++ [fun db => db.appendAudit record]) ls F v → Acts s r db₀ i f (k ()) v) :
    Acts s r db₀ i f ((s.auditCredential r.env auditId actor tenantId value before action).bind k)
      v := by
  unfold Service.auditCredential
  rw [bind_eq, bind_assoc]
  exact safe_lift (fun _ _ => trivial) fun record hrecord =>
    acts_auditsAppend hF h fun v h => hk v record hrecord h

/-- The SELECT of a principal before anything is written. -/
theorem acts_principalsGet {k : Option RuntimePrincipal → Program α} {principalId : Uuid}
    (h : Knows i evs [] [] (fun _ => True) v)
    (hk : ∀ v seen, Later db₀ seen →
      Knows i (evs ++ [⟨.sql (.principalsGet principalId), .ok (seen.getPrincipal principalId)⟩]) []
        [] (Later seen) v → Acts s r db₀ i f (k (seen.getPrincipal principalId)) v) :
    Acts s r db₀ i f ((sql (.principalsGet principalId)).bind k) v := by
  refine knows_query (fun _ _ => trivial) (fun _ => rfl) lasting_true h fun v a _ h hgrown ha => ?_
  cases ha
  exact hk v v.1.db hgrown (h.mono fun _ => .refl _)

theorem acts_validateExpiry {now : Utc} {expiresAt : Option Datetime} {k : Unit → Program α}
    (hk : Service.validateExpiry now expiresAt = .ret () → Acts s r db₀ i f (k ()) v) :
    Acts s r db₀ i f ((Service.validateExpiry now expiresAt).bind k) v := by
  match expiresAt with
  | none => exact hk rfl
  | some (.naive ..) => exact acts_raise
  | some (.aware e) =>
    by_cases he : e ≤ now.toAware
    · simp only [Service.validateExpiry, raiseWhen, he, if_true]
      exact acts_raise
    · have hret : Service.validateExpiry now (some (.aware e)) = .ret () := by
        simp only [Service.validateExpiry, raiseWhen, he, if_false]
      rw [hret]
      exact hk hret

theorem acts_newCredential {principalId : Uuid} {label : Option String}
    {expiresAt : Option Datetime} {k : IssuedRuntimeCredential → Program α}
    (hk : ∀ credential, Credential.new r.env.credentialId principalId
      (s.hmacSha256 s.pepper r.env.secret) label (.aware r.env.now) expiresAt none = .ok credential →
      Acts s r db₀ i f
        (k ⟨credential, "valor_runtime_" ++ r.env.credentialId.str ++ "_" ++ r.env.secret⟩) v) :
    Acts s r db₀ i f ((s.newCredential r.env principalId label expiresAt).bind k) v := by
  unfold Service.newCredential
  simp only [bind_eq, bind_assoc]
  exact safe_lift (fun _ _ => trivial) fun credential hc => hk credential hc

theorem acts_credentialsAdd {credential : RuntimeCredential} {k : Unit → Program α}
    (hF : Lasting discipline ls F) (h : Knows i evs ws ls F v)
    (hk : ∀ v crow, CredentialRow.ofCredential credential = .ok crow →
      Knows i (evs ++ [⟨.sql (.credentialsAdd credential), .ok ()⟩])
        (ws ++ [fun db => db.insertCredential crow]) (.credential credential.credentialId :: ls)
        (fun d => F d ∧
          (ws.foldl (fun d f => f d) d).credentials.find? credential.credentialId = none ∧
          (ws.foldl (fun d f => f d) d).principals.find? credential.principalId ≠ none) v →
        Acts s r db₀ i f (k ()) v) :
    Acts s r db₀ i f ((sql (.credentialsAdd credential)).bind k) v := by
  refine knows_change (fun _ _ => trivial) (fun _ => rfl) hF h fun v a g _ h _ ha => ?_
  obtain ⟨crow, hrow, ha⟩ := Except.bind_ok_cases ha
  obtain ⟨_, hfree, ha⟩ := Except.bind_ok_cases ha
  obtain ⟨_, howner, ha⟩ := Except.bind_ok_cases ha
  cases ha
  exact hk v crow (column_ok hrow)
    (h.mono fun hf => ⟨hf, constraint_ok hfree, constraint_ok howner⟩)

/-- A free key that is locked stays free, and a principal stays. -/
theorem lasting_insertable (credential : RuntimeCredential) :
    Lasting discipline [.credential credential.credentialId] fun d =>
      d.credentials.find? credential.credentialId = none ∧
      d.principals.find? credential.principalId ≠ none := by
  rintro d d' ⟨hfree, howner⟩ hlater hs _
  have hrow : d'.credentials.find? credential.credentialId =
      d.credentials.find? credential.credentialId := hs _ (List.mem_cons_self ..)
  refine ⟨hrow.trans hfree, ?_⟩
  obtain ⟨row, hrow⟩ := Option.ne_none_iff_exists'.mp howner
  obtain ⟨row', hrow', _⟩ := hlater.principals _ row hrow
  rw [hrow']
  exact Option.some_ne_none row'

/-- The row of a locked principal stays as it is. -/
theorem lasting_principal {k : Uuid} {G : Option RuntimePrincipalRow → Prop}
    (hl : .principal k ∈ ls) : Lasting discipline ls fun d => G (d.principals.find? k) :=
  lasting_of_mem hl fun d d' h (hs : d'.principals.find? k = d.principals.find? k) => by rwa [hs]

theorem lasting_matches {k : Uuid} {condition : RuntimePrincipalRow → Bool}
    (hl : .principal k ∈ ls) : Lasting discipline ls fun d => d.matches k condition = true :=
  lasting_principal (G := fun row => row.any condition = true) hl

theorem lasting_getPrincipal {k : Uuid} {p : Option RuntimePrincipal} (hl : .principal k ∈ ls) :
    Lasting discipline ls fun d => d.getPrincipal k = p :=
  lasting_principal (G := fun row => row.map principalFromRow = p) hl

theorem lasting_claimed {legacyId : String} {b : Bool} (hl : .legacyKey legacyId ∈ ls) :
    Lasting discipline ls fun d => d.claimed legacyId = b :=
  lasting_of_mem hl fun d d' h (hs : d'.claimed legacyId = d.claimed legacyId) => by rwa [hs]

/-- The conditional UPDATE of `initialize_usage_limits`, the first change of its transaction. -/
theorem acts_initializeUsageLimits {configured : RuntimePrincipal} {k : Bool → Program α}
    (hF : Lasting discipline [] F) (h : Knows i evs [] [] F v)
    (hk : ∀ v row, RuntimePrincipalRow.ofPrincipal configured = .ok row →
      Knows i (evs ++ [⟨.sql (.initializeUsageLimits configured), .ok true⟩])
        [fun db => db.initializeUsageLimits row] [.principal configured.principalId]
        (fun d => F d ∧ d.matches configured.principalId (·.unlimited) = true) v →
      Acts s r db₀ i f (k true) v)
    (hno : ∀ v, Acts s r db₀ i f (k false) v) :
    Acts s r db₀ i f ((sql (.initializeUsageLimits configured)).bind k) v := by
  refine knows_change (fun _ _ => trivial) (fun _ => rfl) hF h fun v a g _ h _ ha => ?_
  obtain ⟨row, hrow, ha⟩ := Except.bind_ok_cases ha
  by_cases hm : Db.matches (List.foldl (fun d (f : Db → Db) => f d) v.1.db [])
      configured.principalId (·.unlimited) = true
  · rw [if_pos hm] at ha h
    cases ha
    exact hk v row (column_ok hrow) (h.mono fun hf => ⟨hf, hm⟩)
  · rw [if_neg hm] at ha
    cases ha
    exact hno v

/-- The UPDATE of `disable`, the first change of its transaction. -/
theorem acts_principalsDisable {disabled : RuntimePrincipal} {k : Unit → Program α}
    (hF : Lasting discipline [] F) (h : Knows i evs [] [] F v)
    (hk : ∀ v disabledAt, disabled.disabledAt.mapM timestamptz = .ok disabledAt →
      Knows i (evs ++ [⟨.sql (.principalsDisable disabled), .ok ()⟩])
        [fun db => db.disablePrincipal disabled.principalId disabledAt]
        [.principal disabled.principalId] F v → Acts s r db₀ i f (k ()) v) :
    Acts s r db₀ i f ((sql (.principalsDisable disabled)).bind k) v := by
  refine knows_change (fun _ _ => trivial) (fun _ => rfl) hF h fun v a g _ h _ ha => ?_
  obtain ⟨disabledAt, hcolumn, ha⟩ := Except.bind_ok_cases ha
  cases ha
  exact hk v disabledAt (column_ok hcolumn) h

/-- The SELECT of a credential before anything is written. -/
theorem acts_credentialsGet {credentialId : Uuid} {k : Option RuntimeCredential → Program α}
    (hF : Lasting discipline [] F) (h : Knows i evs [] [] F v)
    (hk : ∀ v seen, Later db₀ seen →
      Knows i (evs ++ [⟨.sql (.credentialsGet credentialId), .ok (seen.getCredential credentialId)⟩])
        [] [] (fun d => F d ∧ Later seen d) v →
      Acts s r db₀ i f (k (seen.getCredential credentialId)) v) :
    Acts s r db₀ i f ((sql (.credentialsGet credentialId)).bind k) v := by
  refine knows_query (fun _ _ => trivial) (fun _ => rfl) hF h fun v a _ h hgrown ha => ?_
  cases ha
  exact hk v v.1.db hgrown (h.mono fun hf => ⟨hf, .refl _⟩)

theorem acts_requireRevocable {p? : Option RuntimePrincipal} {c? : Option RuntimeCredential}
    {k : RuntimePrincipal × RuntimeCredential → Program α}
    (hk : ∀ p c, p? = some p → c? = some c → c.principalId = p.principalId → c.revokedAt = none →
      Acts s r db₀ i f (k (p, c)) v) :
    Acts s r db₀ i f ((Service.requireRevocable p? c?).bind k) v := by
  match p?, c? with
  | none, _ => exact acts_raise
  | some _, none => exact acts_raise
  | some p, some c =>
    simp only [Service.requireRevocable, bind_eq, bind_assoc]
    refine acts_raiseWhen fun h => ?_
    obtain ⟨howns, hunrevoked⟩ := not_or.mp h
    exact hk p c rfl rfl (not_not.mp howns) (by simpa using hunrevoked)

/-- The UPDATE of `revoke`, the first change of its transaction. -/
theorem acts_credentialsRevoke {revoked : RuntimeCredential} {k : Unit → Program α}
    (hF : Lasting discipline [] F) (h : Knows i evs [] [] F v)
    (hk : ∀ v revokedAt, revoked.revokedAt.mapM timestamptz = .ok revokedAt →
      Knows i (evs ++ [⟨.sql (.credentialsRevoke revoked), .ok ()⟩])
        [fun db => db.revokeCredential revoked.credentialId revokedAt]
        [.credential revoked.credentialId] F v → Acts s r db₀ i f (k ()) v) :
    Acts s r db₀ i f ((sql (.credentialsRevoke revoked)).bind k) v := by
  refine knows_change (fun _ _ => trivial) (fun _ => rfl) hF h fun v a g _ h _ ha => ?_
  obtain ⟨revokedAt, hcolumn, ha⟩ := Except.bind_ok_cases ha
  cases ha
  exact hk v revokedAt (column_ok hcolumn) h

/-- SELECT FOR UPDATE: the principal that it finds is locked. -/
theorem acts_principalsGetForUpdate {principalId : Uuid} {k : Option RuntimePrincipal → Program α}
    {w : Db → Db} (hw : ∀ d, w d = d) (h : Knows i evs [w] ls (fun _ => True) v)
    (hsome : ∀ v p, Knows i (evs ++ [⟨.sql (.principalsGetForUpdate principalId), .ok (some p)⟩])
        [w, id] (.principal principalId :: ls) (fun d => d.getPrincipal principalId = some p) v →
      Acts s r db₀ i f (k (some p)) v)
    (hnone : ∀ v, Acts s r db₀ i f (k none) v) :
    Acts s r db₀ i f ((sql (.principalsGetForUpdate principalId)).bind k) v := by
  refine knows_change (fun _ _ => trivial) (fun _ => rfl) lasting_true h fun v a g _ h _ ha => ?_
  simp only [List.foldl_cons, List.foldl_nil, hw] at h ha
  cases ha
  cases hp : v.1.db.getPrincipal principalId with
  | none => exact hnone v
  | some p =>
    obtain ⟨row, hrow, _⟩ := getPrincipal_some hp
    have hm : v.1.db.matches principalId (fun _ => true) = true := by
      rw [Db.matches, hrow]
      rfl
    rw [if_pos hm, hp] at h
    exact hsome v p (h.mono fun _ => hp)

/-- A query of a transaction that has only locked rows so far. -/
theorem acts_query {q : Sql} {act : Db → Except Error q.Res} {k : q.Res → Program α}
    {w : Db → Db} (hq : stmt q = .query act) (hw : ∀ d, w d = d) (hF : Lasting discipline ls F)
    (h : Knows i evs [w, id] ls F v)
    (hk : ∀ v a, Later db₀ v.1.db → act v.1.db = .ok a →
      Knows i (evs ++ [⟨.sql q, .ok a⟩]) [w, id] ls F v → Acts s r db₀ i f (k a) v) :
    Acts s r db₀ i f ((sql q).bind k) v := by
  refine knows_query (fun _ _ => trivial) (fun _ => hq) hF h fun v a _ h hgrown ha => ?_
  simp only [List.foldl_cons, List.foldl_nil, hw, id] at ha
  exact hk v a hgrown ha h

/-- The conditional UPDATE of `bind_identity_continuity`. -/
theorem acts_bindIdentityContinuity {bound : RuntimePrincipal} {k : Bool → Program α} {w : Db → Db}
    {legacyId : String} (hw : ∀ d, w d = d) (hlegacy : bound.legacyRuntimePrincipalId = some legacyId)
    (hF : Lasting discipline ls F) (h : Knows i evs [w, id] ls F v)
    (hk : ∀ v row, RuntimePrincipalRow.ofPrincipal bound = .ok row →
      Knows i (evs ++ [⟨.sql (.bindIdentityContinuity bound), .ok true⟩])
        [w, id, fun db => db.bindIdentityContinuity row]
        (.principal bound.principalId :: .legacyKey legacyId :: ls)
        (fun d => F d ∧ d.matches bound.principalId (·.unbound) = true ∧ d.claimed legacyId = false)
        v → Acts s r db₀ i f (k true) v)
    (hno : ∀ v, Acts s r db₀ i f (k false) v) :
    Acts s r db₀ i f ((sql (.bindIdentityContinuity bound)).bind k) v := by
  refine knows_change (fun _ _ => trivial) (fun _ => rfl) hF h fun v a g _ h _ ha => ?_
  simp only [List.foldl_cons, List.foldl_nil, hw, id] at h ha
  obtain ⟨row, hrow, ha⟩ := Except.bind_ok_cases ha
  by_cases hm : v.1.db.matches bound.principalId (·.unbound) = true
  · rw [if_pos hm] at ha h
    obtain ⟨_, hunclaimed, ha⟩ := Except.bind_ok_cases ha
    cases ha
    have hnot := constraint_ok hunclaimed
    rw [hlegacy] at h hnot
    exact hk v row (column_ok hrow) (h.mono fun hf => ⟨hf, hm, hnot⟩)
  · rw [if_neg hm] at ha
    cases ha
    exact hno v

/-- The INSERT of a principal without a legacy identity. -/
theorem acts_principalsAdd {p : RuntimePrincipal} {k : Unit → Program α}
    (hlegacy : p.legacyRuntimePrincipalId = none) (hF : Lasting discipline [] F)
    (h : Knows i evs [] [] F v)
    (hk : ∀ v row, RuntimePrincipalRow.ofPrincipal p = .ok row →
      Knows i (evs ++ [⟨.sql (.principalsAdd p), .ok ()⟩]) [fun db => db.insertPrincipal row]
        [.principal p.principalId] (fun d => F d ∧ d.principals.find? p.principalId = none) v →
      Acts s r db₀ i f (k ()) v) :
    Acts s r db₀ i f ((sql (.principalsAdd p)).bind k) v := by
  refine knows_change (fun _ _ => trivial) (fun _ => rfl) hF h fun v a g _ h _ ha => ?_
  obtain ⟨row, hrow, ha⟩ := Except.bind_ok_cases ha
  obtain ⟨_, hfree, ha⟩ := Except.bind_ok_cases ha
  obtain ⟨_, _, ha⟩ := Except.bind_ok_cases ha
  cases ha
  rw [hlegacy] at h
  exact hk v row (column_ok hrow) (h.mono fun hf => ⟨hf, constraint_ok hfree⟩)

/-- The commit: it is enough that the command is done on the database of that moment. -/
theorem acts_commit {b : α} (hF : Lasting discipline ls F) (h : Knows i evs ws ls F v)
    (hevs : (⟨.commit, .ok ()⟩ : Event (Op Sql) (Op.Res Sql.Res) Error) ∉ evs)
    (hwrote : r.wrote (f b) evs)
    (hdoes : ∀ db, F db → Later db₀ db → ∃ a change records,
      Does s r.env a db r.command (f b) change records ∧
      ws.foldl (fun d f => f d) db = (change.apply db).appendAudits records ∧
      Observed r db₀ db evs a) :
    Acts s r db₀ i f (commit.bind fun _ => .ret b) v := by
  refine knows_commit (fun _ _ => trivial) hF h (fun v h hgrown => ?_) ⟨hwrote.append rfl, by simp⟩
  obtain ⟨a, change, records, hdoes, hview, hobserved⟩ := hdoes v.1.db h.fact hgrown
  refine ⟨a, f b, change, records, hdoes, h.view.trans hview, ?_, ?_, fun hm => hevs ?_⟩
  · rw [h.own]
    exact hobserved
  · rw [h.own]
    exact hwrote
  · rw [← h.own]
    exact mem_own.mpr hm

end Parts

section Commands

variable {s : Service} {r : Request} {db₀ : Db} {i : Tid} {v : Traced Db Lock Sql Sql.Res Error}

theorem initializeUsageLimits_acts {c : InitializeRuntimeUsageLimitsCommand}
    (hr : r.command = .initializeUsageLimits c) (h : Knows i [] [] [] (fun _ => True) v) :
    Acts s r db₀ i .principal (s.initializeUsageLimits r.env c) v := by
  unfold Service.initializeUsageLimits Service.requireManager
  refine acts_raiseWhen fun hactor => acts_unitOfWork ?_
  refine acts_principalsGet h fun v seen hseen h => ?_
  refine acts_requireActive fun p hp hactive => ?_
  refine acts_raiseWhen fun hunconfigured => ?_
  refine safe_lift (fun _ _ => trivial) fun configured hconfigured => ?_
  refine acts_initializeUsageLimits (lasting_grows lawful seen) h (fun v row hrow h => ?_)
    fun v => acts_raiseWhen fun hne => absurd rfl hne
  have hlast : Lasting discipline [.principal configured.principalId] fun d => Later seen d ∧
      d.matches configured.principalId (·.unlimited) = true :=
    Lasting.and (lasting_grows lawful seen) (lasting_matches (List.mem_cons_self ..))
  refine acts_raiseWhen fun _ => acts_auditPrincipal hlast h fun v record hrecord h => ?_
  refine acts_commit hlast h (by simp) ?_ fun db ⟨hlater, hm⟩ _ =>
    ⟨⟨some p, none, false⟩, .limits row, [record], ?_, rfl, ?_⟩
  · simp only [Request.wrote, hr]
    rfl
  · rw [hr]
    exact .initialized (by simpa using hactor) rfl hactive (by simpa using hunconfigured)
      hconfigured hrow hrecord hm
  · refine ⟨⟨seen, hseen, hlater, ?_⟩, ⟨seen, hseen, hlater, ?_⟩, ⟨seen, hseen, hlater, ?_⟩, ?_⟩
    · simp only [Request.answers, hr, hp]
    · simp only [Request.answers, hr]
    · simp only [Request.answers, hr]
    · simp only [hr, ← hp]
      exact List.mem_cons_self ..

theorem issueCredential_acts {c : IssueRuntimeCredentialCommand}
    (hr : r.command = .issueCredential c) (h : Knows i [] [] [] (fun _ => True) v) :
    Acts s r db₀ i .issued (s.issueCredential r.env c) v := by
  unfold Service.issueCredential Service.requireManager
  refine acts_raiseWhen fun hactor => acts_validateExpiry fun hexpiry => acts_unitOfWork ?_
  refine acts_principalsGet h fun v seen hseen h => ?_
  refine acts_requireActive fun p hp hactive => ?_
  refine acts_newCredential fun credential hcredential => ?_
  refine acts_credentialsAdd (lasting_grows lawful seen) h fun v crow hrow h => ?_
  have hlast : Lasting discipline [.credential credential.credentialId] fun d => Later seen d ∧
      d.credentials.find? credential.credentialId = none ∧
      d.principals.find? credential.principalId ≠ none :=
    Lasting.and (lasting_grows lawful seen) (lasting_insertable credential)
  refine acts_auditCredential hlast h fun v record hrecord h => ?_
  refine acts_commit hlast h (by simp) ?_ fun db ⟨hlater, hfree, howner⟩ _ =>
    ⟨⟨some p, none, false⟩, .issued crow, [record], ?_, rfl, ?_⟩
  · simp only [Request.wrote, hr]
    rfl
  · rw [hr]
    exact .issued (by simpa using hactor) hexpiry rfl hactive hcredential hrow hrecord hfree howner
  · refine ⟨⟨seen, hseen, hlater, ?_⟩, ⟨seen, hseen, hlater, ?_⟩, ⟨seen, hseen, hlater, ?_⟩, ?_⟩
    · simp only [Request.answers, hr, hp]
    · simp only [Request.answers, hr]
    · simp only [Request.answers, hr]
    · simp only [hr]

theorem disablePrincipal_acts {c : DisablePrincipalCommand}
    (hr : r.command = .disablePrincipal c) (h : Knows i [] [] [] (fun _ => True) v) :
    Acts s r db₀ i .principal (s.disablePrincipal r.env c) v := by
  unfold Service.disablePrincipal Service.requireManager
  refine acts_raiseWhen fun hactor => acts_unitOfWork ?_
  refine acts_principalsGet h fun v seen hseen h => ?_
  refine acts_requireActive fun p hp hactive => ?_
  refine safe_lift (fun _ _ => trivial) fun disabled hdisabled => ?_
  refine acts_principalsDisable (lasting_grows lawful seen) h fun v disabledAt hcolumn h => ?_
  have hlast : Lasting discipline [.principal disabled.principalId] (Later seen) :=
    lasting_grows lawful seen
  refine acts_auditPrincipal hlast h fun v record hrecord h => ?_
  refine acts_commit hlast h (by simp) ?_ fun db hlater _ =>
    ⟨⟨some p, none, false⟩, .disabled disabled.principalId disabledAt, [record], ?_, rfl, ?_⟩
  · simp only [Request.wrote, hr]
    rfl
  · rw [hr]
    exact .disabled (by simpa using hactor) rfl hactive hdisabled hcolumn hrecord
  · refine ⟨⟨seen, hseen, hlater, ?_⟩, ⟨seen, hseen, hlater, ?_⟩, ⟨seen, hseen, hlater, ?_⟩, ?_⟩
    · simp only [Request.answers, hr, hp]
    · simp only [Request.answers, hr]
    · simp only [Request.answers, hr]
    · simp only [hr, ← hp]
      exact List.mem_cons_self ..

theorem revokeCredential_acts {c : RuntimeCredentialCommand}
    (hr : r.command = .revokeCredential c) (h : Knows i [] [] [] (fun _ => True) v) :
    Acts s r db₀ i .credential (s.revokeCredential r.env c) v := by
  unfold Service.revokeCredential Service.requireManager
  refine acts_raiseWhen fun hactor => acts_unitOfWork ?_
  refine acts_principalsGet h fun v seen hseen h => ?_
  refine acts_credentialsGet (lasting_grows lawful seen) h fun v seen' hseen' h => ?_
  refine acts_requireRevocable fun p x hp hx howns hunrevoked => ?_
  refine safe_lift (fun _ _ => trivial) fun revoked hrevoked => ?_
  have hread : ∀ ls, Lasting discipline ls fun d => Later seen d ∧ Later seen' d :=
    fun _ => .and (lasting_grows lawful seen) (lasting_grows lawful seen')
  refine acts_credentialsRevoke (hread _) h fun v revokedAt hcolumn h => ?_
  refine acts_auditCredential (hread _) h fun v record hrecord h => ?_
  refine acts_commit (hread _) h (by simp) ?_ fun db ⟨hlater, hlater'⟩ _ =>
    ⟨⟨some p, some x, false⟩, .revoked revoked.credentialId revokedAt, [record], ?_, rfl, ?_⟩
  · simp only [Request.wrote, hr]
    rfl
  · rw [hr]
    exact .revoked (by simpa using hactor) rfl rfl howns hunrevoked hrevoked hcolumn hrecord
  · refine ⟨⟨seen, hseen, hlater, ?_⟩, ⟨seen', hseen', hlater', ?_⟩, ⟨seen, hseen, hlater, ?_⟩, ?_⟩
    · simp only [Request.answers, hr, hp]
    · simp only [Request.answers, hr, hx]
    · simp only [Request.answers, hr]
    · simp only [hr, ← hx]
      exact List.mem_cons_of_mem _ (List.mem_cons_self ..)

theorem inspectInvocations_congr {db db' : Db} (h : db'.invocations = db.invocations)
    (legacyId canonicalId : String) (tenantId agentId : Uuid) (dayStart dayEnd : Utc) :
    db'.inspectInvocations legacyId canonicalId tenantId agentId dayStart dayEnd =
      db.inspectInvocations legacyId canonicalId tenantId agentId dayStart dayEnd := by
  unfold Db.inspectInvocations
  rw [h]

theorem claimed_of_safeToBind {env : Env} {p : RuntimePrincipal} {legacyId : String}
    {facts : RuntimeInvocationContinuityFacts} {claimed usable : Bool}
    (h : (Service.preflightOf env p legacyId facts claimed usable).safeToBind = true) :
    claimed = false := by
  simp only [Service.preflightOf, Bool.and_eq_true, Bool.not_eq_true'] at h
  exact h.1.1.1.1.2

theorem bindIdentityContinuity_acts {c : RuntimeIdentityContinuityCommand}
    (hr : r.command = .bindIdentityContinuity c) (h : Knows i [] [] [] (fun _ => True) v) :
    Acts s r db₀ i .principal (s.bindIdentityContinuity r.env c) v := by
  unfold Service.bindIdentityContinuity Service.requireManager
  refine acts_raiseWhen fun hactor => acts_unitOfWork ?_
  refine knows_change (fun _ _ => trivial) (fun _ => rfl) lasting_true h fun v a w _ h _ ha => ?_
  obtain ⟨legacy, htext, ha⟩ := Except.bind_ok_cases ha
  obtain rfl : legacy = c.legacyRuntimePrincipalId := (text_ok (column_ok htext)).2
  cases ha
  refine acts_principalsGetForUpdate (fun _ => rfl) h (fun v p h => ?_) fun v => acts_raise
  refine acts_requireActive fun p' hp' hactive => ?_
  cases hp'
  have hpid : p.principalId = c.principalId := by
    obtain ⟨row, _, hkey, rfl⟩ := getPrincipal_some h.fact
    exact hkey
  refine acts_raiseWhen fun hunready => ?_
  have hfound : Lasting discipline
      [.principal c.principalId, .legacyIdentity c.legacyRuntimePrincipalId]
      fun d => d.getPrincipal c.principalId = some p := lasting_getPrincipal (List.mem_cons_self ..)
  refine acts_query rfl (fun _ => rfl) hfound h fun v claimed _ _ h => ?_
  refine acts_raiseWhen fun _ => ?_
  unfold Service.continuityPreflight
  simp only [bind_eq, bind_assoc]
  refine safe_lift (fun _ _ => trivial) fun dayEnd hdayEnd => ?_
  refine acts_query (stmt_inspectInvocations ..) (fun _ => rfl) hfound h fun v₁ facts _ hfacts h => ?_
  obtain ⟨l, hl, hfacts⟩ := Except.bind_ok_cases hfacts
  obtain rfl : l = c.legacyRuntimePrincipalId := (text_ok (column_ok hl)).2
  cases hfacts
  have hknown := Lasting.and hfound (lasting_grows lawful v₁.1.db)
  refine acts_query rfl (fun _ => rfl) hknown (h.mono fun hf => ⟨hf, .refl _⟩)
    fun _ claimed _ _ h => ?_
  refine acts_query rfl (fun _ => rfl) hknown h fun v₂ usable hgrown husable h => ?_
  cases husable
  refine acts_raiseWhen fun hsafe => ?_
  refine safe_lift (fun _ _ => trivial) fun bound hbound => ?_
  obtain ⟨hid, hlegacy⟩ := bindIdentityContinuity_ok hbound
  have hknown' := Lasting.and hknown (lasting_grows lawful v₂.1.db)
  refine acts_bindIdentityContinuity (fun _ => rfl) hlegacy hknown' (h.mono fun hf => ⟨hf, .refl _⟩)
    (fun v₃ row hrow h => ?_) fun v => acts_raiseWhen fun hne => absurd rfl hne
  have hlocked : Lasting discipline [.principal bound.principalId,
      .legacyKey (strip c.legacyRuntimePrincipalId), .principal c.principalId,
      .legacyIdentity c.legacyRuntimePrincipalId] fun d =>
      ((d.getPrincipal c.principalId = some p ∧ Later v₁.1.db d) ∧ Later v₂.1.db d) ∧
        d.matches bound.principalId (·.unbound) = true ∧
        d.claimed (strip c.legacyRuntimePrincipalId) = false :=
    .and (.and (.and (lasting_getPrincipal (by simp)) (lasting_grows lawful _))
      (lasting_grows lawful _)) (.and (lasting_matches (List.mem_cons_self ..))
        (lasting_claimed (List.mem_cons_of_mem _ (List.mem_cons_self ..))))
  refine acts_raiseWhen fun _ => acts_auditPrincipal hlocked h fun v₄ record hrecord h => ?_
  refine acts_commit hlocked h (by simp) ?_
    fun db ⟨⟨⟨hp, hseen⟩, hseen'⟩, hmatched, hunclaimed⟩ hlater =>
      ⟨⟨some p, none, v₂.1.db.hasPotentiallyUsable c.principalId r.env.now⟩, .continuity row,
        [record], ?_, rfl, ?_⟩
  · simp only [Request.wrote, hr]
    rfl
  · rw [hr]
    rw [← inspectInvocations_congr hseen.invocations] at hsafe
    simp only [Bool.not_eq_true', Bool.not_eq_false] at hsafe
    rw [claimed_of_safeToBind hsafe] at hsafe
    exact .bound (by simpa using hactor) rfl hactive (by simpa using hunready) (column_ok htext)
      hdayEnd (hpid ▸ hsafe) hbound hrow hrecord hmatched hunclaimed
  · refine ⟨⟨db, hlater, .refl db, ?_⟩, ⟨db, hlater, .refl db, ?_⟩,
      ⟨v₂.1.db, hgrown, hseen', ?_⟩, ?_⟩
    · simp only [Request.answers, hr, hp]
    · simp only [Request.answers, hr]
    · simp only [Request.answers, hr]
    · simp only [hr, hp]

theorem createPrincipal_acts {c : CreateRuntimePrincipalCommand}
    (hr : r.command = .createPrincipal c) (h : Knows i [] [] [] (fun _ => True) v) :
    Acts s r db₀ i (fun (p, issued) => .created p issued) (s.createPrincipal r.env c) v := by
  unfold Service.createPrincipal Service.requireManager
  refine acts_raiseWhen fun hactor => acts_validateExpiry fun hexpiry => acts_unitOfWork ?_
  refine knows_query (fun _ _ => trivial) (fun _ => rfl) lasting_true h
    fun v found _ h _ hfound => ?_
  cases hfound
  refine acts_raiseWhen fun hunfound => safe_lift (fun _ _ => trivial) fun p hp => ?_
  have hbinding : (c.tenantId, c.agentId) ∈ v.1.db.agents := by
    by_contra hnot
    exact hunfound (congrArg not (decide_eq_false hnot))
  obtain ⟨hid, hlegacy⟩ := create_ok hp
  refine acts_newCredential fun credential hcredential => ?_
  refine acts_principalsAdd hlegacy (lasting_grows lawful v.1.db) (h.mono fun _ => .refl _)
    fun v' row hrow h => ?_
  have hfree : Lasting discipline [.principal p.principalId]
      fun d => Later v.1.db d ∧ d.principals.find? p.principalId = none :=
    .and (lasting_grows lawful _) (lasting_principal (G := (· = none)) (List.mem_cons_self ..))
  refine acts_credentialsAdd hfree h fun v' crow hcrow h => ?_
  have hlast : Lasting discipline [.credential credential.credentialId, .principal p.principalId]
      fun d => Later v.1.db d ∧ d.principals.find? p.principalId = none ∧
        d.credentials.find? credential.credentialId = none :=
    .and (lasting_grows lawful _)
      (.and (lasting_principal (G := (· = none)) (List.mem_cons_of_mem _ (List.mem_cons_self ..)))
        (lasting_of_mem (List.mem_cons_self ..) fun d d' h
          (hs : d'.credentials.find? _ = d.credentials.find? _) => hs.trans h))
  refine acts_auditPrincipal hlast (h.mono fun hf => ⟨hf.1.1, hf.1.2, hf.2.1⟩)
    fun v' record hrecord h => ?_
  refine acts_auditCredential hlast h fun v' record' hrecord' h => ?_
  refine acts_commit hlast h (by simp) ?_ fun db ⟨hseen, hfree, hcfree⟩ hlater =>
    ⟨⟨none, none, false⟩, .created row crow, [record, record'], ?_, ?_, ?_⟩
  · simp only [Request.wrote, hr]
  · rw [hr]
    exact .created (by simpa using hactor) hexpiry (hseen.agents hbinding) hp
      hcredential hrow hcrow hrecord hrecord' hfree hcfree
  · simp [Change.apply, Db.appendAudits, Db.appendAudit]
  · refine ⟨⟨db, hlater, .refl db, ?_⟩, ⟨db, hlater, .refl db, ?_⟩, ⟨db, hlater, .refl db, ?_⟩, ?_⟩
    · simp only [Request.answers, hr]
    · simp only [Request.answers, hr]
    · simp only [Request.answers, hr]
    · simp only [hr]

end Commands

/-! ## Every command -/

/-- Every command, run among others, commits as one atomic step. -/
theorem handle_commits (s : Service) (r : Request) (db₀ : Db) (i : Tid) :
    Among database discipline db₀ (Commits s r db₀ i) i (r.Answered id) (s.handle r)
      (World.ofDb db₀, []) := by
  have h : Knows i [] [] [] (fun _ => True)
      ((World.ofDb db₀, []) : Traced Db Lock Sql Sql.Res Error) := knows_start db₀
  unfold Service.handle
  split
  · exact among_map (fun _ _ h => h) (fun _ _ => trivial) (createPrincipal_acts ‹_› h)
  · exact among_map (fun _ _ h => h) (fun _ _ => trivial) (bindIdentityContinuity_acts ‹_› h)
  · exact among_map (fun _ _ h => h) (fun _ _ => trivial) (initializeUsageLimits_acts ‹_› h)
  · exact among_map (fun _ _ h => h) (fun _ _ => trivial) (issueCredential_acts ‹_› h)
  · exact among_map (fun _ _ h => h) (fun _ _ => trivial) (revokeCredential_acts ‹_› h)
  · exact among_map (fun _ _ h => h) (fun _ _ => trivial) (disablePrincipal_acts ‹_› h)

/-! ## Runs -/

abbrev RunConfig := Config (World Db Lock) (Op Sql) (Op.Res Sql.Res) Error Reply

abbrev RunLabel := Label (Op Sql) (Op.Res Sql.Res) Error

section Runs

variable {s : Service} {requests : Tid → Request} {db₀ : Db} {tr : List RunLabel}
  {c c' : RunConfig} {l : RunLabel} {i : Tid} {reply : Reply}

/-- What the steps of a run do to the database: only commits change it, each one as its
    command. -/
theorem step_commits
    (h : Run database.exec ⟨World.ofDb db₀, fun i => s.handle (requests i)⟩ tr c)
    (hs : Step database.exec c l c') :
    CommitsOnly (fun w => Commits s (requests l.tid) db₀ l.tid (w, tr)) l.tid l.event.op
      l.event.answer c.world c'.world :=
  run_step (D := database) (C := fun i => Commits s (requests i) db₀ i) (B := fun _ _ _ => True)
    (P := fun i r evs _ => (requests i).Answered id r evs) lawful (fun _ _ => stmt_within)
    (fun _ _ => Commits.disciplined) (fun _ _ _ _ _ h _ => h)
    (fun i => handle_commits s (requests i) db₀ i) h hs

/-- What every command keeps holds in all states of a run. -/
theorem run_preserves {I : Db → Prop}
    (hdoes : ∀ i a db reply change records,
      Does s (requests i).env a db (requests i).command reply change records → I db →
        I (change.apply db))
    (haudits : ∀ db records, I db → I (db.appendAudits records)) (h₀ : I db₀)
    (h : Run database.exec ⟨World.ofDb db₀, fun i => s.handle (requests i)⟩ tr c) :
    I c.world.db := by
  induction h with
  | nil => exact h₀
  | snoc init hs ih =>
    rcases (step_commits init hs).label_cases with
      ⟨_, ⟨a, reply, change, records, hcommit⟩, hw⟩ | ⟨_, hsame⟩
    · rw [hw, db_commit, show _ = (change.apply _).appendAudits records from hcommit.view]
      exact haudits _ _ (hdoes _ _ _ _ _ _ hcommit.does ih)
    · rw [hsame]
      exact ih

/-- A command that has returned has committed what it returned. -/
theorem returned_answered
    (h : Run database.exec ⟨World.ofDb db₀, fun i => s.handle (requests i)⟩ tr c)
    (hret : c.prog i = .ret reply) :
    (requests i).wrote reply (own i tr) ∧ ⟨.commit, .ok ()⟩ ∈ own i tr :=
  (run_returned (D := database) (C := fun i => Commits s (requests i) db₀ i)
    (B := fun _ _ _ => True) (P := fun i r evs _ => (requests i).Answered id r evs) lawful
    (fun _ _ => stmt_within) (fun _ _ => Commits.disciplined) (fun _ _ _ _ _ h _ => h)
    (fun i => handle_commits s (requests i) db₀ i) h).1 reply hret

end Runs

end Valor.RuntimeIdentity
