/-
  Management identity: what a command commits.

  `Does` is a command as one atomic step: how it changes the rows and which audit records it
  appends, on the database of its commit. Run among others, a command commits just that
  (`handle_acts`). The commands that revoke and disable own the management state from
  before their reads, so what they have read of a credential or a principal is still so at
  their commit; a command without it may have read its principal before.

  `Later` says what no commit takes back. A revocation and a disablement are among it: both
  are written only to rows that have none.

  With `api` every command but the bootstrap runs only when some principal exists. `before`
  is what the thread of a command has done already.
-/
import Valor.Lib.Transaction
import Valor.ManagementIdentity.Rules

namespace Valor.ManagementIdentity

open Python Postgres ManagementAudit Prog Interleave ReadCommitted

/-! ## Growth -/

/-- What no change takes back in the row of a principal. -/
structure LaterPrincipal (r r' : ManagementPrincipalRow) : Prop where
  displayName : r'.displayName = r.displayName
  canManagePrincipals : r'.canManagePrincipals = r.canManagePrincipals
  createdAt : r'.createdAt = r.createdAt
  disabledAt : r.disabledAt.isSome → r'.disabledAt = r.disabledAt

theorem LaterPrincipal.refl (r : ManagementPrincipalRow) : LaterPrincipal r r :=
  ⟨rfl, rfl, rfl, fun _ => rfl⟩

theorem LaterPrincipal.trans {a b c : ManagementPrincipalRow} (h : LaterPrincipal a b)
    (h' : LaterPrincipal b c) : LaterPrincipal a c := by
  refine ⟨h'.displayName.trans h.displayName, h'.canManagePrincipals.trans h.canManagePrincipals,
    h'.createdAt.trans h.createdAt, fun hsome => ?_⟩
  have hb := h.disabledAt hsome
  exact (h'.disabledAt (by rwa [hb])).trans hb

/-- What no change takes back in the row of a management credential: also not the time of its
    revocation. -/
structure LaterManagementCredential (c c' : ManagementCredentialRow) : Prop extends
    LaterCredential c c' where
  revocation : c.revokedAt.isSome → c'.revokedAt = c.revokedAt

theorem LaterManagementCredential.refl (c : ManagementCredentialRow) :
    LaterManagementCredential c c :=
  ⟨.refl c, fun _ => rfl⟩

theorem LaterManagementCredential.trans {a b c : ManagementCredentialRow}
    (h : LaterManagementCredential a b) (h' : LaterManagementCredential b c) :
    LaterManagementCredential a c := by
  refine ⟨h.toLaterCredential.trans h'.toLaterCredential, fun hsome => ?_⟩
  have hb := h.revocation hsome
  exact (h'.revocation (by rwa [hb])).trans hb

/-- From an earlier committed database to a later one. -/
structure Later (db db' : Db) : Prop where
  principals : ∀ k r, db.principals.find? k = some r →
    ∃ r', db'.principals.find? k = some r' ∧ LaterPrincipal r r'
  credentials : ∀ k c, db.credentials.find? k = some c →
    ∃ c', db'.credentials.find? k = some c' ∧ LaterManagementCredential c c'
  tenants : db'.tenants = db.tenants
  audits : db.audits <+: db'.audits

theorem Later.refl (db : Db) : Later db db :=
  ⟨fun _ r h => ⟨r, h, .refl r⟩, fun _ c h => ⟨c, h, .refl c⟩, rfl, List.prefix_rfl⟩

theorem Later.trans {a b c : Db} (h : Later a b) (h' : Later b c) : Later a c := by
  refine ⟨?_, ?_, h'.tenants.trans h.tenants, h.audits.trans h'.audits⟩
  · intro k r hr
    obtain ⟨r₁, hr₁, h₁⟩ := h.principals k r hr
    obtain ⟨r₂, hr₂, h₂⟩ := h'.principals k r₁ hr₁
    exact ⟨r₂, hr₂, h₁.trans h₂⟩
  · intro k x hx
    obtain ⟨x₁, hx₁, h₁⟩ := h.credentials k x hx
    obtain ⟨x₂, hx₂, h₂⟩ := h'.credentials k x₁ hx₁
    exact ⟨x₂, hx₂, h₁.trans h₂⟩

/-- With `api`, some principal exists. -/
def Admits (api : Prop) (db : Db) : Prop := api → db.principals.rows ≠ []

/-- What the owner of the management state is safe from. -/
structure Still (api : Prop) (db db' : Db) : Prop where
  disabledAt : ∀ k r, db.principals.find? k = some r →
    ∃ r', db'.principals.find? k = some r' ∧ r'.disabledAt = r.disabledAt
  revokedAt : ∀ k c, db.credentials.find? k = some c →
    ∃ c', db'.credentials.find? k = some c' ∧ c'.revokedAt = c.revokedAt
  first : ¬Admits api db → db'.principals = db.principals

theorem Still.refl (api : Prop) (db : Db) : Still api db db :=
  ⟨fun _ r h => ⟨r, h, rfl⟩, fun _ c h => ⟨c, h, rfl⟩, fun _ => rfl⟩

theorem Still.trans {api : Prop} {a b c : Db} (h : Still api a b) (h' : Still api b c) :
    Still api a c := by
  refine ⟨?_, ?_, ?_⟩
  · intro k r hr
    obtain ⟨r₁, hr₁, h₁⟩ := h.disabledAt k r hr
    obtain ⟨r₂, hr₂, h₂⟩ := h'.disabledAt k r₁ hr₁
    exact ⟨r₂, hr₂, h₂.trans h₁⟩
  · intro k x hx
    obtain ⟨x₁, hx₁, h₁⟩ := h.revokedAt k x hx
    obtain ⟨x₂, hx₂, h₂⟩ := h'.revokedAt k x₁ hx₁
    exact ⟨x₂, hx₂, h₂.trans h₁⟩
  · intro hnot
    have hb := h.first hnot
    have hnot' : ¬Admits api b := by
      unfold Admits at hnot ⊢
      rwa [hb]
    exact (h'.first hnot').trans hb

def discipline (api : Prop) : Discipline Db Lock where
  same := same
  still l db db' := l = .managementState → Still api db db'
  grows := Later

theorem lawful (api : Prop) : Lawful (discipline api) where
  same_refl := same_refl
  same_trans := same_trans
  still_refl _ db _ := Still.refl api db
  still_trans _ _ _ _ h h' hl := (h hl).trans (h' hl)
  grows_refl := .refl
  grows_trans _ _ _ := .trans

theorem Admits.later {api : Prop} {db db' : Db} (h : Admits api db) (hlater : Later db db') :
    Admits api db' := by
  intro hapi hnil
  obtain ⟨r, hr⟩ := List.exists_mem_of_ne_nil _ (h hapi)
  obtain ⟨r', hr', _⟩ := hlater.principals _ r (Table.mem_iff_find?.mp hr)
  have hmem : r' ∈ db'.principals.rows := (Table.find?_some hr').1
  rw [hnil] at hmem
  cases hmem

/-! ## Commands as atomic steps -/

/-- How a command changes the rows. The scopes that `set_scopes` deletes are those of the
    snapshot of its DELETE. -/
inductive Change where
  | bootstrapped (principal : ManagementPrincipalRow) (tenantIds : Finset Uuid)
      (credential : ManagementCredentialRow)
  | created (principal : ManagementPrincipalRow) (tenantIds : Finset Uuid)
  | issued (credential : ManagementCredentialRow)
  | scopes (principalId : Uuid) (seen : Db) (tenantIds : Finset Uuid)
  | revoked (credentialId : Uuid) (revokedAt : Option Utc)
  | disabled (principalId : Uuid) (disabledAt : Option Utc)

def Db.addPrincipal (db : Db) (row : ManagementPrincipalRow) (tenantIds : Finset Uuid) (xmin : Tid) :
    Db :=
  (db.insertPrincipal row).insertScopes row.principalId (tenantIds.sort (· ≤ ·)) xmin

/-- The change, made by the transaction `xmin`. -/
def Change.apply (xmin : Tid) : Change → Db → Db
  | bootstrapped principal tenantIds credential, db =>
      (db.addPrincipal principal tenantIds xmin).insertCredential credential
  | created principal tenantIds, db => db.addPrincipal principal tenantIds xmin
  | issued credential, db => db.insertCredential credential
  | scopes principalId seen tenantIds, db =>
      (db.deleteScopes principalId seen).insertScopes principalId (tenantIds.sort (· ≤ ·)) xmin
  | revoked credentialId revokedAt, db => db.revokeCredential credentialId revokedAt
  | disabled principalId disabledAt, db => db.disablePrincipal principalId disabledAt

def Db.appendAudits (db : Db) (records : List Record) : Db :=
  { db with audits := db.audits ++ records }

namespace Service

variable (s : Service) (env : Env)

/-- The record of `_audit_principal`. -/
def principalRecord (actorId : Uuid) (after : ManagementPrincipal)
    (before : Option ManagementPrincipal) (action : Action) : Except ValueError Record :=
  Record.new env.auditId actorId.str none action .managementPrincipal after.principalId .succeeded
    (.aware env.now) (before.map (principalFingerprint s.sha256)) (principalFingerprint s.sha256 after)

/-- The record of `_audit_credential`. -/
def CredentialRecord (actorId : Uuid) (after : ManagementCredential)
    (before : Option ManagementCredential) (action : Action) (record : Record) : Prop :=
  ∃ beforeFingerprint afterFingerprint,
    before.mapM (credentialFingerprint s.sha256) = .ok beforeFingerprint ∧
    credentialFingerprint s.sha256 after = .ok afterFingerprint ∧
    Record.new env.auditId actorId.str none action .managementCredential after.credentialId .succeeded
      (.aware env.now) beforeFingerprint afterFingerprint = .ok record

/-- `_new_credential` gives this credential. -/
def NewCredential (principalId : Uuid) (label : Option String) (expiresAt : Option Datetime)
    (credential : ManagementCredential) : Prop :=
  Credential.new env.credentialId principalId (s.hmacSha256 s.pepper env.secret) label
    (.aware env.now) expiresAt none = .ok credential

end Service

/-- The command succeeds on `db` with this change and these records, having read `read` of
    its principal. -/
inductive Does (s : Service) (api : Prop) (env : Env) (read : Option ManagementPrincipal) (db : Db) :
    Command → Change → List Record → Prop
  | bootstrapped {c principal credential row crow}
      (authentic : c.suppliedToken = s.bootstrapToken)
      (first : api → db.principals.rows = [])
      (principal_ok : ManagementPrincipal.new env.principalId c.displayName true c.tenantIds
        (.aware env.now) none = .ok principal)
      (credential_ok : s.NewCredential env principal.principalId (some "bootstrap") none credential)
      (row_ok : ManagementPrincipalRow.ofPrincipal principal = .ok row)
      (crow_ok : CredentialRow.ofCredential credential = .ok crow)
      (free : db.principals.find? principal.principalId = none)
      (credential_free : db.credentials.find? credential.credentialId = none) :
      Does s api env read db (.bootstrap c) (.bootstrapped row principal.tenantIds crow) []
  | created {c principal row record}
      (actor : c.actor.canManagePrincipals = true)
      (principal_ok : ManagementPrincipal.new env.principalId c.displayName c.canManagePrincipals
        c.tenantIds (.aware env.now) none = .ok principal)
      (row_ok : ManagementPrincipalRow.ofPrincipal principal = .ok row)
      (record_ok : s.principalRecord env c.actor.principalId principal none
        .managementPrincipalCreated = .ok record)
      (free : db.principals.find? principal.principalId = none) :
      Does s api env read db (.createPrincipal c) (.created row principal.tenantIds) [record]
  | issued {c principal credential crow record}
      (actor : c.actor.canManagePrincipals = true)
      (expiry : Service.checkExpiry env.now c.expiresAt = .ret ())
      (found : read = some principal)
      (active : principal.isActive = true)
      (credential_ok : s.NewCredential env principal.principalId c.label c.expiresAt credential)
      (crow_ok : CredentialRow.ofCredential credential = .ok crow)
      (record_ok : s.CredentialRecord env c.actor.principalId credential none
        .managementCredentialIssued record)
      (free : db.credentials.find? credential.credentialId = none)
      (owner : db.principals.find? credential.principalId ≠ none) :
      Does s api env read db (.issueCredential c) (.issued crow) [record]
  | scopesSet {c principal seen record}
      (actor : c.actor.canManagePrincipals = true)
      (found : read = some principal)
      (record_ok : s.principalRecord env c.actor.principalId (principal.withTenantScopes c.tenantIds)
        (some principal) .managementPrincipalScopesSet = .ok record) :
      Does s api env read db (.setScopes c) (.scopes principal.principalId seen c.tenantIds) [record]
  | revoked {c principal credential revoked revokedAt record}
      (actor : c.actor.canManagePrincipals = true)
      (found : read = some principal)
      (stored : db.getCredential c.credentialId = some credential)
      (owns : credential.principalId = principal.principalId)
      (unrevoked : credential.revokedAt = none)
      (revoked_ok : credential.revoke env.now = .ok revoked)
      (column_ok : revoked.revokedAt.mapM timestamptz = .ok revokedAt)
      (record_ok : s.CredentialRecord env c.actor.principalId revoked (some credential)
        .managementCredentialRevoked record) :
      Does s api env read db (.revokeCredential c) (.revoked revoked.credentialId revokedAt) [record]
  | disabled {c principal disabled disabledAt row record}
      (actor : c.actor.canManagePrincipals = true)
      (found : read = some principal)
      (stored : db.principals.find? c.principalId = some row)
      (same : ∃ tenantIds, principal = principalFromRow row tenantIds)
      (active : principal.isActive = true)
      (disabled_ok : principal.disable env.now = .ok disabled)
      (column_ok : disabled.disabledAt.mapM timestamptz = .ok disabledAt)
      (record_ok : s.principalRecord env c.actor.principalId disabled (some principal)
        .managementPrincipalDisabled = .ok record) :
      Does s api env read db (.disablePrincipal c) (.disabled disabled.principalId disabledAt) [record]

/-! ## What the constructors give -/

section Values

variable {p q : ManagementPrincipal} {row : ManagementPrincipalRow} {at' : Aware}

theorem principal_new_ok {principalId : Uuid} {displayName : String} {canManage : Bool}
    {tenantIds : Finset Uuid} {createdAt : Datetime}
    (h : ManagementPrincipal.new principalId displayName canManage tenantIds createdAt none = .ok p) :
    p.principalId = principalId ∧ p.canManagePrincipals = canManage ∧ p.tenantIds = tenantIds ∧
      p.disabledAt = none := by
  unfold ManagementPrincipal.new at h
  split at h
  · cases h
  · obtain ⟨_, _, h⟩ := Except.bind_ok_cases h
    obtain ⟨d, hd, h⟩ := Except.bind_ok_cases h
    cases hd
    cases h
    exact ⟨rfl, rfl, rfl, rfl⟩

theorem principal_disable_ok (h : p.disable at' = .ok q) :
    q.principalId = p.principalId ∧ q.disabledAt = some at' := by
  unfold ManagementPrincipal.disable at h
  split at h
  · cases h
    exact ⟨rfl, rfl⟩
  · cases h

theorem credential_revoke_ok {c d : Credential} (h : c.revoke at' = .ok d) :
    d.credentialId = c.credentialId ∧ d.revokedAt = some at' := by
  unfold Credential.revoke at h
  split at h
  · cases h
  · cases h
    exact ⟨rfl, rfl⟩

theorem find?_of_getCredential {db : Db} {k : Uuid} {c : ManagementCredential}
    (h : db.getCredential k = some c) :
    ∃ row, db.credentials.find? k = some row ∧ row.credentialId = k ∧ c = credentialFromRow row := by
  obtain ⟨row, hrow, rfl⟩ := Option.map_eq_some_iff.mp h
  exact ⟨row, hrow, (Table.find?_some hrow).2, rfl⟩

theorem unrevoked_of_eq {c : ManagementCredential} {row : ManagementCredentialRow}
    (h : c = credentialFromRow row) (hc : c.revokedAt = none) : row.revokedAt = none := by
  rw [h] at hc
  exact Option.map_eq_none_iff.mp hc

theorem find?_of_getPrincipal {db : Db} {k : Uuid} (h : db.getPrincipal k = some p) :
    ∃ row, db.principals.find? k = some row ∧ row.principalId = k ∧
      p = principalFromRow row (db.scopesOf k) := by
  obtain ⟨row, hrow, rfl⟩ := Option.map_eq_some_iff.mp h
  exact ⟨row, hrow, (Table.find?_some hrow).2, rfl⟩

theorem isActive_principalFromRow {tenantIds : Finset Uuid} :
    (principalFromRow row tenantIds).isActive = row.disabledAt.isNone := by
  simp [ManagementPrincipal.isActive, principalFromRow]

/-- The records about principals. -/
theorem principalRecord_ok {s : Service} {env : Env} {actorId : Uuid} {after : ManagementPrincipal}
    {before : Option ManagementPrincipal} {action : Action} {record : Record}
    (h : s.principalRecord env actorId after before action = .ok record) :
    record.About action after.principalId ∧
      record.beforeFingerprint = before.map (principalFingerprint s.sha256) ∧
      record.afterFingerprint = some (principalFingerprint s.sha256 after) := by
  obtain ⟨_, ha, _, hid, _, hbefore, hafter⟩ := Record.new_ok h
  exact ⟨⟨ha, hid⟩, hbefore, hafter⟩

/-- The records about credentials. -/
theorem credentialRecord_ok {s : Service} {env : Env} {actorId : Uuid} {after : ManagementCredential}
    {before : Option ManagementCredential} {action : Action} {record : Record}
    (h : s.CredentialRecord env actorId after before action record) :
    record.About action after.credentialId ∧
      before.mapM (credentialFingerprint s.sha256) = .ok record.beforeFingerprint ∧
      ∃ f, credentialFingerprint s.sha256 after = .ok f ∧ record.afterFingerprint = some f := by
  obtain ⟨beforeFingerprint, afterFingerprint, hbefore, hafter, hrecord⟩ := h
  obtain ⟨_, ha, _, hid, _, hb, hf⟩ := Record.new_ok hrecord
  exact ⟨⟨ha, hid⟩, hb ▸ hbefore, _, hafter, hf⟩

end Values

/-! ## Commits grow -/

section Growth

variable {db : Db}

theorem later_insertPrincipal (row : ManagementPrincipalRow) : Later db (db.insertPrincipal row) := by
  refine ⟨fun k r hr => ⟨r, ?_, .refl r⟩, fun k c hc => ⟨c, hc, .refl c⟩, rfl, List.prefix_rfl⟩
  have hfind := Table.find?_insert db.principals row k
  rw [hr] at hfind
  exact hfind

theorem later_insertCredential (row : ManagementCredentialRow) :
    Later db (db.insertCredential row) := by
  refine ⟨fun k r hr => ⟨r, hr, .refl r⟩, fun k c hc => ⟨c, ?_, .refl c⟩, rfl, List.prefix_rfl⟩
  have hfind := Table.find?_insert db.credentials row k
  rw [hc] at hfind
  exact hfind

/-- A change of scopes or evidence only. -/
theorem later_of_eq {db' : Db} (hp : db'.principals = db.principals)
    (hc : db'.credentials = db.credentials) (ht : db'.tenants = db.tenants)
    (ha : db.audits <+: db'.audits) : Later db db' :=
  ⟨fun _ r hr => ⟨r, hp ▸ hr, .refl r⟩, fun _ c h => ⟨c, hc ▸ h, .refl c⟩, ht, ha⟩

theorem later_insertScopes (p : Uuid) (tenantIds : List Uuid) (xmin : Tid) :
    Later db (db.insertScopes p tenantIds xmin) :=
  later_of_eq rfl rfl rfl List.prefix_rfl

theorem later_deleteScopes (p : Uuid) (seen : Db) : Later db (db.deleteScopes p seen) :=
  later_of_eq rfl rfl rfl List.prefix_rfl

theorem later_addPrincipal (row : ManagementPrincipalRow) (tenantIds : Finset Uuid) (xmin : Tid) :
    Later db (db.addPrincipal row tenantIds xmin) :=
  (later_insertPrincipal row).trans (later_insertScopes ..)

theorem later_appendAudits (records : List Record) : Later db (db.appendAudits records) :=
  later_of_eq rfl rfl rfl (List.prefix_append ..)

theorem still_appendAudits {api : Prop} (records : List Record) :
    Still api db (db.appendAudits records) :=
  ⟨fun _ r hr => ⟨r, hr, rfl⟩, fun _ c h => ⟨c, h, rfl⟩, fun _ => rfl⟩

/-- The revocation of a credential that is not revoked. -/
theorem later_revokeCredential {k : Uuid} {row : ManagementCredentialRow} {revokedAt : Option Utc}
    (hrow : db.credentials.find? k = some row) (h : row.revokedAt = none) (hsome : revokedAt.isSome) :
    Later db (db.revokeCredential k revokedAt) := by
  refine ⟨fun k r hr => ⟨r, hr, .refl r⟩, fun q x hx => ?_, rfl, List.prefix_rfl⟩
  have hfind := Table.find?_modify db.credentials k (fun r => { r with revokedAt }) (fun _ => rfl) q
  rw [hx] at hfind
  by_cases hq : q = k
  · obtain rfl : row = x := by
      rw [hq, hrow] at hx
      exact Option.some.inj hx
    refine ⟨{ row with revokedAt }, hfind.trans (by simp [hq]),
      ⟨rfl, rfl, fun _ => hsome, rfl, rfl, rfl⟩, fun hr => ?_⟩
    rw [h] at hr
    cases hr
  · exact ⟨x, hfind.trans (by simp [hq]), .refl x⟩

/-- The disablement of an active principal. -/
theorem later_disablePrincipal {k : Uuid} {row : ManagementPrincipalRow} {disabledAt : Option Utc}
    (hrow : db.principals.find? k = some row) (h : row.disabledAt = none) :
    Later db (db.disablePrincipal k disabledAt) := by
  refine ⟨fun q x hx => ?_, fun k c hc => ⟨c, hc, .refl c⟩, rfl, List.prefix_rfl⟩
  have hfind := Table.find?_modify db.principals k (fun r => { r with disabledAt }) (fun _ => rfl) q
  rw [hx] at hfind
  by_cases hq : q = k
  · obtain rfl : row = x := by
      rw [hq, hrow] at hx
      exact Option.some.inj hx
    refine ⟨{ row with disabledAt }, hfind.trans (by simp [hq]), rfl, rfl, rfl, fun hr => ?_⟩
    rw [h] at hr
    cases hr
  · exact ⟨x, hfind.trans (by simp [hq]), .refl x⟩

variable {s : Service} {api : Prop} {env : Env} {read : Option ManagementPrincipal} {command : Command}
  {change : Change} {records : List Record} {t : Tid}

theorem Does.later (h : Does s api env read db command change records) :
    Later db (change.apply t db) := by
  cases h with
  | bootstrapped => exact (later_addPrincipal ..).trans (later_insertCredential _)
  | created => exact later_addPrincipal ..
  | issued => exact later_insertCredential _
  | scopesSet => exact (later_deleteScopes ..).trans (later_insertScopes ..)
  | revoked _ _ stored _ unrevoked revoked_ok column_ok _ =>
    obtain ⟨row, hrow, hkey, hc⟩ := find?_of_getCredential stored
    obtain ⟨hid, hsome⟩ := credential_revoke_ok revoked_ok
    have hsome' := Except.isSome_mapM column_ok
    rw [hsome] at hsome'
    have hk := hid.trans ((congrArg Credential.credentialId hc).trans hkey)
    exact later_revokeCredential (show db.credentials.find? _ = some row from hk ▸ hrow)
      (unrevoked_of_eq hc unrevoked) hsome'
  | disabled _ _ stored hsame active disabled_ok column_ok _ =>
    obtain ⟨tenantIds, hp⟩ := hsame
    have hk := (principal_disable_ok disabled_ok).1.trans
      ((congrArg ManagementPrincipal.principalId hp).trans (Table.find?_some stored).2)
    rw [hp, isActive_principalFromRow] at active
    exact later_disablePrincipal (hk ▸ stored) (by simpa using active)

/-- A command that does not own the management state leaves what its owner relies on. -/
theorem Does.still (h : Does s api env read db command change records)
    (hcommand : (∃ c, command = .createPrincipal c) ∨ (∃ c, command = .issueCredential c) ∨
      ∃ c, command = .setScopes c) (hadmits : Admits api db) :
    Still api db (change.apply t db) := by
  have hfirst : ∀ {P : Prop}, ¬Admits api db → P := fun hnot => absurd hadmits hnot
  cases h with
  | bootstrapped => simp at hcommand
  | @created c principal row =>
    refine ⟨fun k r hr => ⟨r, ?_, rfl⟩, fun k x hx => ⟨x, hx, rfl⟩, hfirst⟩
    have hfind := Table.find?_insert db.principals row k
    rw [hr] at hfind
    exact hfind
  | @issued c principal credential crow =>
    refine ⟨fun k r hr => ⟨r, hr, rfl⟩, fun k x hx => ⟨x, ?_, rfl⟩, hfirst⟩
    have hfind := Table.find?_insert db.credentials crow k
    rw [hx] at hfind
    exact hfind
  | scopesSet => exact ⟨fun k r hr => ⟨r, hr, rfl⟩, fun k x hx => ⟨x, hx, rfl⟩, hfirst⟩
  | revoked => simp at hcommand
  | disabled => simp at hcommand

end Growth

/-! ## Commands among others -/

abbrev StoreEvent := Event (Op Sql) (Op.Res Sql.Res) Error

/-- The commands that lock the management state. -/
def Command.guarded : Command → Bool
  | .bootstrap _ | .revokeCredential _ | .disablePrincipal _ => true
  | .createPrincipal _ | .issueCredential _ | .setScopes _ => false

/-- The command has read its principal, if it has one. -/
def Command.Reads (read : Option ManagementPrincipal) (evs : List StoreEvent) : Command → Prop
  | .issueCredential c => ⟨.sql (.principalsGet c.principalId), .ok read⟩ ∈ evs
  | .setScopes c => ⟨.sql (.principalsGet c.principalId), .ok read⟩ ∈ evs
  | .revokeCredential c => ⟨.sql (.principalsGet c.principalId), .ok read⟩ ∈ evs
  | .disablePrincipal c => ⟨.sql (.principalsGet c.principalId), .ok read⟩ ∈ evs
  | .bootstrap _ | .createPrincipal _ => True

/-- A world whose commit by thread `i` is its command as an atomic step. -/
structure Committing (s : Service) (api : Prop) (r : Request) (before : List StoreEvent) (i : Tid)
    (v : Traced Db Lock Sql Sql.Res Error) (read : Option ManagementPrincipal) (change : Change)
    (records : List Record) : Prop where
  does : Does s api r.env read v.1.db r.command change records
  view : v.1.view i = (change.apply i v.1.db).appendAudits records
  admitted : r.command.guarded = false → Admits api v.1.db
  owned : r.command.guarded = true → v.1.owner .managementState = some i
  observed : ∃ evs, own i v.2 = before ++ evs ∧ ⟨.commit, .ok ()⟩ ∉ evs ∧ r.command.Reads read evs

def Commits (s : Service) (api : Prop) (r : Request) (before : List StoreEvent) (i : Tid)
    (v : Traced Db Lock Sql Sql.Res Error) : Prop :=
  ∃ read change records, Committing s api r before i v read change records

theorem Commits.disciplined {s : Service} {api : Prop} {r : Request} {before : List StoreEvent}
    {i : Tid} {v : Traced Db Lock Sql Sql.Res Error} (h : Commits s api r before i v) :
    Disciplined (discipline api) i v.1 := by
  obtain ⟨read, change, records, h⟩ := h
  refine ⟨?_, fun l hl hstate => ?_⟩
  · rw [h.view]
    exact h.does.later.trans (later_appendAudits records)
  · have hunguarded : r.command.guarded = false := by
      by_contra hguarded
      exact hl (hstate ▸ h.owned (by simpa using hguarded))
    have hcommand : (∃ c, r.command = .createPrincipal c) ∨ (∃ c, r.command = .issueCredential c) ∨
        ∃ c, r.command = .setScopes c := by
      cases hr : r.command with
      | createPrincipal c => exact .inl ⟨c, rfl⟩
      | issueCredential c => exact .inr (.inl ⟨c, rfl⟩)
      | setScopes c => exact .inr (.inr ⟨c, rfl⟩)
      | bootstrap c => simp [hr, Command.guarded] at hunguarded
      | revokeCredential c => simp [hr, Command.guarded] at hunguarded
      | disablePrincipal c => simp [hr, Command.guarded] at hunguarded
    rw [h.view]
    exact (h.does.still hcommand (h.admitted hunguarded)).trans (still_appendAudits records)

/-- What has been issued is stored. -/
structure Service.Issued (s : Service) (env : Env) (issued : IssuedCredential) (db : Db) : Prop where
  credential_ok : ∃ principalId label expiresAt,
    s.NewCredential env principalId label expiresAt issued.credential
  token : issued.bearerToken = "valor_mgmt_" ++ env.credentialId.str ++ "_" ++ env.secret
  stored : ∃ row row', CredentialRow.ofCredential issued.credential = .ok row ∧
    db.credentials.find? issued.credential.credentialId = some row' ∧
    LaterManagementCredential row row'

/-- What a reply says about the store. -/
def Service.Shows (s : Service) (r : Request) : Reply → Db → Prop
  | .issued issued, db => s.Issued r.env issued db
  | .bootstrapped _ issued, db => s.Issued r.env issued db
  | .principal _, _ | .credential _, _ => True

/-- What an outcome says: a command that has returned has committed. -/
def Service.Answered (s : Service) (r : Request) (before : List StoreEvent) :
    Except Error Reply → List StoreEvent → Db → Prop
  | .ok reply, evs, db =>
      (∃ later, evs = before ++ later ∧ ⟨.commit, .ok ()⟩ ∈ later) ∧ s.Shows r reply db
  | .error _, _, _ => True

theorem Service.Issued.later {s : Service} {env : Env} {issued : IssuedCredential} {db db' : Db}
    (h : s.Issued env issued db) (hlater : Later db db') : s.Issued env issued db' := by
  obtain ⟨row, row', hrow, hfind, hrow'⟩ := h.stored
  obtain ⟨row'', hfind', hrow''⟩ := hlater.credentials _ row' hfind
  exact ⟨h.credential_ok, h.token, row, row'', hrow, hfind', hrow'.trans hrow''⟩

theorem Service.Shows.later {s : Service} {r : Request} {reply : Reply} {db db' : Db}
    (h : s.Shows r reply db) (hlater : Later db db') : s.Shows r reply db' := by
  cases reply with
  | issued => exact Service.Issued.later h hlater
  | bootstrapped => exact Service.Issued.later h hlater
  | principal => trivial
  | credential => trivial

theorem Service.Answered.later {s : Service} {r : Request} {before evs : List StoreEvent}
    {o : Except Error Reply} {db db' : Db} (h : s.Answered r before o evs db) (hlater : Later db db') :
    s.Answered r before o evs db' := by
  cases o with
  | ok => exact ⟨h.1, h.2.later hlater⟩
  | error => trivial

/-- More events, after the command. -/
theorem Service.Answered.append {s : Service} {r : Request} {before evs : List StoreEvent}
    {o : Except Error Reply} {db : Db} (h : s.Answered r before o evs db) (evs' : List StoreEvent) :
    s.Answered r before o (evs ++ evs') db := by
  cases o with
  | ok =>
    obtain ⟨⟨later, rfl, hcommit⟩, hshows⟩ := h
    exact ⟨⟨later ++ evs', List.append_assoc .., List.mem_append_left _ hcommit⟩, hshows⟩
  | error => trivial

section Parts

variable {sqlNow : Tid → Utc} {s : Service} {api : Prop} {r : Request} {db₀ : Db}
  {before : List StoreEvent} {i : Tid} {v : Traced Db Lock Sql Sql.Res Error} {evs : List StoreEvent}
  {ws : List (Db → Db)} {ls : List Lock} {F : Db → Prop} {α : Type} {f : α → Reply}

/-- Thread `i` runs `p`, a part of the request `r`. -/
abbrev Acts (sqlNow : Tid → Utc) (s : Service) (api : Prop) (r : Request) (db₀ : Db)
    (before : List StoreEvent) (i : Tid) (f : α → Reply) (p : Program α)
    (v : Traced Db Lock Sql Sql.Res Error) : Prop :=
  Follows (database sqlNow) (discipline api) db₀ (Commits s api r before i) (fun _ _ => True) i
    (fun o evs d => s.Answered r before (o.map f) evs d) p v

theorem acts_raise {e : Error} : Acts sqlNow s api r db₀ before i f (.raise e) v :=
  safe_raise.mpr trivial

theorem acts_raiseWhen {c : Prop} [Decidable c] {e : Error} {k : Unit → Program α}
    (hk : ¬c → Acts sqlNow s api r db₀ before i f (k ()) v) :
    Acts sqlNow s api r db₀ before i f ((raiseWhen c e).bind k) v :=
  safe_raiseWhen (fun _ _ => trivial) hk

theorem acts_unitOfWork {body : Program α} (h : Acts sqlNow s api r db₀ before i f body v) :
    Acts sqlNow s api r db₀ before i f (unitOfWork body) v :=
  follows_unitOfWork (fun _ _ _ => trivial) (fun _ _ _ h => h.append _)
    (fun _ _ _ _ h hlater => h.later hlater) h

theorem acts_query {q : Sql} {act : Choice → Db → Except Error q.Res} {k : q.Res → Program α}
    (hq : ∀ ch, stmt (sqlNow i) ch i q = .query (act ch)) (hF : Lasting (discipline api) ls F)
    (h : Knows i evs ws ls F v)
    (hk : ∀ v a ch, Knows i (evs ++ [⟨.sql q, .ok a⟩]) ws ls F v →
      act ch (ws.foldl (fun d f => f d) v.1.db) = .ok a →
      Acts sqlNow s api r db₀ before i f (k a) v) :
    Acts sqlNow s api r db₀ before i f ((sql q).bind k) v :=
  follows_query hq hF h (fun _ _ => trivial) (fun _ _ _ _ _ => trivial)
    fun v a ch h _ => hk v a ch h

theorem acts_change {q : Sql} {locks : Db → Db → List Lock}
    {act : Db → Db → Except Error (q.Res × (Db → Db))} {k : q.Res → Program α}
    (hq : ∀ ch, stmt (sqlNow i) ch i q = .change locks act) (hF : Lasting (discipline api) ls F)
    (h : Knows i evs ws ls F v)
    (hk : ∀ v a g seen, Knows i (evs ++ [⟨.sql q, .ok a⟩]) (ws ++ [g])
        (locks seen (ws.foldl (fun d f => f d) v.1.db) ++ ls) F v →
      act seen (ws.foldl (fun d f => f d) v.1.db) = .ok (a, g) →
      Acts sqlNow s api r db₀ before i f (k a) v) :
    Acts sqlNow s api r db₀ before i f ((sql q).bind k) v :=
  follows_change hq hF h (fun _ _ => trivial) (fun _ _ _ _ _ _ => trivial)
    fun v a g seen h _ => hk v a g seen h

theorem acts_requireTenants {tenantIds : Finset Uuid} {k : Unit → Program α}
    (hF : Lasting (discipline api) ls F) (h : Knows i (before ++ evs) ws ls F v)
    (hk : ∀ v evs', ⟨.commit, .ok ()⟩ ∉ evs' → Knows i (before ++ (evs ++ evs')) ws ls F v →
      Acts sqlNow s api r db₀ before i f (k ()) v) :
    Acts sqlNow s api r db₀ before i f ((Service.requireTenants tenantIds).bind k) v := by
  unfold Service.requireTenants
  split
  · rw [bind_eq, bind_assoc]
    refine acts_query (fun _ => rfl) hF h fun v found _ h _ => acts_raiseWhen fun _ => ?_
    refine hk v [⟨.sql (.tenantsAllExist tenantIds), .ok found⟩] (by simp) ?_
    rwa [← List.append_assoc]
  · exact hk v [] (by simp) (by rwa [List.append_nil])

theorem acts_auditsAppend {record : Record} {k : Unit → Program α}
    (hF : Lasting (discipline api) ls F) (h : Knows i evs ws ls F v)
    (hk : ∀ v, Knows i (evs ++ [⟨.sql (.auditsAppend record), .ok ()⟩])
      (ws ++ [fun db => db.appendAudit record]) ls F v →
      Acts sqlNow s api r db₀ before i f (k ()) v) :
    Acts sqlNow s api r db₀ before i f ((sql (.auditsAppend record)).bind k) v := by
  refine acts_change (fun _ => rfl) hF h fun v a g _ h ha => ?_
  cases ha
  exact hk v h

theorem acts_auditPrincipal {actor : Uuid} {after : ManagementPrincipal}
    {was : Option ManagementPrincipal} {action : Action} {k : Unit → Program α}
    (hF : Lasting (discipline api) ls F) (h : Knows i evs ws ls F v)
    (hk : ∀ v record, s.principalRecord r.env actor after was action = .ok record →
      Knows i (evs ++ [⟨.sql (.auditsAppend record), .ok ()⟩])
        (ws ++ [fun db => db.appendAudit record]) ls F v →
      Acts sqlNow s api r db₀ before i f (k ()) v) :
    Acts sqlNow s api r db₀ before i f ((s.auditPrincipal r.env actor after was action).bind k) v := by
  unfold Service.auditPrincipal
  rw [bind_eq, bind_assoc]
  exact safe_lift (fun _ _ => trivial) fun record hrecord =>
    acts_auditsAppend hF h fun v h => hk v record hrecord h

theorem acts_auditCredential {actor : Uuid} {after : ManagementCredential}
    {was : Option ManagementCredential} {action : Action} {k : Unit → Program α}
    (hF : Lasting (discipline api) ls F) (h : Knows i evs ws ls F v)
    (hk : ∀ v record, s.CredentialRecord r.env actor after was action record →
      Knows i (evs ++ [⟨.sql (.auditsAppend record), .ok ()⟩])
        (ws ++ [fun db => db.appendAudit record]) ls F v →
      Acts sqlNow s api r db₀ before i f (k ()) v) :
    Acts sqlNow s api r db₀ before i f ((s.auditCredential r.env actor after was action).bind k)
      v := by
  unfold Service.auditCredential
  simp only [bind_eq, bind_assoc]
  refine safe_lift (fun _ _ => trivial) fun beforeFingerprint hbefore => ?_
  refine safe_lift (fun _ _ => trivial) fun afterFingerprint hafter => ?_
  refine safe_lift (fun _ _ => trivial) fun record hrecord => ?_
  exact acts_auditsAppend hF h fun v h =>
    hk v record ⟨beforeFingerprint, afterFingerprint, hbefore, hafter, hrecord⟩ h

theorem acts_checkExpiry {now : Utc} {expiresAt : Option Datetime} {k : Unit → Program α}
    (hk : Service.checkExpiry now expiresAt = .ret () → Acts sqlNow s api r db₀ before i f (k ()) v) :
    Acts sqlNow s api r db₀ before i f ((Service.checkExpiry now expiresAt).bind k) v := by
  match expiresAt with
  | none => exact hk rfl
  | some (.naive ..) => exact acts_raise
  | some (.aware e) =>
    by_cases he : e ≤ now.toAware
    · simp only [Service.checkExpiry, raiseWhen, he, if_true]
      exact acts_raise
    · have hret : Service.checkExpiry now (some (.aware e)) = .ret () := by
        simp only [Service.checkExpiry, raiseWhen, he, if_false]
      rw [hret]
      exact hk hret

theorem acts_newCredential {principalId : Uuid} {label : Option String}
    {expiresAt : Option Datetime} {k : IssuedCredential → Program α}
    (hk : ∀ credential, s.NewCredential r.env principalId label expiresAt credential →
      Acts sqlNow s api r db₀ before i f
        (k ⟨credential, "valor_mgmt_" ++ r.env.credentialId.str ++ "_" ++ r.env.secret⟩) v) :
    Acts sqlNow s api r db₀ before i f ((s.newCredential r.env principalId label expiresAt).bind k)
      v := by
  unfold Service.newCredential
  simp only [bind_eq, bind_assoc]
  exact safe_lift (fun _ _ => trivial) fun credential hc => hk credential hc

/-- The INSERT of a principal with its scopes. -/
theorem acts_principalsAdd {p : ManagementPrincipal} {k : Unit → Program α}
    (hF : Lasting (discipline api) ls F) (h : Knows i evs ws ls F v)
    (hk : ∀ v row, ManagementPrincipalRow.ofPrincipal p = .ok row →
      Knows i (evs ++ [⟨.sql (.principalsAdd p), .ok ()⟩])
        (ws ++ [fun db => db.addPrincipal row p.tenantIds i])
        (.principal p.principalId :: scopeLocks p.principalId p.tenantIds ++ ls)
        (fun d => F d ∧
          (ws.foldl (fun d f => f d) d).principals.find? p.principalId = none) v →
      Acts sqlNow s api r db₀ before i f (k ()) v) :
    Acts sqlNow s api r db₀ before i f ((sql (.principalsAdd p)).bind k) v := by
  refine acts_change (fun _ => rfl) hF h fun v a g _ h ha => ?_
  obtain ⟨row, hrow, ha⟩ := Except.bind_ok_cases ha
  obtain ⟨_, hfree, ha⟩ := Except.bind_ok_cases ha
  obtain ⟨_, _, ha⟩ := Except.bind_ok_cases ha
  cases ha
  have hrow' := column_ok hrow
  refine hk v row hrow' ?_
  rw [show (fun db : Db => db.addPrincipal row p.tenantIds i) = fun db =>
    (db.insertPrincipal row).insertScopes p.principalId (p.tenantIds.sort (· ≤ ·)) i by
      unfold Db.addPrincipal
      rw [principalId_ofPrincipal hrow']]
  exact h.mono fun hf => ⟨hf, constraint_ok hfree⟩

theorem acts_credentialsAdd {credential : ManagementCredential} {k : Unit → Program α}
    (hF : Lasting (discipline api) ls F) (h : Knows i evs ws ls F v)
    (hk : ∀ v crow, CredentialRow.ofCredential credential = .ok crow →
      Knows i (evs ++ [⟨.sql (.credentialsAdd credential), .ok ()⟩])
        (ws ++ [fun db => db.insertCredential crow]) (.credential credential.credentialId :: ls)
        (fun d => F d ∧
          (ws.foldl (fun d f => f d) d).credentials.find? credential.credentialId = none ∧
          (ws.foldl (fun d f => f d) d).principals.find? credential.principalId ≠ none) v →
      Acts sqlNow s api r db₀ before i f (k ()) v) :
    Acts sqlNow s api r db₀ before i f ((sql (.credentialsAdd credential)).bind k) v := by
  refine acts_change (fun _ => rfl) hF h fun v a g _ h ha => ?_
  obtain ⟨crow, hrow, ha⟩ := Except.bind_ok_cases ha
  obtain ⟨_, hfree, ha⟩ := Except.bind_ok_cases ha
  obtain ⟨_, howner, ha⟩ := Except.bind_ok_cases ha
  cases ha
  exact hk v crow (column_ok hrow)
    (h.mono fun hf => ⟨hf, constraint_ok hfree, constraint_ok howner⟩)

/-- The UPDATE of `disable`. -/
theorem acts_principalsDisable {disabled : ManagementPrincipal} {k : Unit → Program α}
    (hF : Lasting (discipline api) ls F) (h : Knows i evs ws ls F v)
    (hk : ∀ v disabledAt, disabled.disabledAt.mapM timestamptz = .ok disabledAt →
      Knows i (evs ++ [⟨.sql (.principalsDisable disabled), .ok ()⟩])
        (ws ++ [fun db => db.disablePrincipal disabled.principalId disabledAt])
        (.principal disabled.principalId :: ls) F v →
      Acts sqlNow s api r db₀ before i f (k ()) v) :
    Acts sqlNow s api r db₀ before i f ((sql (.principalsDisable disabled)).bind k) v := by
  refine acts_change (fun _ => rfl) hF h fun v a g _ h ha => ?_
  obtain ⟨disabledAt, hcolumn, ha⟩ := Except.bind_ok_cases ha
  cases ha
  exact hk v disabledAt (column_ok hcolumn) h

/-- The UPDATE of `revoke`. -/
theorem acts_credentialsRevoke {revoked : ManagementCredential} {k : Unit → Program α}
    (hF : Lasting (discipline api) ls F) (h : Knows i evs ws ls F v)
    (hk : ∀ v revokedAt, revoked.revokedAt.mapM timestamptz = .ok revokedAt →
      Knows i (evs ++ [⟨.sql (.credentialsRevoke revoked), .ok ()⟩])
        (ws ++ [fun db => db.revokeCredential revoked.credentialId revokedAt])
        (.credential revoked.credentialId :: ls) F v →
      Acts sqlNow s api r db₀ before i f (k ()) v) :
    Acts sqlNow s api r db₀ before i f ((sql (.credentialsRevoke revoked)).bind k) v := by
  refine acts_change (fun _ => rfl) hF h fun v a g _ h ha => ?_
  obtain ⟨revokedAt, hcolumn, ha⟩ := Except.bind_ok_cases ha
  cases ha
  exact hk v revokedAt (column_ok hcolumn) h

/-- The commit: it is enough that the command is done on the database of that moment. -/
theorem acts_commit {b : α} (hF : Lasting (discipline api) ls F) (h : Knows i (before ++ evs) ws ls F v)
    (hevs : (⟨.commit, .ok ()⟩ : StoreEvent) ∉ evs)
    (howned : r.command.guarded = true → .managementState ∈ ls)
    (hdoes : ∀ db, F db → ∃ read change records,
      Does s api r.env read db r.command change records ∧
      ws.foldl (fun d f => f d) db = (change.apply i db).appendAudits records ∧
      (r.command.guarded = false → Admits api db) ∧ r.command.Reads read evs ∧
      s.Shows r (f b) (change.apply i db)) :
    Acts sqlNow s api r db₀ before i f (commit.bind fun _ => .ret b) v := by
  refine follows_commit hF h (fun _ _ => trivial) (fun _ _ _ => trivial) (fun v h _ => ?_) fun d hd => ?_
  · obtain ⟨read, change, records, hdoes, hview, hadmits, hreads, _⟩ := hdoes v.1.db h.fact
    refine ⟨read, change, records, hdoes, h.view.trans hview, hadmits, fun hguarded => ?_, evs, h.own,
      hevs, hreads⟩
    exact (h.owned _).mpr (howned hguarded)
  · obtain ⟨_, change, records, _, hview, _, _, hshows⟩ := hdoes d hd
    rw [hview]
    exact ⟨⟨evs ++ [⟨.commit, .ok ()⟩], List.append_assoc .., by simp⟩,
      hshows.later (later_appendAudits records)⟩

end Parts

/-! ## What a command knows until its commit -/

section Facts

variable {api : Prop} {ls : List Lock}

theorem lasting_admits : Lasting (discipline api) ls (Admits api) :=
  lasting_of_grows fun _ _ => Admits.later

/-- What the owner of the management state has seen is still so. -/
theorem lasting_seen (hl : .managementState ∈ ls) (seen : Db) :
    Lasting (discipline api) ls fun d => Later seen d ∧ Still api seen d :=
  .and (lasting_grows (lawful api) seen) (lasting_of_still hl fun _ _ h _ hs => h.trans (hs rfl))

/-- While its lock is held the management store stays without a principal. -/
theorem lasting_first (hl : .managementState ∈ ls) :
    Lasting (discipline api) ls fun d => api → d.principals.rows = [] := by
  refine lasting_of_still hl fun d d' h _ hs hapi => ?_
  have hnot : ¬Admits api d := fun hadmits => hadmits hapi (h hapi)
  rw [(hs rfl).first hnot]
  exact h hapi

/-- A free key that is locked stays free. -/
theorem lasting_free {k : Uuid} (hl : .principal k ∈ ls) :
    Lasting (discipline api) ls fun d => d.principals.find? k = none :=
  lasting_of_mem hl fun d d' h (hs : d'.principals.find? k = d.principals.find? k) => hs.trans h

theorem lasting_credential_free {k : Uuid} (hl : .credential k ∈ ls) :
    Lasting (discipline api) ls fun d => d.credentials.find? k = none :=
  lasting_of_mem hl fun d d' h (hs : d'.credentials.find? k = d.credentials.find? k) => hs.trans h

theorem lasting_owner (k : Uuid) :
    Lasting (discipline api) ls fun d => d.principals.find? k ≠ none := by
  refine lasting_of_grows fun d d' h hlater => ?_
  obtain ⟨row, hrow⟩ := Option.ne_none_iff_exists'.mp h
  obtain ⟨row', hrow', _⟩ := hlater.principals _ row hrow
  rw [hrow']
  exact Option.some_ne_none row'

/-- What has been inserted is found. -/
theorem issued_insertCredential {s : Service} {env : Env} {principalId : Uuid}
    {label : Option String} {expiresAt : Option Datetime} {credential : ManagementCredential}
    {crow : ManagementCredentialRow} {db : Db}
    (hcredential : s.NewCredential env principalId label expiresAt credential)
    (hcrow : CredentialRow.ofCredential credential = .ok crow)
    (hfree : db.credentials.find? credential.credentialId = none) :
    s.Issued env ⟨credential, "valor_mgmt_" ++ env.credentialId.str ++ "_" ++ env.secret⟩
      (db.insertCredential crow) := by
  refine ⟨⟨principalId, label, expiresAt, hcredential⟩, rfl, crow, crow, hcrow, ?_, .refl crow⟩
  have hid : crow.credentialId = credential.credentialId := (ofCredential_ok hcrow).1
  have hfind := Table.find?_insert db.credentials crow credential.credentialId
  rw [hfree] at hfind
  rw [if_pos (show Keyed.key crow = credential.credentialId from hid)] at hfind
  exact hfind

/-- The row of an active principal, read by the owner of the management state. -/
theorem row_of_still {seen db : Db} {k : Uuid} {row : ManagementPrincipalRow}
    (hrow : seen.principals.find? k = some row) (hlater : Later seen db) (hstill : Still api seen db) :
    db.principals.find? k = some row := by
  obtain ⟨r, hr, hlater⟩ := hlater.principals k row hrow
  obtain ⟨r', hr', hdisabled⟩ := hstill.disabledAt k row hrow
  obtain rfl : r = r' := Option.some.inj (hr.symm.trans hr')
  have hid : r.principalId = row.principalId :=
    (Table.find?_some hr).2.trans (Table.find?_some hrow).2.symm
  obtain ⟨hname, hcan, hcreated, _⟩ := hlater
  cases r
  cases row
  simp_all

/-- The row of a credential, read by the owner of the management state. -/
theorem credential_of_still {seen db : Db} {k : Uuid} {row : ManagementCredentialRow}
    (hrow : seen.credentials.find? k = some row) (hlater : Later seen db) (hstill : Still api seen db) :
    db.credentials.find? k = some row := by
  obtain ⟨c, hc, hlater⟩ := hlater.credentials k row hrow
  obtain ⟨c', hc', hrevoked⟩ := hstill.revokedAt k row hrow
  obtain rfl : c = c' := Option.some.inj (hc.symm.trans hc')
  have hid : c.credentialId = row.credentialId :=
    (Table.find?_some hc).2.trans (Table.find?_some hrow).2.symm
  obtain ⟨⟨hprincipal, hexpires, _, hverifier, hlabel, hcreated⟩, _⟩ := hlater
  cases c
  cases row
  simp_all

end Facts

/-! ## The commands -/

section Commands

variable {sqlNow : Tid → Utc} {s : Service} {api : Prop} {r : Request} {db₀ : Db}
  {before : List StoreEvent} {i : Tid} {v : Traced Db Lock Sql Sql.Res Error}

theorem acts_compareDigest {α : Type} {f : α → Reply} {a b : String} {k : Bool → Program α}
    (hk : Acts sqlNow s api r db₀ before i f (k (a = b)) v) :
    Acts sqlNow s api r db₀ before i f ((compareDigest a b).bind k) v := by
  unfold compareDigest
  split
  · exact hk
  · exact acts_raise

theorem bootstrap_acts {c : BootstrapCommand} (hr : r.command = .bootstrap c)
    (h : Knows i before [] [] (fun _ => True) v) :
    Acts sqlNow s api r db₀ before i (fun (p, issued) => .bootstrapped p issued)
      (s.bootstrap r.env c) v := by
  unfold Service.bootstrap
  refine acts_compareDigest (acts_raiseWhen fun hauthentic => acts_unitOfWork ?_)
  refine acts_change (fun _ => rfl) lasting_true h fun v a g _ h ha => ?_
  cases ha
  refine acts_query (fun _ => rfl) lasting_true h fun v count _ h hcount => ?_
  cases hcount
  refine acts_raiseWhen fun hzero => ?_
  have hnone : v.1.db.principals.rows = [] := List.length_eq_zero_iff.mp (not_not.mp hzero)
  have hstate : Lock.managementState ∈ [Lock.managementState] := List.mem_singleton_self _
  rw [List.append_assoc] at h
  refine acts_requireTenants (lasting_first hstate) (h.mono fun _ _ => hnone) fun v evs hevs h => ?_
  refine safe_lift (fun _ _ => trivial) fun p hp => ?_
  refine acts_newCredential fun credential hcredential => ?_
  refine acts_principalsAdd (lasting_first hstate) h fun v row hrow h => ?_
  have hfree : Lasting (discipline api)
      (.principal p.principalId :: scopeLocks p.principalId p.tenantIds ++ [.managementState])
      fun d => (api → d.principals.rows = []) ∧ d.principals.find? p.principalId = none :=
    .and (lasting_first (List.mem_append_right _ hstate)) (lasting_free (List.mem_cons_self ..))
  refine acts_credentialsAdd hfree h fun v crow hcrow h => ?_
  have hlast : Lasting (discipline api) (.credential credential.credentialId ::
      (.principal p.principalId :: scopeLocks p.principalId p.tenantIds ++ [.managementState]))
      fun d => ((api → d.principals.rows = []) ∧ d.principals.find? p.principalId = none) ∧
        d.credentials.find? credential.credentialId = none :=
    .and (.and (lasting_first (List.mem_cons_of_mem _ (List.mem_append_right _ hstate)))
      (lasting_free (List.mem_cons_of_mem _ (List.mem_cons_self ..))))
      (lasting_credential_free (List.mem_cons_self ..))
  simp only [List.append_assoc] at h
  refine acts_commit hlast (h.mono fun hf => ⟨hf.1, hf.2.1⟩) (by simp [hevs])
    (fun _ => List.mem_cons_of_mem _ (List.mem_append_right _ hstate)) fun db hd => ?_
  obtain ⟨⟨hfirst, hfree⟩, hcfree⟩ := hd
  refine ⟨none, .bootstrapped row p.tenantIds crow, [], ?_, ?_, ?_, ?_, ?_⟩
  · rw [hr]
    exact .bootstrapped (by simpa using hauthentic) hfirst hp hcredential hrow hcrow hfree hcfree
  · simp [Change.apply, Db.appendAudits]
  · simp [hr, Command.guarded]
  · simp [hr, Command.Reads]
  · exact issued_insertCredential hcredential hcrow hcfree

theorem createPrincipal_acts {c : CreatePrincipalCommand} (hr : r.command = .createPrincipal c)
    (h : Knows i before [] [] (Admits api) v) :
    Acts sqlNow s api r db₀ before i .principal (s.createPrincipal r.env c) v := by
  unfold Service.createPrincipal Service.requireManager
  refine acts_raiseWhen fun hactor => acts_unitOfWork ?_
  rw [← List.append_nil before] at h
  refine acts_requireTenants lasting_admits h fun v evs hevs h => ?_
  refine safe_lift (fun _ _ => trivial) fun p hp => ?_
  refine acts_principalsAdd lasting_admits h fun v row hrow h => ?_
  have hlast : Lasting (discipline api)
      (.principal p.principalId :: scopeLocks p.principalId p.tenantIds ++ [])
      fun d => Admits api d ∧ d.principals.find? p.principalId = none :=
    .and lasting_admits (lasting_free (List.mem_cons_self ..))
  refine acts_auditPrincipal hlast h fun v record hrecord h => ?_
  simp only [List.append_assoc] at h
  refine acts_commit hlast h (by simp [hevs]) (by simp [hr, Command.guarded]) fun db hd => ?_
  obtain ⟨hadmits, hfree⟩ := hd
  refine ⟨none, .created row p.tenantIds, [record], ?_, rfl, fun _ => hadmits, ?_, trivial⟩
  · rw [hr]
    exact .created (by simpa using hactor) hp hrow hrecord hfree
  · simp [hr, Command.Reads]

theorem issueCredential_acts {c : IssueCredentialCommand} (hr : r.command = .issueCredential c)
    (h : Knows i before [] [] (Admits api) v) :
    Acts sqlNow s api r db₀ before i .issued (s.issueCredential r.env c) v := by
  unfold Service.issueCredential Service.requireManager
  refine acts_raiseWhen fun hactor => acts_checkExpiry fun hexpiry => acts_unitOfWork ?_
  refine acts_query (fun _ => rfl) lasting_admits h fun v found _ h hfound => ?_
  cases found with
  | none => exact acts_raise
  | some p =>
    refine acts_raiseWhen fun hactive => acts_newCredential fun credential hcredential => ?_
    refine acts_credentialsAdd lasting_admits h fun v crow hcrow h => ?_
    have hlast : Lasting (discipline api) [.credential credential.credentialId]
        fun d => Admits api d ∧ d.credentials.find? credential.credentialId = none ∧
          d.principals.find? credential.principalId ≠ none :=
      .and lasting_admits (.and (lasting_credential_free (List.mem_cons_self ..)) (lasting_owner _))
    refine acts_auditCredential hlast h fun v record hrecord h => ?_
    simp only [List.append_assoc] at h
    refine acts_commit hlast h (by simp) (by simp [hr, Command.guarded])
      fun db hd => ?_
    obtain ⟨hadmits, hfree, howner⟩ := hd
    refine ⟨some p, .issued crow, [record], ?_, rfl, fun _ => hadmits, ?_, ?_⟩
    · rw [hr]
      exact .issued (by simpa using hactor) hexpiry rfl (by simpa using hactive) hcredential hcrow
        hrecord hfree howner
    · simp [hr, Command.Reads]
    · exact issued_insertCredential hcredential hcrow hfree

theorem setScopes_acts {c : SetScopesCommand} (hr : r.command = .setScopes c)
    (h : Knows i before [] [] (Admits api) v) :
    Acts sqlNow s api r db₀ before i .principal (s.setScopes r.env c) v := by
  unfold Service.setScopes Service.requireManager
  refine acts_raiseWhen fun hactor => acts_unitOfWork ?_
  refine acts_query (fun _ => rfl) lasting_admits h fun v found _ h _ => ?_
  cases found with
  | none => exact acts_raise
  | some p =>
    refine acts_requireTenants lasting_admits h fun v evs hevs h => ?_
    unfold Service.replaceScopes
    simp only [bind_eq, bind_assoc]
    refine follows_begin lasting_admits h (fun _ _ => trivial) (fun _ _ _ => trivial) fun v h _ => ?_
    refine acts_change (fun _ => rfl) lasting_admits h fun v a g seen h ha => ?_
    cases ha
    refine acts_change (fun _ => rfl) lasting_admits h fun v a g _ h ha => ?_
    obtain ⟨_, _, ha⟩ := Except.bind_ok_cases ha
    cases ha
    refine acts_auditPrincipal lasting_admits h fun v record hrecord h => ?_
    simp only [List.append_assoc] at h
    refine acts_commit lasting_admits h (by simp [hevs]) (by simp [hr, Command.guarded])
      fun db hadmits => ?_
    refine ⟨some p, .scopes p.principalId seen c.tenantIds, [record], ?_, rfl, fun _ => hadmits, ?_,
      trivial⟩
    · rw [hr]
      exact .scopesSet (by simpa using hactor) rfl hrecord
    · simp [hr, Command.Reads]

theorem acts_requireOtherManager {p : ManagementPrincipal} {evs : List StoreEvent}
    {ws : List (Db → Db)} {ls : List Lock} {F : Db → Prop} {α : Type} {f : α → Reply}
    {k : Unit → Program α} (hF : Lasting (discipline api) ls F) (h : Knows i (before ++ evs) ws ls F v)
    (hk : ∀ v evs', ⟨.commit, .ok ()⟩ ∉ evs' → Knows i (before ++ (evs ++ evs')) ws ls F v →
      Acts sqlNow s api r db₀ before i f (k ()) v) :
    Acts sqlNow s api r db₀ before i f ((Service.requireOtherManager p).bind k) v := by
  unfold Service.requireOtherManager
  rw [bind_eq, bind_assoc]
  refine acts_query (fun _ => rfl) hF h fun v other _ h _ => acts_raiseWhen fun _ => ?_
  rw [List.append_assoc] at h
  exact hk v _ (by simp) h

theorem acts_requireOtherUsable {env : Env} {p : ManagementPrincipal} {x : ManagementCredential}
    {evs : List StoreEvent} {ws : List (Db → Db)} {ls : List Lock} {F : Db → Prop} {α : Type}
    {f : α → Reply} {k : Unit → Program α} (hF : Lasting (discipline api) ls F)
    (h : Knows i (before ++ evs) ws ls F v)
    (hk : ∀ v evs', ⟨.commit, .ok ()⟩ ∉ evs' → Knows i (before ++ (evs ++ evs')) ws ls F v →
      Acts sqlNow s api r db₀ before i f (k ()) v) :
    Acts sqlNow s api r db₀ before i f ((Service.requireOtherUsable env p x).bind k) v := by
  unfold Service.requireOtherUsable
  simp only [bind_eq, bind_assoc]
  refine acts_query (fun _ => rfl) hF h fun v other _ h _ => ?_
  refine acts_query (fun _ => rfl) hF h fun v items _ h _ => acts_raiseWhen fun _ => ?_
  simp only [List.append_assoc] at h
  exact hk v _ (by simp) h

/-- From the guard of `disable_principal` on. -/
theorem disable_tail_acts {c : DisablePrincipalCommand} (hr : r.command = .disablePrincipal c)
    (hactor : c.actor.canManagePrincipals = true) {seen : Db} {row : ManagementPrincipalRow}
    {tenantIds : Finset Uuid} (hrow : seen.principals.find? c.principalId = some row)
    (hactive : (principalFromRow row tenantIds).isActive = true) {evs : List StoreEvent}
    (hevs : ⟨.commit, .ok ()⟩ ∉ evs)
    (hread : ⟨.sql (.principalsGet c.principalId), .ok (some (principalFromRow row tenantIds))⟩ ∈ evs)
    (h : Knows i (before ++ evs) [id] [.managementState] (fun d => Later seen d ∧ Still api seen d) v) :
    Acts sqlNow s api r db₀ before i .principal (do
      let disabled ← orValueError ((principalFromRow row tenantIds).disable r.env.now)
      sql (Sql.principalsDisable disabled)
      s.auditPrincipal r.env c.actor.principalId disabled (some (principalFromRow row tenantIds))
        .managementPrincipalDisabled
      commit
      return disabled) v := by
  refine safe_lift (fun _ _ => trivial) fun disabled hdisabled => ?_
  refine acts_principalsDisable (lasting_seen (List.mem_singleton_self _) seen) h
    fun v disabledAt hcolumn h => ?_
  have hstate : Lock.managementState ∈ [Lock.principal disabled.principalId, Lock.managementState] :=
    List.mem_cons_of_mem _ (List.mem_singleton_self _)
  refine acts_auditPrincipal (lasting_seen hstate seen) h fun v record hrecord h => ?_
  simp only [List.append_assoc] at h
  refine acts_commit (lasting_seen hstate seen) h (by simp [hevs]) (fun _ => hstate)
    fun db ⟨hlater, hstill⟩ => ?_
  refine ⟨some (principalFromRow row tenantIds), .disabled disabled.principalId disabledAt, [record],
    ?_, rfl, ?_, ?_, trivial⟩
  · rw [hr]
    exact .disabled hactor rfl (row_of_still hrow hlater hstill) ⟨tenantIds, rfl⟩ hactive hdisabled
      hcolumn hrecord
  · simp [hr, Command.guarded]
  · simp [hr, Command.Reads, hread]

theorem disablePrincipal_acts {c : DisablePrincipalCommand} (hr : r.command = .disablePrincipal c)
    (h : Knows i before [] [] (Admits api) v) :
    Acts sqlNow s api r db₀ before i .principal (s.disablePrincipal r.env c) v := by
  unfold Service.disablePrincipal Service.requireManager
  refine acts_raiseWhen fun hactor => acts_unitOfWork ?_
  have hactor' : c.actor.canManagePrincipals = true := by simpa using hactor
  refine acts_change (fun _ => rfl) lasting_admits h fun v a g _ h ha => ?_
  cases ha
  refine acts_query (fun _ => rfl) lasting_admits h fun v found _ h hfound => ?_
  cases found with
  | none => exact acts_raise
  | some p =>
    obtain ⟨row, hrow, _, rfl⟩ := find?_of_getPrincipal (Except.ok.inj hfound)
    rw [List.append_assoc] at h
    have h := h.mono (G := fun d => Later v.1.db d ∧ Still api v.1.db d) fun _ => ⟨.refl _, .refl _ _⟩
    refine acts_raiseWhen fun hactive => ?_
    split
    · refine acts_requireOtherManager (lasting_seen (List.mem_singleton_self _) _) h fun v evs hevs h => ?_
      exact disable_tail_acts hr hactor' hrow (by simpa using hactive) (by simp [hevs]) (by simp) h
    · exact disable_tail_acts hr hactor' hrow (by simpa using hactive) (by simp) (by simp) h

/-- From the guard of `revoke_credential` on. -/
theorem revoke_tail_acts {c : RevokeCredentialCommand} (hr : r.command = .revokeCredential c)
    (hactor : c.actor.canManagePrincipals = true) {seen : Db} {p : ManagementPrincipal}
    {row : ManagementCredentialRow} (hrow : seen.credentials.find? c.credentialId = some row)
    (howns : (credentialFromRow row).principalId = p.principalId)
    (hunrevoked : (credentialFromRow row).revokedAt = none) {evs : List StoreEvent}
    (hevs : ⟨.commit, .ok ()⟩ ∉ evs)
    (hread : ⟨.sql (.principalsGet c.principalId), .ok (some p)⟩ ∈ evs)
    (h : Knows i (before ++ evs) [id] [.managementState] (fun d => Later seen d ∧ Still api seen d) v) :
    Acts sqlNow s api r db₀ before i .credential (do
      let revoked ← orValueError ((credentialFromRow row).revoke r.env.now)
      sql (Sql.credentialsRevoke revoked)
      s.auditCredential r.env c.actor.principalId revoked (some (credentialFromRow row))
        .managementCredentialRevoked
      commit
      return revoked) v := by
  refine safe_lift (fun _ _ => trivial) fun revoked hrevoked => ?_
  refine acts_credentialsRevoke (lasting_seen (List.mem_singleton_self _) seen) h
    fun v revokedAt hcolumn h => ?_
  have hstate : Lock.managementState ∈ [Lock.credential revoked.credentialId, Lock.managementState] :=
    List.mem_cons_of_mem _ (List.mem_singleton_self _)
  refine acts_auditCredential (lasting_seen hstate seen) h fun v record hrecord h => ?_
  simp only [List.append_assoc] at h
  refine acts_commit (lasting_seen hstate seen) h (by simp [hevs]) (fun _ => hstate)
    fun db ⟨hlater, hstill⟩ => ?_
  refine ⟨some p, .revoked revoked.credentialId revokedAt, [record], ?_, rfl, ?_, ?_, trivial⟩
  · have hstored : db.getCredential c.credentialId = some (credentialFromRow row) := by
      rw [Db.getCredential, credential_of_still hrow hlater hstill]
      rfl
    rw [hr]
    exact .revoked hactor rfl hstored howns hunrevoked hrevoked hcolumn hrecord
  · simp [hr, Command.guarded]
  · simp [hr, Command.Reads, hread]

theorem revokeCredential_acts {c : RevokeCredentialCommand} (hr : r.command = .revokeCredential c)
    (h : Knows i before [] [] (Admits api) v) :
    Acts sqlNow s api r db₀ before i .credential (s.revokeCredential r.env c) v := by
  unfold Service.revokeCredential Service.requireManager
  refine acts_raiseWhen fun hactor => acts_unitOfWork ?_
  have hactor' : c.actor.canManagePrincipals = true := by simpa using hactor
  refine acts_change (fun _ => rfl) lasting_admits h fun v a g _ h ha => ?_
  cases ha
  refine acts_query (fun _ => rfl) lasting_admits h fun v principal? _ h _ => ?_
  refine acts_query (fun _ => rfl) lasting_admits h fun v credential? _ h hcredential => ?_
  match principal?, credential? with
  | none, _ => exact acts_raise
  | some _, none => exact acts_raise
  | some p, some x =>
    obtain ⟨row, hrow, _, rfl⟩ := find?_of_getCredential (Except.ok.inj hcredential)
    simp only [List.append_assoc] at h
    have h := h.mono (G := fun d => Later v.1.db d ∧ Still api v.1.db d) fun _ => ⟨.refl _, .refl _ _⟩
    refine acts_raiseWhen fun howns => acts_raiseWhen fun hrevoked => ?_
    have hunrevoked : (credentialFromRow row).revokedAt = none := by simpa using hrevoked
    split
    · refine acts_requireOtherUsable (lasting_seen (List.mem_singleton_self _) _) h
        fun v evs hevs h => ?_
      exact revoke_tail_acts hr hactor' hrow (not_not.mp howns) hunrevoked (by simp [hevs]) (by simp) h
    · exact revoke_tail_acts hr hactor' hrow (not_not.mp howns) hunrevoked (by simp) (by simp) h

end Commands

/-- Every command, run among others, commits as one atomic step. With `api` a command other
    than the bootstrap must find a principal. -/
theorem handle_acts {sqlNow : Tid → Utc} {s : Service} {api : Prop} {r : Request} {db₀ : Db}
    {before : List StoreEvent} {i : Tid} {v : Traced Db Lock Sql Sql.Res Error}
    (hadmits : (∀ c, r.command ≠ .bootstrap c) → Admits api v.1.db)
    (h : Knows i before [] [] (fun _ => True) v) :
    Acts sqlNow s api r db₀ before i id (s.handle r) v := by
  have hknows : (∀ c, r.command ≠ .bootstrap c) → Knows i before [] [] (Admits api) v :=
    fun hr => h.mono fun _ => hadmits hr
  unfold Service.handle
  split
  · next c hr => exact follows_map (fun _ _ _ h => h) (fun _ _ _ h => h) (bootstrap_acts hr h)
  · next c hr =>
    exact follows_map (fun _ _ _ h => h) (fun _ _ _ h => h)
      (createPrincipal_acts hr (hknows (by simp [hr])))
  · next c hr =>
    exact follows_map (fun _ _ _ h => h) (fun _ _ _ h => h)
      (issueCredential_acts hr (hknows (by simp [hr])))
  · next c hr =>
    exact follows_map (fun _ _ _ h => h) (fun _ _ _ h => h) (setScopes_acts hr (hknows (by simp [hr])))
  · next c hr =>
    exact follows_map (fun _ _ _ h => h) (fun _ _ _ h => h)
      (revokeCredential_acts hr (hknows (by simp [hr])))
  · next c hr =>
    exact follows_map (fun _ _ _ h => h) (fun _ _ _ h => h)
      (disablePrincipal_acts hr (hknows (by simp [hr])))

/-! ## Runs -/

abbrev RunConfig := Config (World Db Lock) (Op Sql) (Op.Res Sql.Res) Error Reply

abbrev RunLabel := Label (Op Sql) (Op.Res Sql.Res) Error

section Runs

variable {sqlNow : Tid → Utc} {s : Service} {requests : Tid → Request} {db₀ : Db}
  {tr : List RunLabel} {c c' : RunConfig} {l : RunLabel} {i : Tid}

theorem commands_follow (i : Tid) :
    Acts sqlNow s False (requests i) db₀ [] i id (s.handle (requests i)) (World.ofDb db₀, []) :=
  handle_acts (fun _ h => h.elim) (knows_start db₀)

/-- What the steps of a run do to the database: only commits change it, each one as its
    command. -/
theorem step_commits
    (h : Run (database sqlNow).exec ⟨World.ofDb db₀, fun i => s.handle (requests i)⟩ tr c)
    (hs : Step (database sqlNow).exec c l c') :
    CommitsOnly (fun w => Commits s False (requests l.tid) [] l.tid (w, tr)) l.tid l.event.op
      l.event.answer c.world c'.world :=
  run_step (D := database sqlNow) (C := fun i => Commits s False (requests i) [] i)
    (B := fun _ _ _ => True) (P := fun i o evs d => s.Answered (requests i) [] (o.map id) evs d) (lawful False)
    (fun ch i q => stmt_within (sqlNow i) ch i q) (fun _ _ => Commits.disciplined)
    (fun _ _ _ _ _ h hlater => h.later hlater) commands_follow h hs

/-- A command that has returned has committed what it returned. -/
theorem returned_answered {reply : Reply}
    (h : Run (database sqlNow).exec ⟨World.ofDb db₀, fun i => s.handle (requests i)⟩ tr c)
    (hret : c.prog i = .ret reply) : committed i ∈ tr ∧ s.Shows (requests i) reply c.world.db := by
  have hanswered : s.Answered (requests i) [] (.ok reply) (own i tr) c.world.db :=
   (run_returned (D := database sqlNow) (C := fun i => Commits s False (requests i) [] i)
    (B := fun _ _ _ => True) (P := fun i o evs d => s.Answered (requests i) [] (o.map id) evs d) (lawful False)
    (fun ch i q => stmt_within (sqlNow i) ch i q) (fun _ _ => Commits.disciplined)
    (fun _ _ _ _ _ h hlater => h.later hlater) commands_follow h).1 reply hret
  obtain ⟨⟨later, hlater, hcommit⟩, hshows⟩ := hanswered
  exact ⟨mem_own.mp (by rwa [hlater, List.nil_append]), hshows⟩

end Runs

end Valor.ManagementIdentity
