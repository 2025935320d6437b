/-
  Management identity: the commands of `ManagementIdentityService`.

  Each method is a program over the statements of its Unit of Work. `Env` is what a call
  reads from outside: the clock, once; the ids of `id_factory`; the secret of
  `generate_bearer_token`. Leaving the `async with` block rolls back on every way out,
  also after a commit, where there is nothing left to undo.
-/
import Valor.ManagementIdentity.Store

namespace Valor.ManagementIdentity

open Python ManagementAudit Prog ReadCommitted

abbrev Program := Transaction Sql Sql.Res Error

/-- The service's configuration, with `hmac.new(pepper, secret, sha256).hexdigest()`. -/
structure Service where
  pepper : String
  bootstrapToken : String
  hmacSha256 : String → String → HexDigest
  sha256 : Sha256

/-- What one call takes from its clock, its id factory and its source of secrets. -/
structure Env where
  now : Utc
  principalId : Uuid
  credentialId : Uuid
  auditId : Uuid
  secret : String

structure ManagementActor where
  principalId : Uuid
  canManagePrincipals : Bool

structure IssuedCredential where
  credential : ManagementCredential
  bearerToken : String

structure BootstrapCommand where
  suppliedToken : String
  displayName : String
  tenantIds : Finset Uuid

structure CreatePrincipalCommand where
  actor : ManagementActor
  displayName : String
  tenantIds : Finset Uuid
  canManagePrincipals : Bool

structure IssueCredentialCommand where
  actor : ManagementActor
  principalId : Uuid
  label : Option String
  expiresAt : Option Datetime

structure SetScopesCommand where
  actor : ManagementActor
  principalId : Uuid
  tenantIds : Finset Uuid

structure RevokeCredentialCommand where
  actor : ManagementActor
  principalId : Uuid
  credentialId : Uuid

structure DisablePrincipalCommand where
  actor : ManagementActor
  principalId : Uuid

/-! ## Steps the methods share -/

/-- `raise InvalidManagementIdentityCommand(str(error)) from error`. -/
def orInvalid {α : Type} : Except ValueError α → Program α :=
  lift fun e => .invalidManagementIdentityCommand e.message

/-- A ValueError that no one catches. -/
def orValueError {α : Type} : Except ValueError α → Program α := lift fun e => .valueError e.message

def orOverflow {α : Type} : Except OverflowError α → Program α := lift fun _ => .overflowError

/-- `hmac.compare_digest` on texts, which raises TypeError unless both are ASCII. -/
def compareDigest (a b : String) : Program Bool :=
  if (a ++ b).toList.all (·.toNat < 128) then .ret (a = b) else .raise .typeError

namespace Service

variable (s : Service) (env : Env)

def newPrincipal (displayName : String) (canManagePrincipals : Bool) (tenantIds : Finset Uuid) :
    Program ManagementPrincipal :=
  orInvalid (ManagementPrincipal.new env.principalId displayName canManagePrincipals tenantIds
    (.aware env.now) none)

def newCredential (principalId : Uuid) (label : Option String) (expiresAt : Option Datetime) :
    Program IssuedCredential := do
  let token := "valor_mgmt_" ++ env.credentialId.str ++ "_" ++ env.secret
  let credential ← orInvalid (Credential.new env.credentialId principalId
    (s.hmacSha256 s.pepper env.secret) label (.aware env.now) expiresAt none)
  return ⟨credential, token⟩

def requireManager (actor : ManagementActor) : Program Unit :=
  raiseWhen (!actor.canManagePrincipals) .principalManagementDenied

def requireTenants (tenantIds : Finset Uuid) : Program Unit := do
  if tenantIds.Nonempty then
    let found : Bool ← sql (Sql.tenantsAllExist tenantIds)
    raiseWhen (!found)
      (.invalidManagementIdentityCommand "one or more Tenant scopes do not exist")

def auditPrincipal (actorId : Uuid) (after : ManagementPrincipal)
    (before : Option ManagementPrincipal) (action : Action) : Program Unit := do
  let record ← orValueError (Record.new env.auditId actorId.str none action .managementPrincipal
    after.principalId .succeeded (.aware env.now)
    (before.map (principalFingerprint s.sha256)) (principalFingerprint s.sha256 after))
  sql (Sql.auditsAppend record)

def auditCredential (actorId : Uuid) (after : ManagementCredential)
    (before : Option ManagementCredential) (action : Action) : Program Unit := do
  let beforeFingerprint ← orOverflow (before.mapM (credentialFingerprint s.sha256))
  let afterFingerprint ← orOverflow (credentialFingerprint s.sha256 after)
  let record ← orValueError (Record.new env.auditId actorId.str none action .managementCredential
    after.credentialId .succeeded (.aware env.now) beforeFingerprint afterFingerprint)
  sql (Sql.auditsAppend record)

/-! ## The methods -/

def bootstrap (command : BootstrapCommand) : Program (ManagementPrincipal × IssuedCredential) := do
  let authentic ← compareDigest command.suppliedToken s.bootstrapToken
  raiseWhen (!authentic) .bootstrapAuthenticationFailed
  unitOfWork do
    sql Sql.lockManagementState
    let count : Nat ← sql Sql.principalsCount
    raiseWhen (count ≠ 0) .bootstrapAlreadyCompleted
    requireTenants command.tenantIds
    let principal ← newPrincipal env command.displayName true command.tenantIds
    let issued ← s.newCredential env principal.principalId (some "bootstrap") none
    sql (Sql.principalsAdd principal)
    sql (Sql.credentialsAdd issued.credential)
    commit
    return (principal, issued)

def createPrincipal (command : CreatePrincipalCommand) : Program ManagementPrincipal := do
  requireManager command.actor
  unitOfWork do
    requireTenants command.tenantIds
    let principal ← newPrincipal env command.displayName command.canManagePrincipals
      command.tenantIds
    sql (Sql.principalsAdd principal)
    s.auditPrincipal env command.actor.principalId principal none .managementPrincipalCreated
    commit
    return principal

def getPrincipal (actor : ManagementActor) (principalId : Uuid) : Program ManagementPrincipal := do
  requireManager actor
  let found : Option ManagementPrincipal ← unitOfWork (sql (Sql.principalsGet principalId))
  match found with
  | none => .raise .managementPrincipalNotFound
  | some principal => return principal

/-- The checks of `issue_credential` on `expires_at` before the Unit of Work. -/
def checkExpiry (now : Utc) : Option Datetime → Program Unit
  | none => .ret ()
  | some (.naive ..) =>
      .raise (.invalidManagementIdentityCommand "expires_at must include a timezone offset")
  | some (.aware e) =>
      raiseWhen (e ≤ now.toAware)
        (.invalidManagementIdentityCommand "expires_at must be in the future")

def issueCredential (command : IssueCredentialCommand) : Program IssuedCredential := do
  requireManager command.actor
  checkExpiry env.now command.expiresAt
  unitOfWork do
    let found : Option ManagementPrincipal ← sql (Sql.principalsGet command.principalId)
    match found with
    | none => .raise .managementPrincipalNotFound
    | some principal =>
        raiseWhen (!principal.isActive) .managementPrincipalNotFound
        let issued ← s.newCredential env principal.principalId command.label command.expiresAt
        sql (Sql.credentialsAdd issued.credential)
        s.auditCredential env command.actor.principalId issued.credential none
          .managementCredentialIssued
        commit
        return issued

/-- `replace_scopes`: the DELETE, in two steps, and the INSERT of the flush. -/
def replaceScopes (principal : ManagementPrincipal) : Program Unit := do
  begin
  sql (Sql.deleteScopes principal.principalId)
  sql (Sql.insertScopes principal)

def setScopes (command : SetScopesCommand) : Program ManagementPrincipal := do
  requireManager command.actor
  unitOfWork do
    let found : Option ManagementPrincipal ← sql (Sql.principalsGet command.principalId)
    match found with
    | none => .raise .managementPrincipalNotFound
    | some principal =>
        requireTenants command.tenantIds
        let updated := principal.withTenantScopes command.tenantIds
        replaceScopes updated
        s.auditPrincipal env command.actor.principalId updated (some principal)
          .managementPrincipalScopesSet
        commit
        return updated

/-- The guard of `revoke_credential`: another manager can still authenticate, or this
    principal by another credential. -/
def requireOtherUsable (principal : ManagementPrincipal) (credential : ManagementCredential) :
    Program Unit := do
  let otherManager : Bool ← sql (Sql.hasRecoverableManager (some principal.principalId))
  let items : List ManagementCredential ← sql (Sql.listForPrincipal principal.principalId)
  let usableCount := items.countP fun item =>
    item.credentialId ≠ credential.credentialId && item.isUsableAt env.now
  raiseWhen (!otherManager && usableCount = 0) .lastPrincipalManagerConflict

def revokeCredential (command : RevokeCredentialCommand) : Program ManagementCredential := do
  requireManager command.actor
  unitOfWork do
    sql Sql.lockManagementState
    let principal? : Option ManagementPrincipal ← sql (Sql.principalsGet command.principalId)
    let credential? : Option ManagementCredential ← sql (Sql.credentialsGet command.credentialId)
    match principal?, credential? with
    | none, _ => .raise .managementPrincipalNotFound
    | some _, none => .raise .managementCredentialNotFound
    | some principal, some credential =>
        raiseWhen (credential.principalId ≠ principal.principalId) .managementCredentialNotFound
        raiseWhen credential.revokedAt.isSome .managementCredentialNotFound
        if principal.isActive && principal.canManagePrincipals then
          requireOtherUsable env principal credential
        let revoked ← orValueError (credential.revoke env.now)
        sql (Sql.credentialsRevoke revoked)
        s.auditCredential env command.actor.principalId revoked (some credential)
          .managementCredentialRevoked
        commit
        return revoked

/-- The guard of `disable_principal`. -/
def requireOtherManager (principal : ManagementPrincipal) : Program Unit := do
  let otherManager : Bool ← sql (Sql.hasRecoverableManager (some principal.principalId))
  raiseWhen (!otherManager) .lastPrincipalManagerConflict

def disablePrincipal (command : DisablePrincipalCommand) : Program ManagementPrincipal := do
  requireManager command.actor
  unitOfWork do
    sql Sql.lockManagementState
    let found : Option ManagementPrincipal ← sql (Sql.principalsGet command.principalId)
    match found with
    | none => .raise .managementPrincipalNotFound
    | some principal =>
        raiseWhen (!principal.isActive) .managementPrincipalNotFound
        if principal.canManagePrincipals then
          requireOtherManager principal
        let disabled ← orValueError (principal.disable env.now)
        sql (Sql.principalsDisable disabled)
        s.auditPrincipal env command.actor.principalId disabled (some principal)
          .managementPrincipalDisabled
        commit
        return disabled

end Service

/-! ## Commands -/

inductive Command where
  | bootstrap (command : BootstrapCommand)
  | createPrincipal (command : CreatePrincipalCommand)
  | issueCredential (command : IssueCredentialCommand)
  | setScopes (command : SetScopesCommand)
  | revokeCredential (command : RevokeCredentialCommand)
  | disablePrincipal (command : DisablePrincipalCommand)

inductive Reply where
  | bootstrapped (principal : ManagementPrincipal) (issued : IssuedCredential)
  | principal (principal : ManagementPrincipal)
  | issued (issued : IssuedCredential)
  | credential (credential : ManagementCredential)

/-- A request: a command with what its call takes from outside. -/
structure Request where
  command : Command
  env : Env

def Service.handle (s : Service) (request : Request) : Program Reply :=
  match request.command with
  | .bootstrap c => (s.bootstrap request.env c).bind fun (p, i) => .ret (.bootstrapped p i)
  | .createPrincipal c => (s.createPrincipal request.env c).bind fun p => .ret (.principal p)
  | .issueCredential c => (s.issueCredential request.env c).bind fun i => .ret (.issued i)
  | .setScopes c => (s.setScopes request.env c).bind fun p => .ret (.principal p)
  | .revokeCredential c => (s.revokeCredential request.env c).bind fun c => .ret (.credential c)
  | .disablePrincipal c => (s.disablePrincipal request.env c).bind fun p => .ret (.principal p)

end Valor.ManagementIdentity
