/-
  Runtime identity: the commands of `RuntimeIdentityService`.

  Each method is a program over the statements of its Unit of Work. `Env` is what a call
  reads from outside: the clock, once; the ids of `id_factory`; the secret of
  `generate_runtime_bearer_token`; the static configuration.
-/
import Valor.RuntimeIdentity.Store
import Valor.Settings

namespace Valor.RuntimeIdentity

open Python ManagementAudit Prog ReadCommitted

abbrev Program := Transaction Sql Sql.Res Error

/-- The service's pepper, with `hmac.new(pepper, secret, sha256).hexdigest()`. -/
structure Service where
  pepper : String
  hmacSha256 : String → String → HexDigest
  sha256 : Sha256

/-- What one call takes from its clock, its id factory, its source of secrets and the static
    configuration, which a service need not have. -/
structure Env where
  now : Utc
  principalId : Uuid
  credentialId : Uuid
  /-- The id of the first audit record of the call, and of the second. -/
  auditId : Uuid
  auditId₂ : Uuid
  secret : String
  legacyConfigurations : Option Settings.RuntimeAuthenticationSettings

structure RuntimeIdentityActor where
  principalId : Uuid
  canManagePrincipals : Bool

structure IssuedRuntimeCredential where
  credential : RuntimeCredential
  bearerToken : String

structure CreateRuntimePrincipalCommand where
  actor : RuntimeIdentityActor
  tenantId : Uuid
  agentId : Uuid
  dailyUsageLimitUnits : Int
  perInvocationAllowanceUnits : Int
  label : Option String
  expiresAt : Option Datetime

structure IssueRuntimeCredentialCommand where
  actor : RuntimeIdentityActor
  principalId : Uuid
  label : Option String
  expiresAt : Option Datetime

structure RuntimeCredentialCommand where
  actor : RuntimeIdentityActor
  principalId : Uuid
  credentialId : Uuid

structure InitializeRuntimeUsageLimitsCommand where
  actor : RuntimeIdentityActor
  principalId : Uuid
  dailyUsageLimitUnits : Int
  perInvocationAllowanceUnits : Int

structure RuntimeIdentityContinuityCommand where
  actor : RuntimeIdentityActor
  principalId : Uuid
  legacyRuntimePrincipalId : String

/-- The arguments of `disable_principal`. -/
structure DisablePrincipalCommand where
  actor : RuntimeIdentityActor
  principalId : Uuid

structure RuntimeIdentityContinuityPreflight where
  principalId : Uuid
  legacyRuntimePrincipalId : String
  staticIdentityExists : Bool
  tenantBindingMatches : Bool
  agentBindingMatches : Bool
  legacyIdentityUnclaimed : Bool
  principalUnbound : Bool
  historicalInvocationCount : Nat
  sameDayAttributedUsageUnits : Int
  usageLimitsMatch : Bool
  historicalBindingsConsistent : Bool
  cutoverReady : Bool
  safeToBind : Bool

/-- `LegacyRuntimeConfiguration`, as `ConfiguredLegacyRuntimeIdentities` makes one. -/
structure LegacyRuntimeConfiguration where
  principalId : String
  tenantId : Uuid
  agentId : Uuid
  dailyUsageLimitUnits : Int
  perInvocationAllowanceUnits : Int

/-- `ConfiguredLegacyRuntimeIdentities.get`. -/
def getLegacyConfiguration (settings : Settings.RuntimeAuthenticationSettings) (principalId : String) :
    Option LegacyRuntimeConfiguration :=
  (settings.principals.find? (·.principalId = principalId)).map fun value =>
    ⟨value.principalId, value.tenantId, value.agentId, value.usageLimit,
      value.perInvocationAllowance⟩

/-! ## Steps the methods share -/

/-- `raise InvalidRuntimeIdentityCommand(str(exc)) from exc`. -/
def orInvalid {α : Type} : Except ValueError α → Program α :=
  lift fun e => .invalidRuntimeIdentityCommand e.message

/-- A ValueError that no one catches. -/
def orValueError {α : Type} : Except ValueError α → Program α := lift fun e => .valueError e.message

def orOverflow {α : Type} : Except OverflowError α → Program α := lift fun _ => .overflowError

namespace Service

variable (s : Service) (env : Env)

def newCredential (principalId : Uuid) (label : Option String) (expiresAt : Option Datetime) :
    Program IssuedRuntimeCredential := do
  let token := "valor_runtime_" ++ env.credentialId.str ++ "_" ++ env.secret
  let credential ← orValueError (Credential.new env.credentialId principalId
    (s.hmacSha256 s.pepper env.secret) label (.aware env.now) expiresAt none)
  return ⟨credential, token⟩

def validateExpiry (now : Utc) (expiresAt : Option Datetime) : Program Unit :=
  let message := "expires_at must be a future timezone-aware timestamp"
  match expiresAt with
  | none => .ret ()
  | some (.naive ..) => .raise (.invalidRuntimeIdentityCommand message)
  | some (.aware e) => raiseWhen (e ≤ now.toAware) (.invalidRuntimeIdentityCommand message)

def requireManager (actor : RuntimeIdentityActor) : Program Unit :=
  raiseWhen (!actor.canManagePrincipals) .runtimePrincipalManagementDenied

/-- A principal that is there and active. -/
def requireActive : Option RuntimePrincipal → Program RuntimePrincipal
  | none => .raise .runtimePrincipalNotFound
  | some principal => do
      raiseWhen (!principal.isActive) .runtimePrincipalNotFound
      return principal

def principalRecord (actor : Uuid) (value : RuntimePrincipal) (before : Option RuntimePrincipal)
    (action : Action) : Except ValueError Record :=
  Record.new env.auditId actor.str (some value.tenantId) action .runtimePrincipal value.principalId
    .succeeded (.aware env.now) (before.map (principalFingerprint s.sha256))
    (principalFingerprint s.sha256 value)

def auditPrincipal (actor : Uuid) (value : RuntimePrincipal) (before : Option RuntimePrincipal)
    (action : Action) : Program Unit := do
  let record ← orValueError (s.principalRecord env actor value before action)
  sql (Sql.auditsAppend record)

def credentialRecord (auditId actor tenantId : Uuid) (value : RuntimeCredential)
    (before : Option RuntimeCredential) (action : Action) : Except ValueError Record :=
  Record.new auditId actor.str (some tenantId) action .runtimeCredential value.credentialId
    .succeeded (.aware env.now) (before.map (credentialFingerprint s.sha256))
    (credentialFingerprint s.sha256 value)

def auditCredential (auditId actor tenantId : Uuid) (value : RuntimeCredential)
    (before : Option RuntimeCredential) (action : Action) : Program Unit := do
  let record ← orValueError (s.credentialRecord env auditId actor tenantId value before action)
  sql (Sql.auditsAppend record)

/-! ## Identity continuity -/

/-- The result of `_continuity_preflight`, from what it has read. -/
def preflightOf (principal : RuntimePrincipal) (legacyId : String)
    (facts : RuntimeInvocationContinuityFacts) (claimed hasCredential : Bool) :
    RuntimeIdentityContinuityPreflight :=
  let legacy := env.legacyConfigurations.bind (getLegacyConfiguration · legacyId)
  let tenantMatches := legacy.any (·.tenantId = principal.tenantId)
  let agentMatches := legacy.any (·.agentId = principal.agentId)
  let limitsMatch := legacy.any fun l =>
    principal.dailyUsageLimitUnits = some l.dailyUsageLimitUnits &&
      principal.perInvocationAllowanceUnits = some l.perInvocationAllowanceUnits
  let unclaimed := !claimed
  let cutoverReady := principal.isActive && principal.usageLimitsConfigured && hasCredential
  let consistent := !facts.legacyBindingMismatch && !facts.canonicalBindingMismatch
  let principalUnbound := !principal.identityContinuityReady
  { principalId := principal.principalId
    legacyRuntimePrincipalId := legacyId
    staticIdentityExists := legacy.isSome
    tenantBindingMatches := tenantMatches
    agentBindingMatches := agentMatches
    legacyIdentityUnclaimed := unclaimed
    principalUnbound
    historicalInvocationCount := facts.historicalInvocationCount
    sameDayAttributedUsageUnits := facts.sameDayAttributedUsageUnits
    usageLimitsMatch := limitsMatch
    historicalBindingsConsistent := consistent
    cutoverReady
    safeToBind := legacy.isSome && tenantMatches && agentMatches && unclaimed && principalUnbound &&
      limitsMatch && consistent && cutoverReady }

/-- `_continuity_preflight`. -/
def continuityPreflight (principal : RuntimePrincipal) (legacyId : String) :
    Program RuntimeIdentityContinuityPreflight := do
  let dayStart := env.now.midnight
  let dayEnd ← orOverflow dayStart.addDay
  let facts : RuntimeInvocationContinuityFacts ← sql (Sql.inspectInvocations legacyId
    principal.principalId.str principal.tenantId principal.agentId dayStart dayEnd)
  let claimed : Bool ← sql (Sql.legacyIdentityIsClaimed legacyId)
  let hasCredential : Bool ← sql (Sql.hasPotentiallyUsable principal.principalId env.now)
  return preflightOf env principal legacyId facts claimed hasCredential

def bindIdentityContinuity (command : RuntimeIdentityContinuityCommand) :
    Program RuntimePrincipal := do
  requireManager command.actor
  unitOfWork do
    sql (Sql.lockLegacyIdentity command.legacyRuntimePrincipalId)
    let found : Option RuntimePrincipal ← sql (Sql.principalsGetForUpdate command.principalId)
    let principal ← requireActive found
    raiseWhen principal.identityContinuityReady .runtimeIdentityContinuityConflict
    let claimed : Bool ← sql (Sql.legacyIdentityIsClaimed command.legacyRuntimePrincipalId)
    raiseWhen claimed .runtimeIdentityContinuityConflict
    let preflight ← continuityPreflight env principal command.legacyRuntimePrincipalId
    raiseWhen (!preflight.safeToBind)
      (.invalidRuntimeIdentityCommand "Runtime identity continuity validation did not pass.")
    let bound ← orInvalid
      (principal.bindIdentityContinuity command.legacyRuntimePrincipalId env.now)
    let updated : Bool ← sql (Sql.bindIdentityContinuity bound)
    raiseWhen (!updated) .runtimeIdentityContinuityConflict
    s.auditPrincipal env command.actor.principalId bound (some principal)
      .runtimePrincipalIdentityContinuityBound
    commit
    return bound

def continuityUsageTotal (actor : RuntimeIdentityActor) (principalId : Uuid)
    (dayStart dayEnd : Utc) : Program Int := do
  requireManager actor
  unitOfWork do
    let found : Option RuntimePrincipal ← sql (Sql.principalsGet principalId)
    match found with
    | none => .raise .runtimePrincipalNotFound
    | some principal =>
        sql (Sql.consumedTotalUnits principal.continuityIdentityIds dayStart dayEnd)

/-! ## The other methods -/

def createPrincipal (command : CreateRuntimePrincipalCommand) :
    Program (RuntimePrincipal × IssuedRuntimeCredential) := do
  requireManager command.actor
  validateExpiry env.now command.expiresAt
  unitOfWork do
    let found : Bool ← sql (Sql.bindingsExists command.tenantId command.agentId)
    raiseWhen (!found) .runtimeBindingNotFound
    let principal ← orInvalid (RuntimePrincipal.create env.principalId command.tenantId
      command.agentId (.aware env.now) command.dailyUsageLimitUnits
      command.perInvocationAllowanceUnits)
    let issued ← s.newCredential env principal.principalId command.label command.expiresAt
    sql (Sql.principalsAdd principal)
    sql (Sql.credentialsAdd issued.credential)
    s.auditPrincipal env command.actor.principalId principal none .runtimePrincipalCreated
    s.auditCredential env env.auditId₂ command.actor.principalId principal.tenantId
      issued.credential none .runtimeCredentialIssued
    commit
    return (principal, issued)

def initializeUsageLimits (command : InitializeRuntimeUsageLimitsCommand) :
    Program RuntimePrincipal := do
  requireManager command.actor
  unitOfWork do
    let found : Option RuntimePrincipal ← sql (Sql.principalsGet command.principalId)
    let principal ← requireActive found
    raiseWhen principal.usageLimitsConfigured .runtimeUsageLimitsAlreadyInitialized
    let configured ← orInvalid (principal.initializeUsageLimits command.dailyUsageLimitUnits
      command.perInvocationAllowanceUnits)
    let updated : Bool ← sql (Sql.initializeUsageLimits configured)
    raiseWhen (!updated) .runtimeUsageLimitsAlreadyInitialized
    s.auditPrincipal env command.actor.principalId configured (some principal)
      .runtimePrincipalUsageLimitsInitialized
    commit
    return configured

def issueCredential (command : IssueRuntimeCredentialCommand) :
    Program IssuedRuntimeCredential := do
  requireManager command.actor
  validateExpiry env.now command.expiresAt
  unitOfWork do
    let found : Option RuntimePrincipal ← sql (Sql.principalsGet command.principalId)
    let principal ← requireActive found
    let issued ← s.newCredential env principal.principalId command.label command.expiresAt
    sql (Sql.credentialsAdd issued.credential)
    s.auditCredential env env.auditId command.actor.principalId principal.tenantId
      issued.credential none .runtimeCredentialIssued
    commit
    return issued

/-- The checks of `revoke_credential` on what it read. -/
def requireRevocable (principal? : Option RuntimePrincipal) (credential? : Option RuntimeCredential) :
    Program (RuntimePrincipal × RuntimeCredential) :=
  match principal?, credential? with
  | none, _ => .raise .runtimePrincipalNotFound
  | some _, none => .raise .runtimeCredentialNotFound
  | some principal, some credential => do
      raiseWhen (credential.principalId ≠ principal.principalId ∨ credential.revokedAt.isSome)
        .runtimeCredentialNotFound
      return (principal, credential)

def revokeCredential (command : RuntimeCredentialCommand) : Program RuntimeCredential := do
  requireManager command.actor
  unitOfWork do
    let principal? : Option RuntimePrincipal ← sql (Sql.principalsGet command.principalId)
    let credential? : Option RuntimeCredential ← sql (Sql.credentialsGet command.credentialId)
    let (principal, credential) ← requireRevocable principal? credential?
    let revoked ← orValueError (credential.revoke env.now)
    sql (Sql.credentialsRevoke revoked)
    s.auditCredential env env.auditId command.actor.principalId principal.tenantId revoked
      (some credential) .runtimeCredentialRevoked
    commit
    return revoked

def disablePrincipal (command : DisablePrincipalCommand) : Program RuntimePrincipal := do
  requireManager command.actor
  unitOfWork do
    let found : Option RuntimePrincipal ← sql (Sql.principalsGet command.principalId)
    let principal ← requireActive found
    let disabled ← orValueError (principal.disable env.now)
    sql (Sql.principalsDisable disabled)
    s.auditPrincipal env command.actor.principalId disabled (some principal)
      .runtimePrincipalDisabled
    commit
    return disabled

end Service

/-! ## Commands -/

inductive Command where
  | createPrincipal (command : CreateRuntimePrincipalCommand)
  | bindIdentityContinuity (command : RuntimeIdentityContinuityCommand)
  | initializeUsageLimits (command : InitializeRuntimeUsageLimitsCommand)
  | issueCredential (command : IssueRuntimeCredentialCommand)
  | revokeCredential (command : RuntimeCredentialCommand)
  | disablePrincipal (command : DisablePrincipalCommand)

inductive Reply where
  | created (principal : RuntimePrincipal) (issued : IssuedRuntimeCredential)
  | principal (principal : RuntimePrincipal)
  | issued (issued : IssuedRuntimeCredential)
  | credential (credential : RuntimeCredential)

/-- A request: a command with what its call takes from outside. -/
structure Request where
  command : Command
  env : Env

def Service.handle (s : Service) (request : Request) : Program Reply :=
  match request.command with
  | .createPrincipal c => (s.createPrincipal request.env c).bind fun (p, i) => .ret (.created p i)
  | .bindIdentityContinuity c =>
      (s.bindIdentityContinuity request.env c).bind fun p => .ret (.principal p)
  | .initializeUsageLimits c =>
      (s.initializeUsageLimits request.env c).bind fun p => .ret (.principal p)
  | .issueCredential c => (s.issueCredential request.env c).bind fun i => .ret (.issued i)
  | .revokeCredential c => (s.revokeCredential request.env c).bind fun c => .ret (.credential c)
  | .disablePrincipal c => (s.disablePrincipal request.env c).bind fun p => .ret (.principal p)

end Valor.RuntimeIdentity
