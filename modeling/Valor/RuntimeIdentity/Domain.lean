/-
  Runtime identity: Runtime Principals and Runtime Credentials.

  A principal has passed its `__post_init__`: the fields after the data say what was
  checked. `new` is the constructor with its error texts, in the order of its checks.
  `dataclasses.replace` runs the checks again; on a value that has passed them only the
  replaced fields can fail, so the methods are written as record updates.
-/
import Mathlib.Data.Finset.Option
import Valor.Credential

namespace Valor.RuntimeIdentity

open Python ManagementAudit

/-- Both limits are there or neither is. -/
def limitsTogether (daily allowance : Option Int) : Bool := daily.isSome == allowance.isSome

def limitsPositive : Option Int → Option Int → Bool
  | some daily, some allowance => 0 < daily && 0 < allowance && allowance ≤ daily
  | _, _ => true

/-- A legacy identity that has been stripped: 1 to 255 characters. -/
def legacyFits (legacy : Option String) : Bool := legacy.all fun s => s ≠ "" && len s ≤ 255

structure RuntimePrincipal where
  principalId : Uuid
  tenantId : Uuid
  agentId : Uuid
  createdAt : Aware
  disabledAt : Option Aware
  dailyUsageLimitUnits : Option Int
  perInvocationAllowanceUnits : Option Int
  legacyRuntimePrincipalId : Option String
  identityContinuityBoundAt : Option Aware
  limits_together : limitsTogether dailyUsageLimitUnits perInvocationAllowanceUnits
  limits_positive : limitsPositive dailyUsageLimitUnits perInvocationAllowanceUnits
  legacy_stripped : legacyRuntimePrincipalId.map strip = legacyRuntimePrincipalId
  legacy_fits : legacyFits legacyRuntimePrincipalId
  continuity_together : legacyRuntimePrincipalId.isSome = identityContinuityBoundAt.isSome
  deriving DecidableEq

namespace RuntimePrincipal

theorem legacy_stripped_map (legacy : Option String) :
    (legacy.map strip).map strip = legacy.map strip := by
  cases legacy <;> simp

def new (principalId tenantId agentId : Uuid) (createdAt : Datetime) (disabledAt : Option Datetime)
    (dailyUsageLimitUnits perInvocationAllowanceUnits : Option Int)
    (legacyRuntimePrincipalId : Option String) (identityContinuityBoundAt : Option Datetime) :
    Except ValueError RuntimePrincipal := do
  let aware := requireAware "principal timestamps must be timezone-aware"
  let createdAt ← aware createdAt
  let disabledAt ← disabledAt.mapM aware
  if ht : limitsTogether dailyUsageLimitUnits perInvocationAllowanceUnits = false then
    throw ⟨"runtime usage limits must be configured together"⟩
  else if hp : limitsPositive dailyUsageLimitUnits perInvocationAllowanceUnits = false then
    throw ⟨"runtime usage limits are invalid"⟩
  else if hc : legacyRuntimePrincipalId.isSome ≠ identityContinuityBoundAt.isSome then
    throw ⟨"legacy identity and binding time must be configured together"⟩
  else if hl : legacyFits (legacyRuntimePrincipalId.map strip) = false then
    throw ⟨"legacy runtime principal ID must be 1 to 255 characters"⟩
  else
    match hb : identityContinuityBoundAt.mapM
        (requireAware "identity continuity binding time must be timezone-aware") with
    | .error e => throw e
    | .ok boundAt => return {
        principalId, tenantId, agentId, createdAt, disabledAt
        dailyUsageLimitUnits, perInvocationAllowanceUnits
        legacyRuntimePrincipalId := legacyRuntimePrincipalId.map strip
        identityContinuityBoundAt := boundAt
        limits_together := by simpa using ht
        limits_positive := by simpa using hp
        legacy_stripped := legacy_stripped_map _
        legacy_fits := by simpa using hl
        continuity_together := by simpa [Except.isSome_mapM hb] using hc }

def create (principalId tenantId agentId : Uuid) (createdAt : Datetime)
    (dailyUsageLimitUnits perInvocationAllowanceUnits : Int) : Except ValueError RuntimePrincipal :=
  new principalId tenantId agentId createdAt none (some dailyUsageLimitUnits)
    (some perInvocationAllowanceUnits) none none

def isActive (p : RuntimePrincipal) : Bool := p.disabledAt.isNone

def usageLimitsConfigured (p : RuntimePrincipal) : Bool := p.dailyUsageLimitUnits.isSome

def identityContinuityReady (p : RuntimePrincipal) : Bool := p.legacyRuntimePrincipalId.isSome

/-- The identities under which invocations of the principal are recorded. -/
def continuityIdentityIds (p : RuntimePrincipal) : Finset String :=
  insert p.principalId.str p.legacyRuntimePrincipalId.toFinset

def bindIdentityContinuity (p : RuntimePrincipal) (legacyId : String) (at' : Aware) :
    Except ValueError RuntimePrincipal :=
  if !p.isActive then .error ⟨"disabled principals cannot be prepared for cutover"⟩
  else if p.identityContinuityReady then
    .error ⟨"runtime identity continuity is already bound"⟩
  else if hl : legacyFits (some (strip legacyId)) = false then
    .error ⟨"legacy runtime principal ID must be 1 to 255 characters"⟩
  else
    .ok { p with
      legacyRuntimePrincipalId := some (strip legacyId)
      identityContinuityBoundAt := some at'
      legacy_stripped := by simp
      legacy_fits := by simpa using hl
      continuity_together := rfl }

def initializeUsageLimits (p : RuntimePrincipal)
    (dailyUsageLimitUnits perInvocationAllowanceUnits : Int) : Except ValueError RuntimePrincipal :=
  if !p.isActive then .error ⟨"disabled principals cannot be prepared for cutover"⟩
  else if p.usageLimitsConfigured then .error ⟨"runtime usage limits are already initialized"⟩
  else if hp : limitsPositive (some dailyUsageLimitUnits) (some perInvocationAllowanceUnits) = false
  then .error ⟨"runtime usage limits are invalid"⟩
  else
    .ok { p with
      dailyUsageLimitUnits := some dailyUsageLimitUnits
      perInvocationAllowanceUnits := some perInvocationAllowanceUnits
      limits_together := rfl
      limits_positive := by simpa using hp }

def disable (p : RuntimePrincipal) (at' : Aware) : Except ValueError RuntimePrincipal :=
  if !p.isActive then .error ⟨"principal is already disabled"⟩
  else .ok { p with disabledAt := some at' }

end RuntimePrincipal

abbrev RuntimeCredential := Credential

/-- `generate_runtime_bearer_token`, with the secret that `token_urlsafe` gives. -/
def generateRuntimeBearerToken (credentialId : Uuid) (secret : String) : String :=
  "valor_runtime_" ++ credentialId.str ++ "_" ++ secret

/-! ## Audit fingerprints -/

def principalFingerprint (sha256 : Sha256) (p : RuntimePrincipal) : String :=
  runtimePrincipalFingerprint sha256 p.principalId p.tenantId p.agentId (!p.isActive)
    p.dailyUsageLimitUnits p.perInvocationAllowanceUnits p.legacyRuntimePrincipalId

/-- The times are written with their own offsets. -/
def credentialFingerprint (sha256 : Sha256) (c : RuntimeCredential) : String :=
  runtimeCredentialFingerprint sha256 c.credentialId c.principalId c.label
    c.createdAt.isoformat (c.expiresAt.map Aware.isoformat) c.revokedAt.isSome

end Valor.RuntimeIdentity
