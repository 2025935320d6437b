/-
  Management identity: Management Principals, Management Credentials and the evidence of
  their use.

  A principal has passed its `__post_init__`: the field after the data says what was
  checked. `new` is the constructor with its error texts. `dataclasses.replace` runs the
  checks again; on a value that has passed them only the replaced field can fail, so
  `disable` and `withTenantScopes` are written as record updates.
-/
import Valor.Credential

namespace Valor.ManagementIdentity

open Python ManagementAudit

def normalizeDisplayName (value : String) : Except ValueError String :=
  let normalized := collapse value
  if normalized = "" then .error ⟨"display_name must not be empty"⟩
  else if len normalized > 100 then .error ⟨"display_name must not exceed 100 characters"⟩
  else .ok normalized

/-- A normalized name is left as it is. -/
theorem normalizeDisplayName_idem {value name : String} (h : normalizeDisplayName value = .ok name) :
    normalizeDisplayName name = .ok name := by
  simp only [normalizeDisplayName] at h
  split at h
  · cases h
  · next hne =>
    split at h
    · cases h
    · next hlen =>
      obtain rfl : collapse value = name := by simpa using h
      simp [normalizeDisplayName, hne, hlen]

/-! ## Principals -/

structure ManagementPrincipal where
  principalId : Uuid
  displayName : String
  canManagePrincipals : Bool
  tenantIds : Finset Uuid
  createdAt : Aware
  disabledAt : Option Aware
  normalized : normalizeDisplayName displayName = .ok displayName

namespace ManagementPrincipal

def new (principalId : Uuid) (displayName : String) (canManagePrincipals : Bool)
    (tenantIds : Finset Uuid) (createdAt : Datetime) (disabledAt : Option Datetime) :
    Except ValueError ManagementPrincipal :=
  match h : normalizeDisplayName displayName with
  | .error e => .error e
  | .ok name => do
      let aware := requireAware "principal timestamps must be timezone-aware"
      let createdAt ← aware createdAt
      let disabledAt ← disabledAt.mapM aware
      return {
        principalId, canManagePrincipals, tenantIds, createdAt, disabledAt
        displayName := name
        normalized := normalizeDisplayName_idem h }

def isActive (p : ManagementPrincipal) : Bool := p.disabledAt.isNone

def disable (p : ManagementPrincipal) (at' : Aware) : Except ValueError ManagementPrincipal :=
  if p.isActive then .ok { p with disabledAt := some at' }
  else .error ⟨"principal is already disabled"⟩

def withTenantScopes (p : ManagementPrincipal) (tenantIds : Finset Uuid) : ManagementPrincipal :=
  { p with tenantIds }

end ManagementPrincipal

abbrev ManagementCredential := Credential

/-! ## Authentication evidence -/

inductive ManagementAuthenticationOutcome where
  | succeeded
  | credentialMismatch
  | revoked
  | expired
  | principalDisabled
  deriving DecidableEq

def hourlyBucket (at' : Aware) : Except OverflowError Utc := do
  let utc ← at'.astimezone
  return utc.startOfHour

structure ManagementAuthenticationEvidence where
  credentialId : Uuid
  principalId : Uuid
  outcome : ManagementAuthenticationOutcome
  bucketStartedAt : Utc
  firstObservedAt : Aware
  hourly : hourlyBucket firstObservedAt = .ok bucketStartedAt

/-- The evidence of `_observe`, with the bucket of its time. -/
def ManagementAuthenticationEvidence.at (credentialId principalId : Uuid)
    (outcome : ManagementAuthenticationOutcome) (at' : Aware) :
    Except OverflowError ManagementAuthenticationEvidence :=
  match h : hourlyBucket at' with
  | .ok bucket => .ok ⟨credentialId, principalId, outcome, bucket, at', h⟩
  | .error e => .error e

/-! ## Audit fingerprints -/

/-- `_principal_fingerprint`. -/
def principalFingerprint (sha256 : Sha256) (p : ManagementPrincipal) : String :=
  managementPrincipalFingerprint sha256 p.principalId p.displayName p.tenantIds
    p.canManagePrincipals (!p.isActive)

/-- `_credential_fingerprint`. -/
def credentialFingerprint (sha256 : Sha256) (c : ManagementCredential) :
    Except OverflowError String := do
  let createdAt ← c.createdAt.astimezone
  let expiresAt ← c.expiresAt.mapM Aware.astimezone
  return managementCredentialFingerprint sha256 c.credentialId c.principalId c.label
    createdAt.isoformat (expiresAt.map Utc.isoformat) c.revokedAt.isSome

end Valor.ManagementIdentity
