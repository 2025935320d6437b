/-
  Security: the authenticated principal of a management request.
-/
import Valor.ManagementAudit

namespace Valor.Security

open Python

inductive PrincipalKind where
  | management
  deriving DecidableEq

structure AuthenticatedPrincipal where
  principalId : Uuid
  credentialId : Uuid
  principalKind : PrincipalKind
  authorizedTenantIds : Finset Uuid
  canManagePrincipals : Bool
  not_nil : principalId.int ≠ 0 ∧ credentialId.int ≠ 0

def AuthenticatedPrincipal.new (principalId credentialId : Uuid) (principalKind : PrincipalKind)
    (authorizedTenantIds : Finset Uuid) (canManagePrincipals : Bool) :
    Except ValueError AuthenticatedPrincipal :=
  if h : principalId.int = 0 ∨ credentialId.int = 0 then
    .error ⟨"principal and credential IDs must not be nil UUIDs"⟩
  else
    .ok ⟨principalId, credentialId, principalKind, authorizedTenantIds, canManagePrincipals,
      not_or.mp h⟩

theorem AuthenticatedPrincipal.new_ok {principalId credentialId : Uuid} {kind : PrincipalKind}
    {tenantIds : Finset Uuid} {canManage : Bool} {p : AuthenticatedPrincipal}
    (h : new principalId credentialId kind tenantIds canManage = .ok p) :
    p.principalId = principalId ∧ p.credentialId = credentialId ∧
      p.authorizedTenantIds = tenantIds ∧ p.canManagePrincipals = canManage := by
  unfold new at h
  split at h
  · cases h
  · cases h
    exact ⟨rfl, rfl, rfl, rfl⟩

/-- `authorize_tenant`, which raises TenantManagementAccessDenied unless this holds. -/
def AuthenticatedPrincipal.authorizes (p : AuthenticatedPrincipal) (tenantId : Uuid) : Bool :=
  p.principalKind = .management && tenantId ∈ p.authorizedTenantIds

/-- The `HTTPAuthorizationCredentials` of the request. -/
structure HTTPAuthorizationCredentials where
  scheme : String
  credentials : String

/-- The credentials of an authorization whose scheme is Bearer. No character that is not
    ASCII has a letter of "bearer" as its lowercase. -/
def bearerToken (credentials : Option HTTPAuthorizationCredentials) : Option String :=
  (credentials.filter fun c => ManagementAudit.lower c.scheme = "bearer").map (·.credentials)

end Valor.Security
