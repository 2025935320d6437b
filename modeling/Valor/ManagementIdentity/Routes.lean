/-
  Management identity: the HTTP routes that call the service.

  `bootstrap` hands the bearer token to the service. Every other route first runs
  `require_management_principal`, which authenticates the token in a transaction of its
  own, and then calls the service with that principal as the actor. The listings behind the
  same dependency never call the service and are left out.
-/
import Valor.ManagementIdentity.Authentication
import Valor.Security

namespace Valor.ManagementIdentity

open Python Prog ReadCommitted Security

/-- What a route with a command takes from its path and body. -/
inductive Payload where
  | createPrincipal (displayName : String) (tenantIds : Finset Uuid) (canManagePrincipals : Bool)
  | setScopes (principalId : Uuid) (tenantIds : Finset Uuid)
  | issueCredential (principalId : Uuid) (label : Option String) (expiresAt : Option Datetime)
  | revokeCredential (principalId credentialId : Uuid)
  | disablePrincipal (principalId : Uuid)

def Payload.command (actor : ManagementActor) : Payload → Command
  | createPrincipal displayName tenantIds canManagePrincipals =>
      .createPrincipal ⟨actor, displayName, tenantIds, canManagePrincipals⟩
  | setScopes principalId tenantIds => .setScopes ⟨actor, principalId, tenantIds⟩
  | issueCredential principalId label expiresAt =>
      .issueCredential ⟨actor, principalId, label, expiresAt⟩
  | revokeCredential principalId credentialId => .revokeCredential ⟨actor, principalId, credentialId⟩
  | disablePrincipal principalId => .disablePrincipal ⟨actor, principalId⟩

inductive Route where
  | bootstrap (displayName : String) (tenantIds : Finset Uuid)
  | managed (payload : Payload)
  | getPrincipal (principalId : Uuid)

/-- A request; `at'` is the clock of its authentication. -/
structure HttpRequest where
  credentials : Option HTTPAuthorizationCredentials
  route : Route
  at' : Utc
  env : Env

/-- `actor(principal)`. -/
def actor (principal : AuthenticatedPrincipal) : ManagementActor :=
  ⟨principal.principalId, principal.canManagePrincipals⟩

def requireManagementPrincipal (a : ManagementAuthenticator)
    (credentials : Option HTTPAuthorizationCredentials) (at' : Utc) :
    Program AuthenticatedPrincipal :=
  match bearerToken credentials with
  | none => .raise .managementAuthenticationFailed
  | some token => do
      let identity ← a.authenticate token at'
      match identity with
      | none => .raise .managementAuthenticationFailed
      | some identity =>
          orValueError (AuthenticatedPrincipal.new identity.principalId identity.credentialId
            .management identity.authorizedTenantIds identity.canManagePrincipals)

def Service.serve (s : Service) (request : HttpRequest) : Program Reply :=
  match request.route with
  | .bootstrap displayName tenantIds =>
      match bearerToken request.credentials with
      | none => .raise .bootstrapAuthenticationFailed
      | some token => s.handle ⟨.bootstrap ⟨token, displayName, tenantIds⟩, request.env⟩
  | .managed payload => do
      let principal ← requireManagementPrincipal s.authenticator request.credentials request.at'
      s.handle ⟨payload.command (actor principal), request.env⟩
  | .getPrincipal principalId => do
      let principal ← requireManagementPrincipal s.authenticator request.credentials request.at'
      let found ← Service.getPrincipal (actor principal) principalId
      return .principal found

end Valor.ManagementIdentity
