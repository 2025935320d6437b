/-
  Management audit: the texts that are fingerprinted.

  Every fingerprint is the digest of a text of lines, one for each field. A field is written
  as it is, so the text is unambiguous only because no field but one can hold a newline: free
  texts are collapsed, times and numbers are written in digits. The legacy identity of a
  Runtime Principal may hold newlines, but it is the only such line of its text.

  A structure stands for the arguments of each function, as its callers can pass them.
-/
import Valor.Lib.Lines
import Valor.ManagementIdentity.Domain
import Valor.PolicyRisk
import Valor.RuntimeIdentity.Domain

namespace Valor.ManagementAudit

open Python PolicyRisk

/-! ## The arguments and their texts -/

@[ext]
structure PermissionArgs where
  tenantId : Uuid
  agentId : Uuid
  modelId : Uuid
  effect : PolicyEffect

def PermissionArgs.lines (x : PermissionArgs) : List String := [
  "tenant_id=" ++ x.tenantId.str,
  "agent_id=" ++ x.agentId.str,
  "model_id=" ++ x.modelId.str,
  "effect=" ++ lower (strip x.effect.value)]

def PermissionArgs.text (x : PermissionArgs) : String := canonical x.lines

structure ManagementPrincipalArgs where
  principalId : Uuid
  displayName : String
  tenantIds : Finset Uuid
  canManagePrincipals : Bool
  disabled : Bool

def ManagementPrincipalArgs.lines (x : ManagementPrincipalArgs) : List String := [
  "principal_id=" ++ x.principalId.str,
  "display_name=" ++ collapse x.displayName,
  "tenant_ids=" ++ String.intercalate "," ((x.tenantIds.sort (· ≤ ·)).map Uuid.str),
  "can_manage_principals=" ++ boolText x.canManagePrincipals,
  "disabled=" ++ boolText x.disabled]

def ManagementPrincipalArgs.text (x : ManagementPrincipalArgs) : String := canonical x.lines

/-- A text that `datetime.isoformat` writes. -/
def IsIso (s : String) : Prop := ∃ a : Aware, s = a.isoformat

/-- The arguments of `management_credential_fingerprint` and of
    `runtime_credential_fingerprint`. -/
structure CredentialArgs where
  credentialId : Uuid
  principalId : Uuid
  label : Option String
  createdAt : String
  expiresAt : Option String
  revoked : Bool
  createdAt_iso : IsIso createdAt
  expiresAt_iso : ∀ e ∈ expiresAt, IsIso e

def CredentialArgs.lines (x : CredentialArgs) : List String := [
  "credential_id=" ++ x.credentialId.str,
  "principal_id=" ++ x.principalId.str,
  "label=" ++ textOr (x.label.map collapse),
  "created_at=" ++ x.createdAt,
  "expires_at=" ++ textOr x.expiresAt,
  "revoked=" ++ boolText x.revoked]

def CredentialArgs.text (x : CredentialArgs) : String := canonical x.lines

@[ext]
structure RuntimePrincipalArgs where
  principalId : Uuid
  tenantId : Uuid
  agentId : Uuid
  disabled : Bool
  dailyUsageLimitUnits : Option Int
  perInvocationAllowanceUnits : Option Int
  legacyRuntimePrincipalId : Option String
  daily_pos : ∀ n ∈ dailyUsageLimitUnits, 0 < n
  allowance_pos : ∀ n ∈ perInvocationAllowanceUnits, 0 < n
  legacy_stripped : ∀ s ∈ legacyRuntimePrincipalId, strip s = s ∧ s ≠ ""

/-- The lines before the legacy identity. -/
def RuntimePrincipalArgs.lines (x : RuntimePrincipalArgs) : List String := [
  "principal_id=" ++ x.principalId.str,
  "tenant_id=" ++ x.tenantId.str,
  "agent_id=" ++ x.agentId.str,
  "daily_usage_limit_units=" ++ unitsOr x.dailyUsageLimitUnits,
  "per_invocation_allowance_units=" ++ unitsOr x.perInvocationAllowanceUnits]

def RuntimePrincipalArgs.text (x : RuntimePrincipalArgs) : String :=
  canonical (x.lines ++ ("legacy_runtime_principal_id=" ++ textOr x.legacyRuntimePrincipalId) ::
    ["disabled=" ++ boolText x.disabled])

/-! ### They are what the functions digest -/

section Digests

variable (sha256 : Sha256)

theorem agentModelPermissionFingerprint_eq (x : PermissionArgs) :
    agentModelPermissionFingerprint sha256 x.tenantId x.agentId x.modelId x.effect.value =
      (sha256 x.text).val := rfl

theorem managementPrincipalFingerprint_eq (x : ManagementPrincipalArgs) :
    managementPrincipalFingerprint sha256 x.principalId x.displayName x.tenantIds
      x.canManagePrincipals x.disabled = (sha256 x.text).val := rfl

theorem managementCredentialFingerprint_eq (x : CredentialArgs) :
    managementCredentialFingerprint sha256 x.credentialId x.principalId x.label x.createdAt x.expiresAt
      x.revoked = (sha256 x.text).val := rfl

theorem runtimeCredentialFingerprint_eq (x : CredentialArgs) :
    runtimeCredentialFingerprint sha256 x.credentialId x.principalId x.label x.createdAt x.expiresAt
      x.revoked = (sha256 x.text).val := rfl

theorem runtimePrincipalFingerprint_eq (x : RuntimePrincipalArgs) :
    runtimePrincipalFingerprint sha256 x.principalId x.tenantId x.agentId x.disabled
      x.dailyUsageLimitUnits x.perInvocationAllowanceUnits x.legacyRuntimePrincipalId =
      (sha256 x.text).val := rfl

end Digests

/-! ### They are what the callers pass -/

section Callers

variable {sha256 : Sha256}

def ManagementPrincipalArgs.ofPrincipal (p : ManagementIdentity.ManagementPrincipal) :
    ManagementPrincipalArgs :=
  ⟨p.principalId, p.displayName, p.tenantIds, p.canManagePrincipals, !p.isActive⟩

theorem managementPrincipal_digest (p : ManagementIdentity.ManagementPrincipal) :
    ManagementIdentity.principalFingerprint sha256 p =
      (sha256 (ManagementPrincipalArgs.ofPrincipal p).text).val := rfl

/-- The times of a Management Credential are written in UTC. -/
theorem managementCredential_digest {c : ManagementIdentity.ManagementCredential} {f : String}
    (h : ManagementIdentity.credentialFingerprint sha256 c = .ok f) :
    ∃ x : CredentialArgs, f = (sha256 x.text).val ∧ x.credentialId = c.credentialId ∧
      x.principalId = c.principalId ∧ x.label = c.label ∧ x.revoked = c.revokedAt.isSome := by
  obtain ⟨createdAt, _, h⟩ := Except.bind_ok_cases h
  obtain ⟨expiresAt, _, h⟩ := Except.bind_ok_cases h
  cases h
  refine ⟨⟨c.credentialId, c.principalId, c.label, createdAt.isoformat,
    expiresAt.map Utc.isoformat, c.revokedAt.isSome, ⟨_, rfl⟩, ?_⟩, rfl, rfl, rfl, rfl, rfl⟩
  intro e he
  obtain ⟨u, _, rfl⟩ := Option.map_eq_some_iff.mp he
  exact ⟨u.toAware, rfl⟩

def CredentialArgs.ofCredential (c : RuntimeIdentity.RuntimeCredential) : CredentialArgs where
  credentialId := c.credentialId
  principalId := c.principalId
  label := c.label
  createdAt := c.createdAt.isoformat
  expiresAt := c.expiresAt.map Aware.isoformat
  revoked := c.revokedAt.isSome
  createdAt_iso := ⟨_, rfl⟩
  expiresAt_iso := by
    intro e he
    obtain ⟨a, _, rfl⟩ := Option.map_eq_some_iff.mp he
    exact ⟨a, rfl⟩

theorem runtimeCredential_digest (c : RuntimeIdentity.RuntimeCredential) :
    RuntimeIdentity.credentialFingerprint sha256 c =
      (sha256 (CredentialArgs.ofCredential c).text).val := rfl

theorem limits_pos {daily allowance : Option Int}
    (ht : RuntimeIdentity.limitsTogether daily allowance)
    (hp : RuntimeIdentity.limitsPositive daily allowance) :
    (∀ n ∈ daily, 0 < n) ∧ ∀ n ∈ allowance, 0 < n := by
  cases daily <;> cases allowance <;>
    simp_all [RuntimeIdentity.limitsTogether, RuntimeIdentity.limitsPositive]

def RuntimePrincipalArgs.ofPrincipal (p : RuntimeIdentity.RuntimePrincipal) :
    RuntimePrincipalArgs where
  principalId := p.principalId
  tenantId := p.tenantId
  agentId := p.agentId
  disabled := !p.isActive
  dailyUsageLimitUnits := p.dailyUsageLimitUnits
  perInvocationAllowanceUnits := p.perInvocationAllowanceUnits
  legacyRuntimePrincipalId := p.legacyRuntimePrincipalId
  daily_pos := (limits_pos p.limits_together p.limits_positive).1
  allowance_pos := (limits_pos p.limits_together p.limits_positive).2
  legacy_stripped := by
    intro s hs
    have hstripped := p.legacy_stripped
    have hfits := p.legacy_fits
    rw [Option.mem_def.mp hs] at hstripped hfits
    simp only [RuntimeIdentity.legacyFits, Option.all_some, Bool.and_eq_true,
      decide_eq_true_eq] at hfits
    exact ⟨Option.some_inj.mp hstripped, hfits.1⟩

theorem runtimePrincipal_digest (p : RuntimeIdentity.RuntimePrincipal) :
    RuntimeIdentity.principalFingerprint sha256 p =
      (sha256 (RuntimePrincipalArgs.ofPrincipal p).text).val := rfl

end Callers

/-! ## Texts of one line -/

/-- A text without a newline. -/
def OneLine (s : String) : Prop := '\n' ∉ s.toList

instance (s : String) : Decidable (OneLine s) := inferInstanceAs (Decidable (_ ∉ _))

theorem OneLine.append {a b : String} (ha : OneLine a) (hb : OneLine b) : OneLine (a ++ b) := by
  rw [OneLine, String.toList_append, List.mem_append, not_or]
  exact ⟨ha, hb⟩

theorem toList_injective : Function.Injective String.toList := fun _ _ => String.toList_injective

end Valor.ManagementAudit
