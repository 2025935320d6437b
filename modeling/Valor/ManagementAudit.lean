/-
  Management audit: the record every management write appends, and its fingerprints.

  SHA-256 is a parameter: any function into texts of 64 lowercase hexadecimal digits.
  Nothing here needs it to be collision free.
-/
import Valor.Python.Datetime
import Valor.Python.Uuid

namespace Valor.ManagementAudit

open Python

/-- The characters of `"0123456789abcdef"`. -/
def isHexDigit (c : Char) : Bool := "0123456789abcdef".toList.contains c

/-- 64 lowercase hexadecimal digits. -/
def isHexDigest (s : String) : Bool := len s = 64 && s.toList.all isHexDigit

abbrev HexDigest := { s : String // isHexDigest s }

def zeros : String := String.ofList (List.replicate 64 '0')

theorem isHexDigest_zeros : isHexDigest zeros = true := by decide +kernel

/-- The digest of which every digit is zero. -/
def zeroDigest : HexDigest := ⟨zeros, isHexDigest_zeros⟩

/-- `sha256(text.encode()).hexdigest()`. -/
abbrev Sha256 := String → HexDigest

inductive Action where
  | agentModelPermissionSet
  | managementPrincipalCreated
  | managementCredentialIssued
  | managementCredentialRevoked
  | managementPrincipalDisabled
  | managementPrincipalScopesSet
  | runtimePrincipalCreated
  | runtimeCredentialIssued
  | runtimeCredentialRevoked
  | runtimePrincipalDisabled
  | runtimePrincipalUsageLimitsInitialized
  | runtimePrincipalIdentityContinuityBound
  deriving DecidableEq, Repr

inductive ResourceType where
  | agentModelPermission
  | managementPrincipal
  | managementCredential
  | runtimePrincipal
  | runtimeCredential
  deriving DecidableEq, Repr

inductive Outcome where
  | succeeded
  | failed
  deriving DecidableEq, Repr

/-- `ManagementAuditRecord`; the last three fields are what `__post_init__` checks. -/
structure Record where
  auditId : Uuid
  principalId : String
  tenantId : Option Uuid
  action : Action
  resourceType : ResourceType
  resourceId : Uuid
  outcome : Outcome
  occurredAt : Aware
  beforeFingerprint : Option String
  afterFingerprint : Option String
  principal_nonempty : strip principalId ≠ ""
  fingerprints_hex : ∀ f, beforeFingerprint = some f ∨ afterFingerprint = some f → isHexDigest f
  after_of_succeeded : outcome = .succeeded → afterFingerprint ≠ none
  deriving DecidableEq

/-- A fingerprint that is there and is not a digest. `lower()` changes no text that
    passes the other two checks, so it is left out. -/
def badFingerprint (f : Option String) : Bool := f.any fun s => !isHexDigest s

/-- `ManagementAuditRecord(...)`. -/
def Record.new (auditId : Uuid) (principalId : String) (tenantId : Option Uuid) (action : Action)
    (resourceType : ResourceType) (resourceId : Uuid) (outcome : Outcome) (occurredAt : Datetime)
    (beforeFingerprint afterFingerprint : Option String) : Except ValueError Record :=
  if hp : strip principalId = "" then .error ⟨"principal_id must not be empty"⟩
  else
    match occurredAt with
    | .naive .. => .error ⟨"occurred_at must be timezone-aware"⟩
    | .aware occurredAt =>
        if hf : badFingerprint beforeFingerprint ∨ badFingerprint afterFingerprint then
          .error ⟨"fingerprints must be lowercase SHA-256 hex digests"⟩
        else if ho : outcome = .succeeded ∧ afterFingerprint = none then
          .error ⟨"successful audit records require an after fingerprint"⟩
        else
          .ok {
            auditId, principalId, tenantId, action, resourceType, resourceId, outcome, occurredAt,
            beforeFingerprint, afterFingerprint
            principal_nonempty := hp
            fingerprints_hex := by
              rintro f (rfl | rfl) <;> simp_all [badFingerprint]
            after_of_succeeded := fun h => by simpa [h] using ho }

/-- A record has what it was made from. -/
theorem Record.new_ok {auditId : Uuid} {principalId : String} {tenantId : Option Uuid}
    {action : Action} {resourceType : ResourceType} {resourceId : Uuid} {outcome : Outcome}
    {occurredAt : Datetime} {before after : Option String} {record : Record}
    (h : Record.new auditId principalId tenantId action resourceType resourceId outcome occurredAt
      before after = .ok record) :
    record.tenantId = tenantId ∧ record.action = action ∧ record.resourceType = resourceType ∧
      record.resourceId = resourceId ∧ record.outcome = outcome ∧
      record.beforeFingerprint = before ∧ record.afterFingerprint = after := by
  unfold Record.new at h
  split at h
  · cases h
  · split at h
    · cases h
    · split at h
      · cases h
      · split at h
        · cases h
        · cases h
          exact ⟨rfl, rfl, rfl, rfl, rfl, rfl, rfl⟩

/-- A record of what has succeeded, with the fingerprint of what is left. -/
theorem Record.exists_succeeded (auditId : Uuid) {principalId : String} (tenantId : Option Uuid)
    (action : Action) (resourceType : ResourceType) (resourceId : Uuid) (occurredAt : Aware)
    {before : Option String} {after : String} (hprincipal : strip principalId ≠ "")
    (hbefore : ∀ f ∈ before, isHexDigest f) (hafter : isHexDigest after) :
    ∃ record, Record.new auditId principalId tenantId action resourceType resourceId .succeeded
      (.aware occurredAt) before (some after) = .ok record := by
  have hfingerprints : ¬(badFingerprint before = true ∨ badFingerprint (some after) = true) := by
    rintro (h | h)
    · obtain ⟨f, hf, hbad⟩ := (Option.any_eq_true ..).mp h
      simp [hbefore f hf] at hbad
    · simp [badFingerprint, hafter] at h
  unfold Record.new
  rw [dif_neg hprincipal]
  dsimp only
  rw [dif_neg hfingerprints, dif_neg (by simp)]
  exact ⟨_, rfl⟩

/-- A record of an action on one resource. -/
def Record.About (record : Record) (action : Action) (resourceId : Uuid) : Prop :=
  record.action = action ∧ record.resourceId = resourceId

instance (record : Record) (action : Action) (resourceId : Uuid) :
    Decidable (record.About action resourceId) :=
  inferInstanceAs (Decidable (_ ∧ _))

/-! ## Fingerprints -/

/-- `str(flag).lower()`. -/
def boolText (b : Bool) : String := if b then "true" else "false"

/-- `value or ''` of an optional text: the empty text is falsy. -/
def textOr (s : Option String) : String := s.getD ""

/-- `value or ''` of an optional integer in an f-string: zero is falsy. -/
def unitsOr : Option Int → String
  | some 0 | none => ""
  | some n => toString n

/-- `s.lower()` on the ASCII letters; every caller passes a lowercase constant. -/
def lower (s : String) : String := String.ofList (s.toList.map Char.toLower)

def canonical (lines : List String) : String := String.intercalate "\n" lines

/-- Texts that differ in the end of one line only. -/
theorem canonical_line_injective (before after : List String) {start a b : String}
    (h : canonical (before ++ (start ++ a) :: after) = canonical (before ++ (start ++ b) :: after)) :
    a = b := by
  have key : ∀ (sep x y : List Char) (l l' : List (List Char)),
      sep.intercalate (l ++ x :: l') = sep.intercalate (l ++ y :: l') → x = y := by
    intro sep x y l l'
    induction l with
    | nil =>
      intro h
      cases l' with
      | nil => simpa using h
      | cons z l' =>
        simp only [List.nil_append, List.intercalate_cons_cons, List.append_assoc] at h
        exact List.append_cancel_right h
    | cons z l ih =>
      intro h
      cases l with
      | nil =>
        simp only [List.cons_append, List.nil_append, List.intercalate_cons_cons] at h ih
        exact ih (List.append_cancel_left h)
      | cons z' l =>
        simp only [List.cons_append, List.intercalate_cons_cons] at h ih
        exact ih (List.append_cancel_left h)
  have hl := congrArg String.toList h
  simp only [canonical, String.toList_intercalate, List.map_append, List.map_cons] at hl
  have hline := key _ _ _ _ _ hl
  simp only [String.toList_append, List.append_cancel_left_eq] at hline
  exact String.toList_injective hline

def agentModelPermissionFingerprint (sha256 : Sha256) (tenantId agentId modelId : Uuid)
    (effect : String) : String :=
  (sha256 <| canonical [
    "tenant_id=" ++ tenantId.str,
    "agent_id=" ++ agentId.str,
    "model_id=" ++ modelId.str,
    "effect=" ++ lower (strip effect)]).val

def managementPrincipalFingerprint (sha256 : Sha256) (principalId : Uuid) (displayName : String)
    (tenantIds : Finset Uuid) (canManagePrincipals disabled : Bool) : String :=
  (sha256 <| canonical [
    "principal_id=" ++ principalId.str,
    "display_name=" ++ collapse displayName,
    "tenant_ids=" ++ String.intercalate "," ((tenantIds.sort (· ≤ ·)).map Uuid.str),
    "can_manage_principals=" ++ boolText canManagePrincipals,
    "disabled=" ++ boolText disabled]).val

/-- The fingerprint of a credential of either kind. -/
def credentialFingerprint (sha256 : Sha256) (credentialId principalId : Uuid)
    (label : Option String) (createdAt : String) (expiresAt : Option String) (revoked : Bool) :
    String :=
  (sha256 <| canonical [
    "credential_id=" ++ credentialId.str,
    "principal_id=" ++ principalId.str,
    "label=" ++ textOr (label.map collapse),
    "created_at=" ++ createdAt,
    "expires_at=" ++ textOr expiresAt,
    "revoked=" ++ boolText revoked]).val

def managementCredentialFingerprint (sha256 : Sha256) (credentialId principalId : Uuid)
    (label : Option String) (createdAt : String) (expiresAt : Option String) (revoked : Bool) :
    String :=
  credentialFingerprint sha256 credentialId principalId label createdAt expiresAt revoked

def runtimeCredentialFingerprint (sha256 : Sha256) (credentialId principalId : Uuid)
    (label : Option String) (createdAt : String) (expiresAt : Option String) (revoked : Bool) :
    String :=
  credentialFingerprint sha256 credentialId principalId label createdAt expiresAt revoked

def runtimePrincipalFingerprint (sha256 : Sha256) (principalId tenantId agentId : Uuid)
    (disabled : Bool) (dailyUsageLimitUnits perInvocationAllowanceUnits : Option Int)
    (legacyRuntimePrincipalId : Option String) : String :=
  (sha256 <| canonical [
    "principal_id=" ++ principalId.str,
    "tenant_id=" ++ tenantId.str,
    "agent_id=" ++ agentId.str,
    "daily_usage_limit_units=" ++ unitsOr dailyUsageLimitUnits,
    "per_invocation_allowance_units=" ++ unitsOr perInvocationAllowanceUnits,
    "legacy_runtime_principal_id=" ++ textOr legacyRuntimePrincipalId,
    "disabled=" ++ boolText disabled]).val

end Valor.ManagementAudit
