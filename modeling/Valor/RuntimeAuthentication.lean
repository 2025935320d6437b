/-
  Security: bearer authentication of the runtime principals of the settings.
-/
import Valor.Security
import Valor.Settings

namespace Valor.Security

open Python Settings

/-- An authenticated runtime workload. -/
structure RuntimePrincipal where
  principalId : String
  tenantId : Uuid
  agentId : Uuid
  usageLimit : Int
  perInvocationAllowance : Int
  not_empty : strip principalId ≠ ""
  limits_positive : 0 < usageLimit ∧ 0 < perInvocationAllowance
  allowance_fits_limit : perInvocationAllowance ≤ usageLimit

def RuntimePrincipal.new (principalId : String) (tenantId agentId : Uuid)
    (usageLimit perInvocationAllowance : Int) : Except ValueError RuntimePrincipal :=
  if hempty : strip principalId = "" then
    .error ⟨"runtime principal_id must not be empty"⟩
  else if hpos : usageLimit ≤ 0 ∨ perInvocationAllowance ≤ 0 then
    .error ⟨"runtime usage limit and allowance must be positive"⟩
  else if hfits : perInvocationAllowance > usageLimit then
    .error ⟨"runtime allowance must not exceed usage limit"⟩
  else
    .ok ⟨principalId, tenantId, agentId, usageLimit, perInvocationAllowance, hempty, by omega,
      by omega⟩

inductive RuntimeAuthenticationError where
  | runtimeAuthenticationFailed
  /-- A credential of the settings that UTF-8 does not encode. -/
  | unicodeEncodeError
  | valueError (message : String)
  deriving DecidableEq

/-- `matches` of `require_runtime_principal`: the configured principals with the supplied
    credential. Every configured credential is encoded; `compare_digest` on the bytes of two
    texts is whether the texts are the same. -/
def matching (settings : RuntimeAuthenticationSettings) (supplied : String) :
    Except RuntimeAuthenticationError (List RuntimePrincipalSettings) :=
  if settings.principals.any (·.credential.hasSurrogate) then .error .unicodeEncodeError
  else .ok (settings.principals.filter fun configured => (supplied : Str) = configured.credential)

/-- `require_runtime_principal`. -/
def requireRuntimePrincipal (settings : RuntimeAuthenticationSettings)
    (credentials : Option HTTPAuthorizationCredentials) :
    Except RuntimeAuthenticationError RuntimePrincipal :=
  match bearerToken credentials with
  | none => .error .runtimeAuthenticationFailed
  | some supplied =>
      match matching settings supplied with
      | .error e => .error e
      | .ok [matched] =>
          (RuntimePrincipal.new matched.principalId matched.tenantId matched.agentId
            matched.usageLimit matched.perInvocationAllowance).mapError
              fun e => .valueError e.message
      | .ok _ => .error .runtimeAuthenticationFailed

/-- The settings have passed all checks of the constructor but one: their `strip_whitespace`
    keeps U+001C to U+001F, which `str.strip` drops. -/
theorem RuntimePrincipal.new_settings (p : RuntimePrincipalSettings) :
    (∃ principal, new p.principalId p.tenantId p.agentId p.usageLimit p.perInvocationAllowance =
        .ok principal) ↔ strip p.principalId ≠ "" := by
  unfold new
  split
  · next h => simp [h]
  · next h =>
    have hlimits := p.usageLimit_pos
    have hallowance := p.perInvocationAllowance_pos
    have hfits := p.allowance_fits_limit
    rw [dif_neg (by omega), dif_neg (by omega)]
    exact iff_of_true ⟨_, rfl⟩ h

theorem matching_raised {settings : RuntimeAuthenticationSettings} (supplied : String)
    (h : ¬∀ p ∈ settings.principals, p.credential.hasSurrogate = false) :
    matching settings supplied = .error .unicodeEncodeError :=
  if_pos (by simpa using h)

/-- Credentials are unique, so a supplied one matches at most one principal. -/
theorem matching_cases {settings : RuntimeAuthenticationSettings} (supplied : String)
    (h : ∀ p ∈ settings.principals, p.credential.hasSurrogate = false) :
    (matching settings supplied = .ok [] ∧
        ∀ p ∈ settings.principals, p.credential ≠ (supplied : Str)) ∨
      ∃ matched ∈ settings.principals, matching settings supplied = .ok [matched] ∧
        ∀ p ∈ settings.principals, p.credential = (supplied : Str) ↔ p = matched := by
  have hany : ¬settings.principals.any (·.credential.hasSurrogate) = true := by simpa using h
  unfold matching
  rw [if_neg hany]
  set found := settings.principals.filter fun configured => (supplied : Str) = configured.credential
    with hfound
  have hmem : ∀ p, p ∈ found ↔ p ∈ settings.principals ∧ p.credential = (supplied : Str) := by
    intro p
    simp [hfound, eq_comm]
  have hnodup : (found.map (·.credential)).Nodup :=
    settings.credentials_unique.sublist (List.filter_sublist.map _)
  clear_value found
  cases found with
  | nil =>
    refine .inl ⟨rfl, fun p hp hsupplied => ?_⟩
    exact absurd ((hmem p).mpr ⟨hp, hsupplied⟩) List.not_mem_nil
  | cons matched rest =>
    obtain ⟨hmatched, hcredential⟩ := (hmem matched).mp (List.mem_cons_self ..)
    have hrest : rest = [] := by
      cases rest with
      | nil => rfl
      | cons q rest =>
        have hq := ((hmem q).mp (by simp)).2
        simp [hcredential, hq] at hnodup
    subst hrest
    refine .inr ⟨matched, hmatched, rfl, fun p hp => ?_⟩
    have hone : p ∈ [matched] ↔ p = matched := List.mem_singleton
    rw [← hone, hmem]
    exact ⟨fun h => ⟨hp, h⟩, And.right⟩

/-- The supplied text is accepted or refused, unless a configured credential has no encoding
    or the text is the credential of a principal whose id is empty to `str.strip`. -/
theorem requireRuntimePrincipal_cases (settings : RuntimeAuthenticationSettings)
    {credentials : Option HTTPAuthorizationCredentials} {supplied : String}
    (h : bearerToken credentials = some supplied) :
    ((∃ principal, requireRuntimePrincipal settings credentials = .ok principal) ∨
        requireRuntimePrincipal settings credentials = .error .runtimeAuthenticationFailed) ↔
      (∀ p ∈ settings.principals, p.credential.hasSurrogate = false) ∧
        ∀ p ∈ settings.principals, p.credential = (supplied : Str) → strip p.principalId ≠ "" := by
  unfold requireRuntimePrincipal
  rw [h]
  by_cases hencoded : ∀ p ∈ settings.principals, p.credential.hasSurrogate = false
  · obtain ⟨hnone, hnot⟩ | ⟨matched, hmem, hone, honly⟩ := matching_cases supplied hencoded
    · simp only [hnone]
      exact iff_of_true (.inr trivial)
        ⟨hencoded, fun p hp hsupplied => absurd hsupplied (hnot p hp)⟩
    · have hnew := RuntimePrincipal.new_settings matched
      simp only [hone]
      constructor
      · refine fun houtcome => ⟨hencoded, fun p hp hsupplied => ?_⟩
        obtain rfl := (honly p hp).mp hsupplied
        apply hnew.mp
        cases hprincipal : RuntimePrincipal.new p.principalId p.tenantId p.agentId p.usageLimit
            p.perInvocationAllowance with
        | ok principal => exact ⟨principal, rfl⟩
        | error e =>
          rw [hprincipal] at houtcome
          obtain ⟨principal, hok⟩ | herror := houtcome
          · cases hok
          · cases herror
      · rintro ⟨_, hstrip⟩
        obtain ⟨principal, hok⟩ := hnew.mpr (hstrip matched hmem ((honly matched hmem).mpr rfl))
        rw [hok]
        exact .inl ⟨principal, rfl⟩
  · simp only [matching_raised supplied hencoded]
    refine iff_of_false ?_ fun hboth => hencoded hboth.1
    rintro (⟨principal, hok⟩ | herror)
    · cases hok
    · cases herror

/-- The principal is one of the settings. -/
theorem requireRuntimePrincipal_ok {settings : RuntimeAuthenticationSettings}
    {credentials : Option HTTPAuthorizationCredentials} {principal : RuntimePrincipal}
    (h : requireRuntimePrincipal settings credentials = .ok principal) :
    ∃ p ∈ settings.principals, p.principalId = principal.principalId ∧
      p.tenantId = principal.tenantId := by
  unfold requireRuntimePrincipal at h
  split at h
  · cases h
  · next supplied _ =>
    by_cases hencoded : ∀ p ∈ settings.principals, p.credential.hasSurrogate = false
    · obtain ⟨hnone, _⟩ | ⟨matched, hmem, hone, _⟩ := matching_cases supplied hencoded
      · rw [hnone] at h
        cases h
      · simp only [hone, RuntimePrincipal.new] at h
        refine ⟨matched, hmem, ?_⟩
        split at h
        · cases h
        · split at h
          · cases h
          · split at h
            · cases h
            · cases h
              exact ⟨rfl, rfl⟩
    · rw [matching_raised supplied hencoded] at h
      cases h

end Valor.Security
