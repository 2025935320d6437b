/-
  Credentials of principals.

  `ManagementCredential` and `RuntimeCredential` are two classes with the same fields, the
  same checks and the same table, and so are one type here. A value has passed its
  `__post_init__`: the fields after the data say what was checked. `new` is the
  constructor with its error texts. `dataclasses.replace` runs the checks again; on a
  value that has passed them only the replaced field can fail, so `revoke` is written as a
  record update.

  Rows carry what the constructor checks, since only values that passed it are written.
-/
import Valor.ManagementAudit
import Valor.Lib.Table
import Valor.Postgres

namespace Valor

open Python Postgres ManagementAudit

/-- The label with its white space collapsed; an empty one becomes None. -/
def canonicalLabel (label : Option String) : Option String :=
  (label.map collapse).filter (· ≠ "")

def labelFits (label : Option String) : Bool := label.all fun s => len s ≤ 100

theorem canonicalLabel_none : canonicalLabel none = none := rfl

theorem labelFits_none : labelFits none := rfl

@[simp] theorem canonicalLabel_idem (label : Option String) :
    canonicalLabel (canonicalLabel label) = canonicalLabel label := by
  cases label with
  | none => rfl
  | some s =>
    by_cases h : collapse s = "" <;> simp [canonicalLabel, Option.filter, h]

/-- A timestamp that must be timezone-aware. -/
def requireAware (message : String) : Datetime → Except ValueError Aware
  | .naive .. => .error ⟨message⟩
  | .aware at' => .ok at'

structure Credential where
  credentialId : Uuid
  principalId : Uuid
  secretVerifier : String
  label : Option String
  createdAt : Aware
  expiresAt : Option Aware
  revokedAt : Option Aware
  label_canonical : canonicalLabel label = label
  label_fits : labelFits label
  verifier_hex : isHexDigest secretVerifier
  expires_later : ∀ e ∈ expiresAt, createdAt < e
  deriving DecidableEq

namespace Credential

def new (credentialId principalId : Uuid) (secretVerifier : String) (label : Option String)
    (createdAt : Datetime) (expiresAt revokedAt : Option Datetime) :
    Except ValueError Credential :=
  if hl : labelFits (canonicalLabel label) = false then
    .error ⟨"credential label must not exceed 100 characters"⟩
  else if hv : isHexDigest secretVerifier = false then
    .error ⟨"secret_verifier must be lowercase HMAC-SHA256 hex"⟩
  else do
    let aware := requireAware "credential timestamps must be timezone-aware"
    let createdAt ← aware createdAt
    let expiresAt ← expiresAt.mapM aware
    let revokedAt ← revokedAt.mapM aware
    if he : ∀ e ∈ expiresAt, createdAt < e then
      return {
        credentialId, principalId, secretVerifier, createdAt, expiresAt, revokedAt
        label := canonicalLabel label
        label_canonical := canonicalLabel_idem label
        label_fits := by simpa using hl
        verifier_hex := by simpa using hv
        expires_later := he }
    else throw ⟨"expires_at must be later than created_at"⟩

def isUsableAt (c : Credential) (at' : Aware) : Bool :=
  c.revokedAt.isNone && c.expiresAt.all fun e => at' < e

def revoke (c : Credential) (at' : Aware) : Except ValueError Credential :=
  if c.revokedAt.isSome then .error ⟨"credential is already revoked"⟩
  else .ok { c with revokedAt := some at' }

/-- What a credential without a revocation time was made from. -/
theorem new_ok {credentialId principalId : Uuid} {verifier : String} {label : Option String}
    {createdAt : Datetime} {expiresAt : Option Datetime} {c : Credential}
    (h : new credentialId principalId verifier label createdAt expiresAt none = .ok c) :
    c.credentialId = credentialId ∧ c.principalId = principalId ∧
      c.expiresAt.isSome = expiresAt.isSome ∧ c.revokedAt = none := by
  unfold new at h
  split at h
  · cases h
  · split at h
    · cases h
    · obtain ⟨createdAt, _, h⟩ := Except.bind_ok_cases h
      obtain ⟨e, he, h⟩ := Except.bind_ok_cases h
      obtain ⟨r, hr, h⟩ := Except.bind_ok_cases h
      cases hr
      split at h
      · cases h
        exact ⟨rfl, rfl, Except.isSome_mapM he, rfl⟩
      · cases h

theorem eq_map_of_mapM_requireAware {message : String} {t : Option Datetime} {u : Option Aware}
    (h : t.mapM (requireAware message) = .ok u) : t = u.map .aware := by
  cases t with
  | none =>
    cases h
    rfl
  | some t =>
    cases t with
    | naive => cases h
    | aware a =>
      cases h
      rfl

/-- The fields that a credential has from its constructor's arguments. -/
theorem new_fields {credentialId principalId : Uuid} {verifier : String} {label : Option String}
    {createdAt : Datetime} {expiresAt revokedAt : Option Datetime} {c : Credential}
    (h : new credentialId principalId verifier label createdAt expiresAt revokedAt = .ok c) :
    c.secretVerifier = verifier ∧ c.label = canonicalLabel label ∧ createdAt = .aware c.createdAt ∧
      expiresAt = c.expiresAt.map .aware := by
  unfold new at h
  split at h
  · cases h
  · split at h
    · cases h
    · obtain ⟨created, hcreated, h⟩ := Except.bind_ok_cases h
      obtain ⟨e, he, h⟩ := Except.bind_ok_cases h
      obtain ⟨r, _, h⟩ := Except.bind_ok_cases h
      split at h
      · cases h
        refine ⟨rfl, rfl, ?_, eq_map_of_mapM_requireAware he⟩
        cases createdAt with
        | naive => cases hcreated
        | aware a =>
          cases hcreated
          rfl
      · cases h

end Credential

/-! ## The table -/

structure CredentialRow where
  credentialId : Uuid
  principalId : Uuid
  secretVerifier : String
  label : Option String
  createdAt : Utc
  expiresAt : Option Utc
  revokedAt : Option Utc
  label_canonical : canonicalLabel label = label
  label_fits : labelFits label
  verifier_hex : isHexDigest secretVerifier
  expires_later : ∀ e ∈ expiresAt, createdAt.instant < e.instant

instance : Keyed CredentialRow Uuid := ⟨CredentialRow.credentialId⟩

/-- Credentials whose expiry is later than their creation have it so in UTC. -/
theorem expires_later_timestamptz {c : Credential} {createdAt : Utc} {expiresAt : Option Utc}
    (hc : timestamptz c.createdAt = .ok createdAt)
    (he : c.expiresAt.mapM timestamptz = .ok expiresAt) :
    ∀ e ∈ expiresAt, createdAt.instant < e.instant := by
  intro e hmem
  obtain rfl : expiresAt = some e := by simpa using hmem
  cases hx : c.expiresAt with
  | none => simp [hx, pure, Except.pure] at he
  | some x =>
    cases hu : timestamptz x with
    | error _ => simp [hx, hu, Functor.map, Except.map] at he
    | ok u =>
      obtain rfl : u = e := by simpa [hx, hu, Functor.map, Except.map] using he
      rw [timestamptz_instant hc, timestamptz_instant hu]
      exact c.expires_later x (by simp [hx])

def CredentialRow.ofCredential (c : Credential) : Except DataError CredentialRow :=
  match hc : timestamptz c.createdAt, he : c.expiresAt.mapM timestamptz,
      c.revokedAt.mapM timestamptz, c.label.mapM text with
  | .ok createdAt, .ok expiresAt, .ok revokedAt, .ok _ =>
      .ok {
        createdAt, expiresAt, revokedAt
        credentialId := c.credentialId
        principalId := c.principalId
        secretVerifier := c.secretVerifier
        label := c.label
        label_canonical := c.label_canonical
        label_fits := c.label_fits
        verifier_hex := c.verifier_hex
        expires_later := expires_later_timestamptz hc he }
  | _, _, _, _ => .error ⟨⟩

/-- `_credential_from_row`. -/
def credentialFromRow (row : CredentialRow) : Credential where
  credentialId := row.credentialId
  principalId := row.principalId
  secretVerifier := row.secretVerifier
  label := row.label
  createdAt := row.createdAt
  expiresAt := row.expiresAt.map Utc.toAware
  revokedAt := row.revokedAt.map Utc.toAware
  label_canonical := row.label_canonical
  label_fits := row.label_fits
  verifier_hex := row.verifier_hex
  expires_later := by
    intro e he
    obtain ⟨u, hu, rfl⟩ : ∃ u, row.expiresAt = some u ∧ u.toAware = e := by simpa using he
    simpa [Aware.lt_iff] using row.expires_later u (by simp [hu])

/-- The row of a credential that is not revoked. -/
theorem ofCredential_ok {c : Credential} {row : CredentialRow}
    (h : CredentialRow.ofCredential c = .ok row) :
    row.credentialId = c.credentialId ∧ row.principalId = c.principalId ∧
      row.expiresAt.isSome = c.expiresAt.isSome ∧ row.revokedAt.isSome = c.revokedAt.isSome := by
  unfold CredentialRow.ofCredential at h
  split at h
  · next he hr _ =>
    cases h
    exact ⟨rfl, rfl, Except.isSome_mapM he, Except.isSome_mapM hr⟩
  · cases h

/-- The columns of a credential. -/
theorem ofCredential_columns {c : Credential} {row : CredentialRow}
    (h : CredentialRow.ofCredential c = .ok row) :
    row.secretVerifier = c.secretVerifier ∧ row.label = c.label ∧
      timestamptz c.createdAt = .ok row.createdAt ∧
      c.expiresAt.mapM timestamptz = .ok row.expiresAt := by
  unfold CredentialRow.ofCredential at h
  split at h
  · next hc he _ _ =>
    cases h
    exact ⟨rfl, rfl, hc, he⟩
  · cases h

/-- Every stored credential loads. -/
theorem credentialFromRow_eq (row : CredentialRow) :
    Credential.new row.credentialId row.principalId row.secretVerifier row.label
      (.aware row.createdAt) (row.expiresAt.map fun u => .aware u)
      (row.revokedAt.map fun u => .aware u) = .ok (credentialFromRow row) := by
  have hl := row.label_canonical
  have hf := row.label_fits
  have hv := row.verifier_hex
  have he := row.expires_later
  cases hx : row.expiresAt <;> cases hr : row.revokedAt <;>
    simp_all [Credential.new, requireAware, credentialFromRow, bind, Except.bind, pure,
      Except.pure, Functor.map, Except.map, Aware.lt_iff]

/-- What no change takes back in the row of a credential. -/
structure LaterCredential (c c' : CredentialRow) : Prop where
  principalId : c'.principalId = c.principalId
  expiresAt : c'.expiresAt = c.expiresAt
  revokedAt : c.revokedAt.isSome → c'.revokedAt.isSome
  secretVerifier : c'.secretVerifier = c.secretVerifier
  label : c'.label = c.label
  createdAt : c'.createdAt = c.createdAt

theorem LaterCredential.refl (c : CredentialRow) : LaterCredential c c :=
  ⟨rfl, rfl, id, rfl, rfl, rfl⟩

theorem LaterCredential.trans {a b c : CredentialRow} (h : LaterCredential a b)
    (h' : LaterCredential b c) : LaterCredential a c :=
  ⟨h'.principalId.trans h.principalId, h'.expiresAt.trans h.expiresAt, h'.revokedAt ∘ h.revokedAt,
    h'.secretVerifier.trans h.secretVerifier, h'.label.trans h.label,
    h'.createdAt.trans h.createdAt⟩

/-- A credential without an end passes its checks if its label and its verifier do. -/
theorem Credential.new_unending {credentialId principalId : Uuid} {verifier : String} {label : Option String}
    (now : Utc) (hlabel : labelFits (canonicalLabel label)) (hverifier : isHexDigest verifier) :
    ∃ c, Credential.new credentialId principalId verifier label (.aware now) none none = .ok c ∧
      c.createdAt = now ∧ c.label = canonicalLabel label ∧ c.expiresAt = none ∧
      c.revokedAt = none := by
  refine ⟨⟨credentialId, principalId, verifier, canonicalLabel label, now, none, none,
    canonicalLabel_idem label, hlabel, hverifier, by simp⟩, ?_, rfl, rfl, rfl, rfl⟩
  rw [Credential.new, dif_neg (by simpa using hlabel), dif_neg (by simpa using hverifier)]
  simp [requireAware, bind, Except.bind, pure, Except.pure]

theorem ofCredential_exists {c : Credential} {createdAt : Utc} {expiresAt revokedAt : Option Utc}
    {label : Option String} (hcreated : timestamptz c.createdAt = .ok createdAt)
    (hexpires : c.expiresAt.mapM timestamptz = .ok expiresAt)
    (hrevoked : c.revokedAt.mapM timestamptz = .ok revokedAt) (hlabel : c.label.mapM text = .ok label) :
    ∃ row, CredentialRow.ofCredential c = .ok row := by
  unfold CredentialRow.ofCredential
  split
  · exact ⟨_, rfl⟩
  · next hnot => exact (hnot _ _ _ _ hcreated hexpires hrevoked hlabel).elim

end Valor
