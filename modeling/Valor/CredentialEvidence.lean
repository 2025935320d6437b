/-
  The audit evidence of one credential.

  A credential is issued with one record and revoked with another. `Evidence` is what the
  store holds of it from then on: its row, only revoked meanwhile, the one record of its
  issue, and records of its revocation whose before fingerprint is that of the credential
  as its row gives it back. The fingerprint, a relation since computing it can raise, and
  the two actions are parameters: management and runtime credentials differ in these.
-/
import Valor.Credential

namespace Valor

open Python Postgres ManagementAudit

section Evidence

variable (fingerprints : Credential → String → Prop) (issuance revocation : Action)

/-- What a change does to the credentials and to the audit records about them. -/
inductive CredentialChange (credentials : Table CredentialRow) (audits : List Record) :
    Table CredentialRow → List Record → Prop
  | issue {c row o record f} (row_ok : CredentialRow.ofCredential c = .ok row)
      (unrevoked : c.revokedAt = none) (free : credentials.find? c.credentialId = none)
      (unrelated : ∀ r ∈ o, r.action ≠ issuance ∧ r.action ≠ revocation)
      (about : record.About issuance c.credentialId) (after : record.afterFingerprint = some f)
      (fingerprint : fingerprints c f) :
      CredentialChange credentials audits (credentials.insert row) (audits ++ (o ++ [record]))
  /-- A credential that is stored without a record of its issue. -/
  | store {row others} (free : credentials.find? row.credentialId = none)
      (unrelated : ∀ r ∈ others, r.action ≠ issuance ∧ r.action ≠ revocation) :
      CredentialChange credentials audits (credentials.insert row) (audits ++ others)
  /-- The credential was read as `seen`, maybe before. -/
  | revoke {k seen row revokedAt record f} (hf : _) (found : credentials.find? k = some row)
      (later : LaterCredential seen row) (key : seen.credentialId = k) (unrevoked : seen.revokedAt = none)
      (at' : revokedAt.isSome) (about : record.About revocation k)
      (before : record.beforeFingerprint = some f)
      (fingerprint : fingerprints (credentialFromRow seen) f) :
      CredentialChange credentials audits
        (credentials.modify k (fun r => { r with revokedAt }) hf) (audits ++ [record])
  | other {others} (unrelated : ∀ r ∈ others, r.action ≠ issuance ∧ r.action ≠ revocation) :
      CredentialChange credentials audits credentials (audits ++ others)

/-- What the store has of an issued credential. -/
structure Evidence (c : Credential) (credentials : Table CredentialRow) (audits : List Record) :
    Prop where
  unrevoked : c.revokedAt = none
  stored : ∃ row row', CredentialRow.ofCredential c = .ok row ∧
    credentials.find? c.credentialId = some row' ∧ LaterCredential row row'
  issued : ∃ record f, audits.filter (·.About issuance c.credentialId) = [record] ∧
    record.afterFingerprint = some f ∧ fingerprints c f
  revoked : ∀ record ∈ audits, record.About revocation c.credentialId →
    ∃ row f, CredentialRow.ofCredential c = .ok row ∧ record.beforeFingerprint = some f ∧
      fingerprints (credentialFromRow row) f

/-- Every record about a credential is about a stored one. -/
def Known (credentials : Table CredentialRow) (audits : List Record) : Prop :=
  ∀ record ∈ audits, record.action = issuance ∨ record.action = revocation →
    (credentials.find? record.resourceId).isSome

variable {fingerprints issuance revocation} {credentials credentials' : Table CredentialRow}
  {audits audits' : List Record} {c : Credential}

/-- A row that only its revocation can have changed. -/
theorem eq_of_laterCredential {row₁ row₂ row : CredentialRow} (h₁ : LaterCredential row₁ row)
    (h₂ : LaterCredential row₂ row) (hid : row₁.credentialId = row₂.credentialId)
    (hr₁ : row₁.revokedAt = none) (hr₂ : row₂.revokedAt = none) : row₁ = row₂ := by
  have hp := h₁.principalId.symm.trans h₂.principalId
  have he := h₁.expiresAt.symm.trans h₂.expiresAt
  have hs := h₁.secretVerifier.symm.trans h₂.secretVerifier
  have hl := h₁.label.symm.trans h₂.label
  have hc := h₁.createdAt.symm.trans h₂.createdAt
  cases row₁
  cases row₂
  simp_all

theorem revokedAt_ofCredential {row : CredentialRow} (h : CredentialRow.ofCredential c = .ok row)
    (hr : c.revokedAt = none) : row.revokedAt = none := by
  have hsome := (ofCredential_ok h).2.2.2
  rw [hr] at hsome
  simpa using hsome

/-- Rows stay, and lose nothing. -/
theorem CredentialChange.later
    (h : CredentialChange fingerprints issuance revocation credentials audits credentials' audits')
    (k : Uuid) (row : CredentialRow) (hrow : credentials.find? k = some row) :
    ∃ row', credentials'.find? k = some row' ∧ LaterCredential row row' := by
  cases h with
  | @issue c new _ _ _ row_ok _ free =>
    refine ⟨row, ?_, .refl row⟩
    rw [Table.find?_insert, hrow]
    rfl
  | @store new _ free =>
    refine ⟨row, ?_, .refl row⟩
    rw [Table.find?_insert, hrow]
    rfl
  | @revoke q seen _ revokedAt _ _ hf found _ _ _ at' =>
    have hfind := Table.find?_modify credentials q (fun r => { r with revokedAt }) hf k
    rw [hrow] at hfind
    by_cases hk : k = q
    · exact ⟨{ row with revokedAt }, hfind.trans (by simp [hk]), rfl, rfl, fun _ => at', rfl, rfl,
        rfl⟩
    · exact ⟨row, hfind.trans (by simp [hk]), .refl row⟩
  | other => exact ⟨row, hrow, .refl row⟩

theorem Known.step (h : Known issuance revocation credentials audits)
    (hc : CredentialChange fingerprints issuance revocation credentials audits credentials' audits') :
    Known issuance revocation credentials' audits' := by
  have hold : ∀ record ∈ audits, record.action = issuance ∨ record.action = revocation →
      (credentials'.find? record.resourceId).isSome := by
    intro record hmem haction
    obtain ⟨row, hrow⟩ := Option.isSome_iff_exists.mp (h record hmem haction)
    obtain ⟨row', hrow', _⟩ := hc.later _ row hrow
    rw [hrow']
    rfl
  intro record hmem haction
  cases hc with
  | @issue c row others new f row_ok unrevoked free unrelated about after fingerprint =>
    rcases List.mem_append.mp hmem with hmem | hmem
    · exact hold record hmem haction
    rcases List.mem_append.mp hmem with hmem | hmem
    · obtain ⟨h1, h2⟩ := unrelated record hmem
      exact absurd haction (not_or.mpr ⟨h1, h2⟩)
    · obtain rfl := List.mem_singleton.mp hmem
      rw [about.2, Table.find?_insert, free, ← (ofCredential_ok row_ok).1]
      simp [Keyed.key]
  | store free unrelated =>
    rcases List.mem_append.mp hmem with hmem | hmem
    · exact hold record hmem haction
    · obtain ⟨h1, h2⟩ := unrelated record hmem
      exact absurd haction (not_or.mpr ⟨h1, h2⟩)
  | @revoke k seen row revokedAt new f hf found later key unrevoked at' about before fingerprint =>
    rcases List.mem_append.mp hmem with hmem | hmem
    · exact hold record hmem haction
    · obtain rfl := List.mem_singleton.mp hmem
      rw [about.2, Table.find?_modify, found]
      simp
  | other unrelated =>
    rcases List.mem_append.mp hmem with hmem | hmem
    · exact hold record hmem haction
    · obtain ⟨h1, h2⟩ := unrelated record hmem
      exact absurd haction (not_or.mpr ⟨h1, h2⟩)

theorem filter_about_eq_nil {records : List Record} {action : Action} {k : Uuid}
    (h : ∀ r ∈ records, ¬r.About action k) : records.filter (·.About action k) = [] :=
  List.filter_eq_nil_iff.mpr fun r hr => by simpa using h r hr

/-- An issue is the beginning of the evidence. -/
theorem Evidence.begin {row : CredentialRow} {o : List Record} {record : Record} {f : String}
    (hne : issuance ≠ revocation) (hknown : Known issuance revocation credentials audits)
    (row_ok : CredentialRow.ofCredential c = .ok row) (unrevoked : c.revokedAt = none)
    (free : credentials.find? c.credentialId = none)
    (unrelated : ∀ r ∈ o, r.action ≠ issuance ∧ r.action ≠ revocation)
    (about : record.About issuance c.credentialId) (after : record.afterFingerprint = some f)
    (fingerprint : fingerprints c f) :
    Evidence fingerprints issuance revocation c (credentials.insert row)
      (audits ++ (o ++ [record])) := by
  have hunknown : ∀ r ∈ audits, ∀ action, action = issuance ∨ action = revocation →
      ¬r.About action c.credentialId := by
    rintro r hr action haction ⟨ha, hid⟩
    have hstored := hknown r hr (ha ▸ haction)
    rw [hid, free] at hstored
    cases hstored
  have hothers : ∀ r ∈ o, ∀ action, action = issuance ∨ action = revocation →
      ¬r.About action c.credentialId := by
    rintro r hr action haction ⟨ha, _⟩
    obtain ⟨h1, h2⟩ := unrelated r hr
    exact haction.elim (fun h => h1 (ha.trans h)) fun h => h2 (ha.trans h)
  refine ⟨unrevoked, ⟨row, row, row_ok, ?_, .refl row⟩, ⟨record, f, ?_, after, fingerprint⟩, ?_⟩
  · rw [Table.find?_insert, free]
    simp [Keyed.key, (ofCredential_ok row_ok).1]
  · rw [List.filter_append, List.filter_append,
      filter_about_eq_nil fun r hr => hunknown r hr _ (.inl rfl),
      filter_about_eq_nil fun r hr => hothers r hr _ (.inl rfl)]
    simp [about]
  · intro r hr hrevoked
    rcases List.mem_append.mp hr with hr | hr
    · exact absurd hrevoked (hunknown r hr _ (.inr rfl))
    rcases List.mem_append.mp hr with hr | hr
    · exact absurd hrevoked (hothers r hr _ (.inr rfl))
    · obtain rfl := List.mem_singleton.mp hr
      exact absurd (about.1.symm.trans hrevoked.1) hne

/-- A record about something else leaves the evidence. -/
theorem Evidence.append {records : List Record}
    (h : Evidence fingerprints issuance revocation c credentials audits)
    (hlater : ∀ row, credentials.find? c.credentialId = some row →
      ∃ row', credentials'.find? c.credentialId = some row' ∧ LaterCredential row row')
    (hissuance : ∀ r ∈ records, ¬r.About issuance c.credentialId)
    (hrevocation : ∀ r ∈ records, r.About revocation c.credentialId →
      ∃ row f, CredentialRow.ofCredential c = .ok row ∧ r.beforeFingerprint = some f ∧
        fingerprints (credentialFromRow row) f) :
    Evidence fingerprints issuance revocation c credentials' (audits ++ records) := by
  obtain ⟨row, row', row_ok, hfind, hrow⟩ := h.stored
  obtain ⟨row'', hfind', hrow'⟩ := hlater row' hfind
  refine ⟨h.unrevoked, ⟨row, row'', row_ok, hfind', hrow.trans hrow'⟩, ?_, ?_⟩
  · rw [List.filter_append, filter_about_eq_nil hissuance, List.append_nil]
    exact h.issued
  · intro r hr
    exact (List.mem_append.mp hr).elim (h.revoked r) (hrevocation r)

/-- The evidence of a credential outlasts every change. -/
theorem Evidence.step (hne : issuance ≠ revocation)
    (h : Evidence fingerprints issuance revocation c credentials audits)
    (hc : CredentialChange fingerprints issuance revocation credentials audits credentials' audits') :
    Evidence fingerprints issuance revocation c credentials' audits' := by
  have hlater := fun row => hc.later c.credentialId row
  cases hc with
  | @issue d row others record f row_ok unrevoked free unrelated about after fingerprint =>
    obtain ⟨_, stored, _, hstored, _⟩ := h.stored
    have hother : ∀ r ∈ others ++ [record], ∀ action, action = issuance ∨ action = revocation →
        ¬r.About action c.credentialId := by
      rintro r hr action haction ⟨ha, hid⟩
      rcases List.mem_append.mp hr with hr | hr
      · obtain ⟨h1, h2⟩ := unrelated r hr
        exact haction.elim (fun h => h1 (ha.trans h)) fun h => h2 (ha.trans h)
      · obtain rfl := List.mem_singleton.mp hr
        rw [← hid, about.2, free] at hstored
        cases hstored
    exact h.append hlater (fun r hr => hother r hr _ (.inl rfl))
      fun r hr hrevoked => absurd hrevoked (hother r hr _ (.inr rfl))
  | store free unrelated =>
    refine h.append hlater (fun r hr hissued => (unrelated r hr).1 hissued.1)
      fun r hr hrevoked => absurd hrevoked.1 (unrelated r hr).2
  | @revoke k seen row revokedAt record f hf found later key unrevoked at' about before fingerprint =>
    refine h.append hlater (fun r hr hissued => ?_) fun r hr hrevoked => ?_
    · obtain rfl := List.mem_singleton.mp hr
      exact hne (hissued.1.symm.trans about.1)
    · obtain rfl := List.mem_singleton.mp hr
      obtain ⟨written, stored, row_ok, hstored, hwritten⟩ := h.stored
      have hk : k = c.credentialId := about.2.symm.trans hrevoked.2
      rw [← hk, found] at hstored
      obtain rfl : row = stored := Option.some.inj hstored
      have heq : seen = written := by
        refine eq_of_laterCredential later hwritten ?_ unrevoked
          (revokedAt_ofCredential row_ok h.unrevoked)
        rw [key, hk, (ofCredential_ok row_ok).1]
      exact ⟨written, f, row_ok, before, heq ▸ fingerprint⟩
  | other unrelated =>
    refine h.append hlater (fun r hr hissued => (unrelated r hr).1 hissued.1)
      fun r hr hrevoked => absurd hrevoked.1 (unrelated r hr).2

end Evidence

end Valor
