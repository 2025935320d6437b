/-
  The audit evidence of a runtime credential.

  A credential is issued with a record of its value in memory and revoked with a record of
  the value read back. The fingerprint writes `expires_at` with its own UTC offset, and a
  `timestamptz` column gives every time back in UTC, so the two fingerprints are of the
  same text only if the offset was zero (`evidence_linked_iff`). All else is the same.
-/
import Valor.CredentialEvidence
import Valor.RuntimeIdentity.Lifecycle

namespace Valor.RuntimeIdentity

open Python Postgres ManagementAudit Prog Interleave ReadCommitted

/-! ## What a command issues -/

/-- The arguments of a credential that a command issues. -/
structure Issuing where
  principalId : Uuid
  label : Option String
  expiresAt : Option Datetime

def Request.issuing? (r : Request) : Option Issuing :=
  match r.command with
  | .createPrincipal c => some ⟨r.env.principalId, c.label, c.expiresAt⟩
  | .issueCredential c => some ⟨c.principalId, c.label, c.expiresAt⟩
  | _ => none

/-- The credential that a request issues. -/
def Service.Issued (s : Service) (r : Request) (x : Issuing) (c : RuntimeCredential) : Prop :=
  Credential.new r.env.credentialId x.principalId (s.hmacSha256 s.pepper r.env.secret) x.label
    (.aware r.env.now) x.expiresAt none = .ok c

/-- The text whose digest is the fingerprint of the credential, with this text of its expiry. -/
def Issuing.text (x : Issuing) (env : Env) (expiresAt : Option String) : String :=
  canonical [
    "credential_id=" ++ env.credentialId.str,
    "principal_id=" ++ x.principalId.str,
    "label=" ++ textOr (x.label.map collapse),
    "created_at=" ++ env.now.isoformat,
    "expires_at=" ++ textOr expiresAt,
    "revoked=false"]

section Text

variable {s : Service} {r : Request} {x : Issuing} {c : RuntimeCredential} {row : RuntimeCredentialRow}

theorem textOr_canonicalLabel (label : Option String) :
    textOr ((canonicalLabel label).map collapse) = textOr (label.map collapse) := by
  cases label with
  | none => rfl
  | some l =>
    by_cases h : collapse l = "" <;> simp [canonicalLabel, Option.filter, h, textOr]

theorem text_injective {env : Env} {a b : String} (h : x.text env (some a) = x.text env (some b)) :
    a = b :=
  canonical_line_injective [_, _, _, _] [_] h

/-- The fingerprint at the issue. -/
theorem fingerprint_issued (h : s.Issued r x c) : credentialFingerprint s.sha256 c =
    (s.sha256 (x.text r.env (c.expiresAt.map Aware.isoformat))).val := by
  obtain ⟨hid, hpid, _, hrevoked⟩ := Credential.new_ok h
  obtain ⟨_, hlabel, hcreated, _⟩ := Credential.new_fields h
  have hnow : c.createdAt = r.env.now.toAware := by simpa using hcreated.symm
  unfold credentialFingerprint runtimeCredentialFingerprint ManagementAudit.credentialFingerprint
    Issuing.text
  rw [hid, hpid, hlabel, textOr_canonicalLabel, hnow, hrevoked]
  rfl

/-- The fingerprint of the credential read back. -/
theorem fingerprint_reloaded (h : s.Issued r x c) (hrow : CredentialRow.ofCredential c = .ok row) :
    credentialFingerprint s.sha256 (credentialFromRow row) =
      (s.sha256 (x.text r.env (row.expiresAt.map Utc.isoformat))).val := by
  obtain ⟨hid, hpid, _, hrevoked⟩ := Credential.new_ok h
  obtain ⟨_, hlabel, hcreated, _⟩ := Credential.new_fields h
  obtain ⟨hrid, hrpid, _, hrrevoked⟩ := ofCredential_ok hrow
  obtain ⟨_, hrlabel, hrcreated, _⟩ := ofCredential_columns hrow
  have hnow : c.createdAt = r.env.now.toAware := by simpa using hcreated.symm
  rw [hnow, timestamptz_toAware] at hrcreated
  have hrow : row.createdAt = r.env.now := (Except.ok.inj hrcreated).symm
  have hnone : row.revokedAt = none := by
    rw [hrevoked] at hrrevoked
    simpa using hrrevoked
  unfold credentialFingerprint runtimeCredentialFingerprint ManagementAudit.credentialFingerprint
    Issuing.text credentialFromRow
  simp only [hrid.trans hid, hrpid.trans hpid, hrlabel.trans hlabel, textOr_canonicalLabel, hrow,
    hnone, Option.map_map, Option.map_none, Option.isSome_none]
  rfl

end Text

/-! ## Commits -/

/-- The evidence of runtime credentials. -/
abbrev Service.Evidence (s : Service) (c : RuntimeCredential) (db : Db) : Prop :=
  Valor.Evidence (fun c f => credentialFingerprint s.sha256 c = f) .runtimeCredentialIssued
    .runtimeCredentialRevoked c db.credentials db.audits

section Commits

variable {s : Service} {r : Request} {env : Env} {a : Answers} {db : Db} {command : Command}
  {reply : Reply} {change : Change} {records : List Record} {db₀ : Db}
  {evs : List (Event (Op Sql) (Op.Res Sql.Res) Error)}

theorem principalRecord_ok {actor : Uuid} {value : RuntimePrincipal}
    {before : Option RuntimePrincipal} {action : Action} {record : Record}
    (h : s.principalRecord env actor value before action = .ok record) : record.action = action :=
  (Record.new_ok h).2.1

theorem credentialRecord_ok {auditId actor tenantId : Uuid} {value : RuntimeCredential}
    {before : Option RuntimeCredential} {action : Action} {record : Record}
    (h : s.credentialRecord env auditId actor tenantId value before action = .ok record) :
    record.About action value.credentialId ∧
      record.beforeFingerprint = before.map (credentialFingerprint s.sha256) ∧
      record.afterFingerprint = some (credentialFingerprint s.sha256 value) := by
  obtain ⟨_, haction, _, hid, _, hbefore, hafter⟩ := Record.new_ok h
  exact ⟨⟨haction, hid⟩, hbefore, hafter⟩

theorem unrelated_of_action {record : Record} {action : Action} (h : record.action = action)
    (hissued : action ≠ .runtimeCredentialIssued) (hrevoked : action ≠ .runtimeCredentialRevoked) :
    ∀ r ∈ [record], r.action ≠ .runtimeCredentialIssued ∧ r.action ≠ .runtimeCredentialRevoked := by
  intro r hr
  obtain rfl := List.mem_singleton.mp hr
  exact ⟨h ▸ hissued, h ▸ hrevoked⟩

/-- What a command does to the credentials and the records about them. -/
theorem Does.credentialChange (h : Does s r.env a db r.command reply change records)
    (hobserved : Observed r db₀ db evs a) :
    CredentialChange (fun c f => credentialFingerprint s.sha256 c = f) .runtimeCredentialIssued
      .runtimeCredentialRevoked db.credentials db.audits (change.apply db).credentials
      (db.audits ++ records) := by
  generalize hr : r.command = command at h
  cases h with
  | @created c principal credential row crow record record' _ _ _ _ credential_ok _ crow_ok record_ok
      record'_ok _ credential_free =>
    obtain ⟨habout, _, hafter⟩ := credentialRecord_ok record'_ok
    exact .issue (o := [record]) crow_ok (Credential.new_ok credential_ok).2.2.2 credential_free
      (unrelated_of_action (principalRecord_ok record_ok) (by decide) (by decide)) habout hafter rfl
  | bound _ _ _ _ _ _ _ _ _ record_ok =>
    exact .other (unrelated_of_action (principalRecord_ok record_ok) (by decide) (by decide))
  | initialized _ _ _ _ _ _ record_ok =>
    exact .other (unrelated_of_action (principalRecord_ok record_ok) (by decide) (by decide))
  | issued _ _ _ _ credential_ok row_ok record_ok free _ =>
    obtain ⟨habout, _, hafter⟩ := credentialRecord_ok record_ok
    exact .issue (o := []) row_ok (Credential.new_ok credential_ok).2.2.2 free (by simp) habout
      hafter rfl
  | @revoked c principal credential revoked revokedAt record _ _ found _ unrevoked revoked_ok column_ok
      record_ok =>
    obtain ⟨hid, hsome⟩ := revoke_ok revoked_ok
    obtain ⟨habout, hbefore, _⟩ := credentialRecord_ok record_ok
    obtain ⟨seen, _, hlater, hseen⟩ := hobserved.credential
    have hget : seen.getCredential c.credentialId = some credential := by
      rw [found] at hseen
      simpa [Request.answers, hr] using hseen.symm
    obtain ⟨srow, hsrow, hkey, rfl⟩ := getCredential_some hget
    obtain ⟨row, hrow, hrowlater⟩ := hlater.credentials _ srow hsrow
    have hk : revoked.credentialId = c.credentialId := hid.trans hkey
    have hnone : srow.revokedAt = none := by simpa [credentialFromRow] using unrevoked
    exact .revoke (fun _ => rfl) (hk ▸ hrow) hrowlater (hkey.trans hk.symm) hnone (isSome_column hsome column_ok)
      habout hbefore rfl
  | disabled _ _ _ _ _ record_ok =>
    exact .other (unrelated_of_action (principalRecord_ok record_ok) (by decide) (by decide))

/-- The command that issues a credential begins its evidence. -/
theorem Does.begins {x : Issuing} (h : Does s r.env a db r.command reply change records)
    (hobserved : Observed r db₀ db evs a) (hx : r.issuing? = some x)
    (hknown : Known .runtimeCredentialIssued .runtimeCredentialRevoked db.credentials db.audits) :
    ∃ c, s.Issued r x c ∧ s.Evidence c ((change.apply db).appendAudits records) := by
  generalize hr : r.command = command at h
  unfold Request.issuing? at hx
  rw [hr] at hx
  cases h with
  | @created c principal credential row crow record record' _ _ _ principal_ok credential_ok _ crow_ok
      record_ok record'_ok _ credential_free =>
    cases hx
    obtain ⟨habout, _, hafter⟩ := credentialRecord_ok record'_ok
    refine ⟨credential, ?_, ?_⟩
    · rw [(create_ok principal_ok).1] at credential_ok
      exact credential_ok
    · exact .begin (o := [record]) (by decide) hknown crow_ok
        (Credential.new_ok credential_ok).2.2.2 credential_free
        (unrelated_of_action (principalRecord_ok record_ok) (by decide) (by decide)) habout hafter rfl
  | @issued c principal credential crow record _ _ found _ credential_ok row_ok record_ok free _ =>
    cases hx
    obtain ⟨habout, _, hafter⟩ := credentialRecord_ok record_ok
    refine ⟨credential, ?_, ?_⟩
    · obtain ⟨seen, _, _, hseen⟩ := hobserved.principal
      have hget : seen.getPrincipal c.principalId = some principal := by
        rw [found] at hseen
        simpa [Request.answers, hr] using hseen.symm
      obtain ⟨row, _, hkey, rfl⟩ := getPrincipal_some hget
      show Credential.new _ c.principalId _ _ _ _ _ = _
      rw [← hkey]
      exact credential_ok
    · exact .begin (o := []) (by decide) hknown row_ok (Credential.new_ok credential_ok).2.2.2
        free (by simp) habout hafter rfl
  | _ => cases hx

end Commits

/-! ## Runs -/

/-- The evidence that the committed commands of a run have left. -/
structure Evidenced (s : Service) (requests : Tid → Request) (tr : List RunLabel) (db : Db) : Prop where
  known : Known .runtimeCredentialIssued .runtimeCredentialRevoked db.credentials db.audits
  issued : ∀ i x, committed i ∈ tr → (requests i).issuing? = some x →
    ∃ c, s.Issued (requests i) x c ∧ s.Evidence c db
  revoked : ∀ i d, committed i ∈ tr → (requests i).command = .revokeCredential d →
    ∃ record ∈ db.audits, record.About .runtimeCredentialRevoked d.credentialId

section Runs

variable {s : Service} {requests : Tid → Request} {db₀ : Db} {tr : List RunLabel}
  {c c' : RunConfig} {l : RunLabel} {agents : Finset (Uuid × Uuid)}
  {invocations : List InvocationRow}

/-- A committed revocation has left its record. -/
theorem Does.revoked_record {r : Request} {a : Answers} {db : Db} {reply : Reply} {change : Change}
    {records : List Record} {d : RuntimeCredentialCommand}
    {evs : List (Event (Op Sql) (Op.Res Sql.Res) Error)}
    (h : Does s r.env a db r.command reply change records) (hobserved : Observed r db₀ db evs a)
    (hd : r.command = .revokeCredential d) :
    ∃ record ∈ records, record.About .runtimeCredentialRevoked d.credentialId := by
  obtain ⟨seen, _, _, hseen⟩ := hobserved.credential
  rw [hd] at h
  cases h with
  | revoked _ _ found _ _ revoked_ok _ record_ok =>
    have hget := hseen.symm.trans found
    simp only [Request.answers, hd] at hget
    obtain ⟨row, _, hkey, rfl⟩ := getCredential_some hget
    obtain ⟨habout, _, _⟩ := credentialRecord_ok record_ok
    rw [(revoke_ok revoked_ok).1, show (credentialFromRow row).credentialId = d.credentialId from hkey]
      at habout
    exact ⟨_, List.mem_singleton_self _, habout⟩

theorem Evidenced.step (h : Evidenced s requests tr c.world.db)
    (hs : CommitsOnly (fun w => Commits s (requests l.tid) db₀ l.tid (w, tr)) l.tid l.event.op
      l.event.answer c.world c'.world) : Evidenced s requests (tr ++ [l]) c'.world.db := by
  rcases hs.label_cases with ⟨hl, ⟨a, reply, change, records, hcommit⟩, hw⟩ | ⟨hl, hsame⟩
  · have hdb : c'.world.db = (change.apply c.world.db).appendAudits records := by
      rw [hw, db_commit]
      exact hcommit.view
    have haudits : (change.apply c.world.db).audits = c.world.db.audits := by cases change <;> rfl
    have hdoes : Does s (requests l.tid).env a c.world.db (requests l.tid).command reply change
      records := hcommit.does
    have hchange := hdoes.credentialChange hcommit.observed
    rw [hdb]
    refine ⟨?_, ?_, ?_⟩
    · show Known _ _ _ ((change.apply c.world.db).audits ++ records)
      rw [haudits]
      exact h.known.step hchange
    · intro i x hi hx
      rcases List.mem_append.mp hi with hi | hi
      · obtain ⟨credential, hissued, hevidence⟩ := h.issued i x hi hx
        refine ⟨credential, hissued, ?_⟩
        show Valor.Evidence _ _ _ _ _ ((change.apply c.world.db).audits ++ records)
        rw [haudits]
        exact hevidence.step (by decide) hchange
      · rw [hl, List.mem_singleton, committed_inj] at hi
        rw [hi] at hx ⊢
        exact hdoes.begins hcommit.observed hx h.known
    · intro i d hi hd
      show ∃ record ∈ (change.apply c.world.db).audits ++ records, _
      rw [haudits]
      rcases List.mem_append.mp hi with hi | hi
      · obtain ⟨record, hmem, habout⟩ := h.revoked i d hi hd
        exact ⟨record, List.mem_append_left _ hmem, habout⟩
      · rw [hl, List.mem_singleton, committed_inj] at hi
        rw [hi] at hd
        obtain ⟨record, hmem, habout⟩ := hdoes.revoked_record hcommit.observed hd
        exact ⟨record, List.mem_append_right _ hmem, habout⟩
  · rw [hsame]
    have hold : ∀ i, committed i ∈ tr ++ [l] → committed i ∈ tr := by
      intro i hi
      rcases List.mem_append.mp hi with hi | hi
      · exact hi
      · exact absurd (List.mem_singleton.mp hi).symm (hl i)
    exact ⟨h.known, fun i x hi => h.issued i x (hold i hi), fun i d hi => h.revoked i d (hold i hi)⟩

theorem evidenced_run
    (h : Run database.exec ⟨World.ofDb (Db.start agents invocations), fun i => s.handle (requests i)⟩
      tr c) : Evidenced s requests tr c.world.db := by
  induction h with
  | nil => exact ⟨by simp [Known, World.ofDb, Db.start], by simp, by simp⟩
  | snoc init hs ih => exact ih.step (step_commits init hs)

/-! ## The link -/

/-- The expiry has no UTC offset, or writing it in UTC gives another text of the same digest. -/
def Issuing.Survives (x : Issuing) (s : Service) (env : Env) : Prop :=
  ∀ e, x.expiresAt = some (.aware e) → e.offset = 0 ∨ ∃ u, timestamptz e = .ok u ∧
    x.text env (some e.isoformat) ≠ x.text env (some u.isoformat) ∧
    s.sha256 (x.text env (some e.isoformat)) = s.sha256 (x.text env (some u.isoformat))

/-- The fingerprint of the credential read back is that of its issue exactly if its expiry
    survives the column. -/
theorem fingerprint_eq_iff {r : Request} {x : Issuing} {credential : RuntimeCredential}
    {row : RuntimeCredentialRow} (h : s.Issued r x credential)
    (hrow : CredentialRow.ofCredential credential = .ok row) :
    credentialFingerprint s.sha256 (credentialFromRow row) = credentialFingerprint s.sha256 credential ↔
      x.Survives s r.env := by
  rw [fingerprint_issued h, fingerprint_reloaded h hrow, ← Subtype.ext_iff]
  obtain ⟨_, _, _, hexpires⟩ := Credential.new_fields h
  obtain ⟨_, _, _, hcolumn⟩ := ofCredential_columns hrow
  unfold Issuing.Survives
  rw [hexpires]
  cases he : credential.expiresAt with
  | none =>
    rw [he] at hcolumn
    have hnone : row.expiresAt = none := (Except.ok.inj hcolumn).symm
    rw [hnone]
    exact iff_of_true rfl fun _ h => nomatch h
  | some e =>
    rw [he] at hcolumn
    obtain ⟨u, hu, hrowu⟩ : ∃ u, timestamptz e = .ok u ∧ row.expiresAt = some u := by
      cases hu : timestamptz e with
      | error _ => simp [hu, Functor.map, Except.map] at hcolumn
      | ok u => exact ⟨u, rfl, by simpa [hu, Functor.map, Except.map] using hcolumn.symm⟩
    have hinstant := timestamptz_instant hu
    rw [hrowu]
    constructor
    · intro hdigest e' he'
      obtain rfl : e = e' := by simpa using he'
      by_cases ho : e.offset = 0
      · exact .inl ho
      · refine .inr ⟨u, hu, fun htext => ho ?_, hdigest.symm⟩
        exact (isoformat_eq_iff hinstant).mp (text_injective htext).symm
    · intro hsurvives
      rcases hsurvives e rfl with ho | ⟨u', hu', _, hdigest⟩
      · show s.sha256 (x.text r.env (some u.isoformat)) = s.sha256 (x.text r.env (some e.isoformat))
        rw [(isoformat_eq_iff hinstant).mpr ho]
      · obtain rfl : u = u' := by simpa [hu] using hu'
        exact hdigest.symm

/-- In every run, the one record of a credential's issue and the records of its revocation
    are linked exactly if its expiry survives the column. -/
theorem evidence_linked_iff (s : Service) (requests : Tid → Request) (agents : Finset (Uuid × Uuid))
    (invocations : List InvocationRow) (tr : List RunLabel) (c : RunConfig)
    (h : Run database.exec ⟨World.ofDb (Db.start agents invocations), fun i => s.handle (requests i)⟩
      tr c)
    (i j : Tid) (x : Issuing) (d : RuntimeCredentialCommand) (hi : committed i ∈ tr)
    (hx : (requests i).issuing? = some x) (hj : committed j ∈ tr)
    (hd : (requests j).command = .revokeCredential d)
    (hid : d.credentialId = (requests i).env.credentialId) :
    ∃ issued ∈ c.world.db.audits, issued.About .runtimeCredentialIssued d.credentialId ∧
      (∀ r ∈ c.world.db.audits, r.About .runtimeCredentialIssued d.credentialId → r = issued) ∧
      (∃ revoked ∈ c.world.db.audits, revoked.About .runtimeCredentialRevoked d.credentialId) ∧
      ∀ revoked ∈ c.world.db.audits, revoked.About .runtimeCredentialRevoked d.credentialId →
        (revoked.beforeFingerprint = issued.afterFingerprint ↔ x.Survives s (requests i).env) := by
  have hrun := evidenced_run h
  obtain ⟨credential, hissued, hevidence⟩ := hrun.issued i x hi hx
  have hk : credential.credentialId = d.credentialId := (Credential.new_ok hissued).1.trans hid.symm
  obtain ⟨issued, f, hfilter, hafter, rfl⟩ := hevidence.issued
  rw [hk] at hfilter
  have hmem : ∀ r, r ∈ c.world.db.audits ∧ r.About .runtimeCredentialIssued d.credentialId ↔
      r = issued := by
    intro r
    rw [← List.mem_singleton, ← hfilter, List.mem_filter, decide_eq_true_eq]
  obtain ⟨hin, habout⟩ := (hmem issued).mpr rfl
  refine ⟨issued, hin, habout, fun r hr ha => (hmem r).mp ⟨hr, ha⟩, hrun.revoked j d hj hd, ?_⟩
  intro revoked hr ha
  obtain ⟨row, g, hrow, hbefore, rfl⟩ := hevidence.revoked revoked hr (hk ▸ ha)
  rw [hbefore, hafter, Option.some.injEq]
  exact fingerprint_eq_iff hissued hrow

end Runs

/-! ## A credential that expires at an hour of another zone -/

/-- 02:00 one hour east of UTC, on the first day. -/
def eastern : Aware := (7200000000 : Utc).withTimezone 1

/-- Principal 1 is created with credential 11, which expires at the given time and is then
    revoked. -/
def expiringRequests (expiresAt : Aware) : Tid → Request
  | 0 => ⟨.createPrincipal ⟨manager, 5, 6, 10, 1, none, some (.aware expiresAt)⟩,
      { envAt 1 11 with principalId := 1 }⟩
  | _ => ⟨.revokeCredential ⟨manager, 1, 11⟩, envAt 2 0⟩

def expiring (expiresAt : Aware) : Issuing := ⟨1, none, some (.aware expiresAt)⟩

/-- SHA-256 on the two texts of credential 11. -/
def sha256OfEleven : Sha256 := fun text =>
  if text = (expiring eastern).text (envAt 1 11) (some eastern.isoformat) then
    ⟨"9f287df9781dd8a012347b058b3b257d0a4b42605e5159707293df83bdc9e429", by decide +kernel⟩
  else if text = (expiring eastern).text (envAt 1 11) (some (3600000000 : Utc).isoformat)
  then ⟨"e30438e5aaa3e3a659bf7dae623cc647ef40c85682865caa73e4cb0924b2e1e3", by decide +kernel⟩
  else zeroDigest

/-- The records of credential 11 are not linked: it was issued with `+01:00` and is read back
    in UTC. -/
theorem evidence_not_linked : ∃ tr c issued revoked,
    Run database.exec ⟨World.ofDb (Db.start {(5, 6)} []), fun i =>
      ({ exampleService with sha256 := sha256OfEleven } : Service).handle
        (expiringRequests eastern i)⟩ tr c ∧
    issued ∈ c.world.db.audits ∧ issued.About .runtimeCredentialIssued 11 ∧
    revoked ∈ c.world.db.audits ∧ revoked.About .runtimeCredentialRevoked 11 ∧
    revoked.beforeFingerprint ≠ issued.afterFingerprint := by
  obtain ⟨tr, c, hrun, ht⟩ := schedule_any database.exec
    ⟨World.ofDb (Db.start {(5, 6)} []), fun i =>
      ({ exampleService with sha256 := sha256OfEleven } : Service).handle
        (expiringRequests eastern i)⟩
    (steps 0 7 ++ steps 1 6)
    (fun (_, c) => c.world.db.audits.any fun issued => c.world.db.audits.any fun revoked =>
      issued.About .runtimeCredentialIssued 11 && revoked.About .runtimeCredentialRevoked 11 &&
        revoked.beforeFingerprint ≠ issued.afterFingerprint)
    (by decide +kernel)
  simp only [List.any_eq_true, Bool.and_eq_true, decide_eq_true_eq] at ht
  obtain ⟨issued, hi, revoked, hr, ⟨hai, har⟩, hne⟩ := ht
  exact ⟨tr, c, issued, revoked, hrun, hi, hai, hr, har, hne⟩

/-- With an expiry in UTC they are. -/
theorem evidence_linked_iff_utc : ∃ tr c issued revoked,
    Run database.exec ⟨World.ofDb (Db.start {(5, 6)} []), fun i =>
      exampleService.handle (expiringRequests (3600000000 : Utc) i)⟩ tr c ∧
    issued ∈ c.world.db.audits ∧ issued.About .runtimeCredentialIssued 11 ∧
    revoked ∈ c.world.db.audits ∧ revoked.About .runtimeCredentialRevoked 11 ∧
    revoked.beforeFingerprint = issued.afterFingerprint := by
  obtain ⟨tr, c, hrun, ht⟩ := schedule_any database.exec
    ⟨World.ofDb (Db.start {(5, 6)} []), fun i =>
      exampleService.handle (expiringRequests (3600000000 : Utc) i)⟩
    (steps 0 7 ++ steps 1 6)
    (fun (tr, _) => tr.any (isCommit 0) && tr.any (isCommit 1)) (by decide +kernel)
  simp only [Bool.and_eq_true, List.any_eq_true] at ht
  obtain ⟨⟨l₀, hl₀, h₀⟩, l₁, hl₁, h₁⟩ := ht
  obtain ⟨issued, hi, hai, _, ⟨revoked, hr, har⟩, hlinked⟩ :=
    evidence_linked_iff exampleService (expiringRequests (3600000000 : Utc)) {(5, 6)} [] tr c hrun
      0 1 (expiring (3600000000 : Utc)) ⟨manager, 1, 11⟩ (eq_committed h₀ ▸ hl₀) rfl
      (eq_committed h₁ ▸ hl₁) rfl rfl
  refine ⟨tr, c, issued, revoked, hrun, hi, hai, hr, har, (hlinked revoked hr har).mpr ?_⟩
  intro e he
  obtain rfl : (3600000000 : Utc).toAware = e := by simpa [expiring] using he
  exact .inl rfl

end Valor.RuntimeIdentity
