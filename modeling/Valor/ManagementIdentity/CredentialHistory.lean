/-
  The history of management credentials and principals.

  The commands that revoke and disable lock the management state before they read, so the
  row that they find live is live at their commit. Each credential is so revoked by one
  command at most, each principal disabled by one at most, and neither time changes again
  (`history_write_once`).

  A credential is issued with one record and revoked with one. The fingerprint writes every
  time in UTC, and a `timestamptz` column gives it back in UTC: the two records are linked
  whatever offset the expiry was given with. Only the bootstrap stores a credential without
  a record.
-/
import Valor.CredentialEvidence
import Valor.ManagementIdentity.Commits
import Valor.ManagementIdentity.Recovery

namespace Valor.ManagementIdentity

open Python Postgres ManagementAudit Prog Interleave ReadCommitted

/-! ## The fingerprint of a stored credential -/

theorem astimezone_of_timestamptz {a : Aware} {u : Utc} (h : timestamptz a = .ok u) :
    a.astimezone = .ok u := by
  unfold timestamptz at h
  split at h
  · next hu =>
    cases h
    exact hu
  · cases h

theorem astimezone_of_column {t : Option Aware} {u : Option Utc} (h : t.mapM timestamptz = .ok u) :
    t.mapM Aware.astimezone = .ok u := by
  cases t with
  | none =>
    cases h
    rfl
  | some a =>
    obtain ⟨w, hw, h⟩ := Except.bind_ok_cases (x := timestamptz a) (f := fun b => .ok (some b)) h
    cases h
    show a.astimezone >>= (fun b => .ok (some b)) = .ok (some w)
    rw [astimezone_of_timestamptz hw]
    rfl

/-- The fingerprint of a credential is that of the credential read back from its row. -/
theorem fingerprint_reloaded {sha256 : Sha256} {c : ManagementCredential} {row : CredentialRow}
    (hrow : CredentialRow.ofCredential c = .ok row) (hc : c.revokedAt = none) :
    credentialFingerprint sha256 (credentialFromRow row) = credentialFingerprint sha256 c := by
  obtain ⟨hid, hpid, _, _⟩ := ofCredential_ok hrow
  obtain ⟨_, hlabel, hcreated, hexpires⟩ := ofCredential_columns hrow
  have hnone := revokedAt_ofCredential hrow hc
  have hexpires' : (row.expiresAt.map Utc.toAware).mapM Aware.astimezone = .ok row.expiresAt := by
    cases row.expiresAt with
    | none => rfl
    | some u =>
      show u.toAware.astimezone >>= (fun b => .ok (some b)) = .ok (some u)
      rw [Utc.astimezone_toAware]
      rfl
  unfold credentialFingerprint
  rw [astimezone_of_timestamptz hcreated, astimezone_of_column hexpires]
  simp only [credentialFromRow, Utc.astimezone_toAware, hexpires', hid, hpid, hlabel, hc, hnone]
  rfl

/-! ## What a commit does to credentials and their records -/

theorem find?_revokeCredential (db : Db) (c : Uuid) (revokedAt : Option Utc) (k : Uuid) :
    (db.revokeCredential c revokedAt).credentials.find? k =
      if k = c then (db.credentials.find? k).map fun r => { r with revokedAt }
      else db.credentials.find? k :=
  Table.find?_modify db.credentials c (fun r => { r with revokedAt }) (fun _ => rfl) k

theorem find?_disablePrincipal (db : Db) (p : Uuid) (disabledAt : Option Utc) (k : Uuid) :
    (db.disablePrincipal p disabledAt).principals.find? k =
      if k = p then (db.principals.find? k).map fun r => { r with disabledAt }
      else db.principals.find? k :=
  Table.find?_modify db.principals p (fun r => { r with disabledAt }) (fun _ => rfl) k

/-- The fingerprint, which is a text if all times are in the range of `datetime`. -/
abbrev Service.Fingerprints (s : Service) (c : ManagementCredential) (f : String) : Prop :=
  credentialFingerprint s.sha256 c = .ok f

/-- The evidence of management credentials. -/
abbrev Service.Evidence (s : Service) (c : ManagementCredential) (db : Db) : Prop :=
  Valor.Evidence s.Fingerprints .managementCredentialIssued .managementCredentialRevoked c
    db.credentials db.audits

section Commits

variable {s : Service} {api : Prop} {env : Env} {read : Option ManagementPrincipal} {db : Db}
  {command : Command} {change : Change} {records : List Record} {t : Tid}

theorem unrelated_of_about {record : Record} {action : Action} {k : Uuid} (h : record.About action k)
    (hissued : action ≠ .managementCredentialIssued)
    (hrevoked : action ≠ .managementCredentialRevoked) :
    ∀ r ∈ [record], r.action ≠ .managementCredentialIssued ∧ r.action ≠ .managementCredentialRevoked := by
  intro r hr
  obtain rfl := List.mem_singleton.mp hr
  exact ⟨h.1 ▸ hissued, h.1 ▸ hrevoked⟩

/-- A revocation is of the credential as it is stored, which is not revoked. -/
theorem revoked_stored {c : RevokeCredentialCommand} {credential revoked : ManagementCredential}
    {at' : Aware} {revokedAt : Option Utc} (stored : db.getCredential c.credentialId = some credential)
    (unrevoked : credential.revokedAt = none) (revoked_ok : credential.revoke at' = .ok revoked)
    (column_ok : revoked.revokedAt.mapM timestamptz = .ok revokedAt) :
    ∃ row, db.credentials.find? c.credentialId = some row ∧ row.revokedAt = none ∧
      credential = credentialFromRow row ∧ revoked.credentialId = c.credentialId ∧
      revokedAt.isSome := by
  obtain ⟨row, hrow, hkey, hc⟩ := find?_of_getCredential stored
  obtain ⟨hid, hsome⟩ := credential_revoke_ok revoked_ok
  have hcolumn := Except.isSome_mapM column_ok
  rw [hsome] at hcolumn
  exact ⟨row, hrow, unrevoked_of_eq hc unrevoked, hc,
    hid.trans ((congrArg Credential.credentialId hc).trans hkey), hcolumn⟩

theorem Does.credentialChange (h : Does s api env read db command change records) :
    CredentialChange s.Fingerprints .managementCredentialIssued .managementCredentialRevoked
      db.credentials db.audits (change.apply t db).credentials (db.audits ++ records) := by
  cases h with
  | bootstrapped _ _ _ _ _ crow_ok _ free =>
    exact .store ((ofCredential_ok crow_ok).1 ▸ free) (by simp)
  | created _ _ _ record_ok _ =>
    exact .other (unrelated_of_about (principalRecord_ok record_ok).1 (by decide) (by decide))
  | issued _ _ _ _ credential_ok crow_ok record_ok free _ =>
    obtain ⟨habout, _, f, hf, hafter⟩ := credentialRecord_ok record_ok
    exact .issue (o := []) crow_ok (Credential.new_ok credential_ok).2.2.2 free (by simp) habout
      hafter hf
  | scopesSet _ _ record_ok =>
    exact .other (unrelated_of_about (principalRecord_ok record_ok).1 (by decide) (by decide))
  | revoked _ _ stored _ unrevoked revoked_ok column_ok record_ok =>
    obtain ⟨row, hrow, hnone, hc, hk, hsome⟩ := revoked_stored stored unrevoked revoked_ok column_ok
    obtain ⟨habout, hbefore, _⟩ := credentialRecord_ok record_ok
    obtain ⟨f, hf, hbefore⟩ := Except.bind_ok_cases
      (x := credentialFingerprint s.sha256 _) (f := fun b => .ok (some b)) hbefore
    exact .revoke (fun _ => rfl) (hk ▸ hrow) (.refl row) ((Table.find?_some hrow).2.trans hk.symm) hnone
      hsome habout (Except.ok.inj hbefore).symm (hc ▸ hf)
  | disabled _ _ _ _ _ _ _ record_ok =>
    exact .other (unrelated_of_about (principalRecord_ok record_ok).1 (by decide) (by decide))

/-- A record of an issue is about a credential that was not stored. -/
theorem Does.issues (h : Does s api env read db command change records) {record : Record} {k : Uuid}
    (hmem : record ∈ records) (habout : record.About .managementCredentialIssued k) :
    db.credentials.find? k = none := by
  have hother : ∀ {r : Record} {action : Action} {q : Uuid}, r.About action q → record ∈ [r] →
      action = .managementCredentialIssued := by
    intro r action q hr hmem
    obtain rfl := List.mem_singleton.mp hmem
    exact hr.1.symm.trans habout.1
  cases h with
  | bootstrapped => simp at hmem
  | created _ _ _ record_ok _ => exact absurd (hother (principalRecord_ok record_ok).1 hmem) (by decide)
  | issued _ _ _ _ _ _ record_ok free _ =>
    obtain rfl := List.mem_singleton.mp hmem
    have hk := (credentialRecord_ok record_ok).1.2
    rw [habout.2] at hk
    rw [hk]
    exact free
  | scopesSet _ _ record_ok => exact absurd (hother (principalRecord_ok record_ok).1 hmem) (by decide)
  | revoked _ _ _ _ _ _ _ record_ok =>
    exact absurd (hother (credentialRecord_ok record_ok).1 hmem) (by decide)
  | disabled _ _ _ _ _ _ _ record_ok =>
    exact absurd (hother (principalRecord_ok record_ok).1 hmem) (by decide)

/-- A credential that is new is that of a bootstrap, or has the evidence of its issue. -/
theorem Does.stores (h : Does s api env read db command change records)
    (hknown : Known .managementCredentialIssued .managementCredentialRevoked db.credentials db.audits)
    {k : Uuid} (hfree : db.credentials.find? k = none)
    (hstored : (change.apply t db).credentials.find? k ≠ none) :
    ((∃ b, command = .bootstrap b) ∧ env.credentialId = k ∧ records = []) ∨
      ∃ c, c.credentialId = k ∧
        Valor.Evidence s.Fingerprints .managementCredentialIssued .managementCredentialRevoked c
          (change.apply t db).credentials (db.audits ++ records) := by
  have hinsert : ∀ {crow : ManagementCredentialRow},
      (db.credentials.insert crow).find? k ≠ none → crow.credentialId = k := by
    intro crow hne
    by_contra hk
    rw [Table.find?_insert, hfree, if_neg (show ¬Keyed.key crow = k from hk)] at hne
    exact hne rfl
  cases h with
  | bootstrapped _ _ _ credential_ok _ crow_ok _ _ =>
    have hid := (ofCredential_ok crow_ok).1.trans (Credential.new_ok credential_ok).1
    exact .inl ⟨⟨_, rfl⟩, hid.symm.trans (hinsert hstored), rfl⟩
  | created => exact absurd hfree hstored
  | @issued c principal credential crow record _ _ _ _ credential_ok crow_ok record_ok free _ =>
    obtain ⟨habout, _, f, hf, hafter⟩ := credentialRecord_ok record_ok
    refine .inr ⟨credential, (ofCredential_ok crow_ok).1.symm.trans (hinsert hstored), ?_⟩
    exact .begin (o := []) (by decide) hknown crow_ok (Credential.new_ok credential_ok).2.2.2 free
      (by simp) habout hafter hf
  | scopesSet => exact absurd hfree hstored
  | @revoked c principal credential revoked revokedAt record =>
    refine absurd ?_ hstored
    show (db.revokeCredential _ _).credentials.find? k = none
    rw [find?_revokeCredential, hfree]
    exact ite_self _
  | disabled => exact absurd hfree hstored

/-! ## Revocations and disablements -/

/-- What a command ends. -/
inductive Ending where
  | credential (credentialId : Uuid)
  | principal (principalId : Uuid)

def Command.ends? : Command → Option Ending
  | .revokeCredential c => some (.credential c.credentialId)
  | .disablePrincipal c => some (.principal c.principalId)
  | _ => none

def Ending.Done (db : Db) : Ending → Prop
  | credential k => ∃ row, db.credentials.find? k = some row ∧ row.revokedAt.isSome
  | principal k => ∃ row, db.principals.find? k = some row ∧ row.disabledAt.isSome

theorem Ending.Done.later {e : Ending} {db' : Db} (h : e.Done db) (hlater : Later db db') :
    e.Done db' := by
  cases e with
  | credential k =>
    obtain ⟨row, hrow, hsome⟩ := h
    obtain ⟨row', hrow', hrowlater⟩ := hlater.credentials k row hrow
    exact ⟨row', hrow', hrowlater.revokedAt hsome⟩
  | principal k =>
    obtain ⟨row, hrow, hsome⟩ := h
    obtain ⟨row', hrow', hrowlater⟩ := hlater.principals k row hrow
    exact ⟨row', hrow', by rwa [hrowlater.disabledAt hsome]⟩

/-- What a command ends was not ended before. -/
theorem Does.ends (h : Does s api env read db command change records) {e : Ending}
    (he : command.ends? = some e) : ¬e.Done db ∧ e.Done (change.apply t db) := by
  cases h with
  | @revoked c _ _ revoked revokedAt _ _ _ stored _ unrevoked revoked_ok column_ok _ =>
    cases he
    obtain ⟨row, hrow, hnone, _, hk, hsome⟩ := revoked_stored stored unrevoked revoked_ok column_ok
    constructor
    · rintro ⟨row', hrow', hsome'⟩
      obtain rfl := Option.some.inj (hrow.symm.trans hrow')
      rw [hnone] at hsome'
      cases hsome'
    · have hfind := find?_revokeCredential db revoked.credentialId revokedAt c.credentialId
      rw [hrow, hk] at hfind
      exact ⟨{ row with revokedAt }, hk ▸ hfind.trans (by simp), hsome⟩
  | @disabled c _ disabled disabledAt row _ _ _ stored hsame active disabled_ok column_ok _ =>
    cases he
    obtain ⟨tenantIds, hp⟩ := hsame
    obtain ⟨hid, hat⟩ := principal_disable_ok disabled_ok
    have hk := hid.trans
      ((congrArg ManagementPrincipal.principalId hp).trans (Table.find?_some stored).2)
    rw [hp, isActive_principalFromRow] at active
    have hsome := Except.isSome_mapM column_ok
    rw [hat] at hsome
    constructor
    · rintro ⟨row', hrow', hsome'⟩
      obtain rfl := Option.some.inj (stored.symm.trans hrow')
      simp_all
    · have hfind := find?_disablePrincipal db disabled.principalId disabledAt c.principalId
      rw [stored, hk] at hfind
      exact ⟨{ row with disabledAt }, hk ▸ hfind.trans (by simp), hsome⟩
  | _ => cases he

/-- The records of the revocation of a credential. -/
def revocations (k : Uuid) (audits : List Record) : List Record :=
  audits.filter (·.About .managementCredentialRevoked k)

/-- A credential has a record of its revocation if it is revoked, and only one. -/
def Counted (db : Db) : Prop := ∀ k, (revocations k db.audits).length =
  if (db.credentials.find? k).any (·.revokedAt.isSome) then 1 else 0

theorem Counted.step (hcounted : Counted db) (h : Does s api env read db command change records) :
    Counted ((change.apply t db).appendAudits records) := by
  have hkeeps : ∀ {action : Action} {q : Uuid} {r : Record} {db' : Db}, r.About action q →
      action ≠ .managementCredentialRevoked → db'.audits = db.audits →
      (∀ k, (db'.credentials.find? k).any (·.revokedAt.isSome) =
        (db.credentials.find? k).any (·.revokedAt.isSome)) → Counted (db'.appendAudits [r]) := by
    intro action q r db' hr hne haudits hsame k
    have hnone : [r].filter (·.About .managementCredentialRevoked k) = [] := by
      refine filter_about_eq_nil fun x hx habout => ?_
      obtain rfl := List.mem_singleton.mp hx
      exact hne (hr.1.symm.trans habout.1)
    show (revocations k (db'.audits ++ [r])).length = if (db'.credentials.find? k).any _ then 1 else 0
    rw [revocations, List.filter_append, hnone, List.append_nil, haudits, hsame k]
    exact hcounted k
  have hinsert : ∀ {crow : ManagementCredentialRow}, crow.revokedAt = none → ∀ k,
      ((db.credentials.insert crow).find? k).any (·.revokedAt.isSome) =
        (db.credentials.find? k).any (·.revokedAt.isSome) := by
    intro crow hnone k
    rw [Table.find?_insert]
    cases db.credentials.find? k with
    | some row => rfl
    | none => by_cases hk : Keyed.key crow = k <;> simp [hk, hnone]
  cases h with
  | @bootstrapped c principal credential row crow _ _ _ credential_ok _ crow_ok _ _ =>
    intro k
    have hnone := revokedAt_ofCredential crow_ok (Credential.new_ok credential_ok).2.2.2
    show (revocations k (db.audits ++ [])).length =
      if ((db.credentials.insert crow).find? k).any _ then 1 else 0
    rw [List.append_nil, hinsert hnone]
    exact hcounted k
  | created _ _ _ record_ok _ =>
    exact hkeeps (principalRecord_ok record_ok).1 (by decide) rfl fun _ => rfl
  | issued _ _ _ _ credential_ok crow_ok record_ok _ _ =>
    exact hkeeps (credentialRecord_ok record_ok).1 (by decide) rfl
      (hinsert (revokedAt_ofCredential crow_ok (Credential.new_ok credential_ok).2.2.2))
  | scopesSet _ _ record_ok =>
    exact hkeeps (principalRecord_ok record_ok).1 (by decide) rfl fun _ => rfl
  | @revoked c principal credential revoked revokedAt record _ _ stored _ unrevoked revoked_ok column_ok
      record_ok =>
    intro k
    obtain ⟨row, hrow, hnone, _, hk, hsome⟩ := revoked_stored stored unrevoked revoked_ok column_ok
    have habout := (credentialRecord_ok record_ok).1
    show (revocations k (db.audits ++ [record])).length =
      if ((db.revokeCredential _ _).credentials.find? k).any _ then 1 else 0
    rw [revocations, List.filter_append, List.length_append, find?_revokeCredential]
    have hold := hcounted k
    rw [revocations] at hold
    rw [hold]
    by_cases hkk : k = revoked.credentialId
    · rw [hkk, hk, hrow]
      simp [hnone, hsome, ← hk, habout]
    · have hnot : ¬record.About .managementCredentialRevoked k := fun h => hkk (h.2.symm.trans habout.2)
      cases hfind : db.credentials.find? k <;> simp [hkk, hnot]
  | disabled _ _ _ _ _ _ _ record_ok =>
    exact hkeeps (principalRecord_ok record_ok).1 (by decide) rfl fun _ => rfl

end Commits

/-! ## Runs -/

/-- The bootstrap of a run has stored the credential, without a record of an issue. -/
def Bootstrapped (requests : Tid → Request) (tr : List RunLabel) (db : Db) (k : Uuid) : Prop :=
  (∃ i b, committed i ∈ tr ∧ (requests i).command = .bootstrap b ∧
    (requests i).env.credentialId = k) ∧
  db.audits.filter (·.About .managementCredentialIssued k) = []

/-- What the committed commands of a run have left. -/
structure Chronicle (s : Service) (requests : Tid → Request) (tr : List RunLabel) (db : Db) : Prop where
  known : Known .managementCredentialIssued .managementCredentialRevoked db.credentials db.audits
  recorded : ∀ k, db.credentials.find? k ≠ none → Bootstrapped requests tr db k ∨
    ∃ c, c.credentialId = k ∧ s.Evidence c db
  counted : Counted db
  done : ∀ i e, committed i ∈ tr → (requests i).command.ends? = some e → e.Done db
  once : ∀ i j e, committed i ∈ tr → committed j ∈ tr → (requests i).command.ends? = some e →
    (requests j).command.ends? = some e → i = j

section Runs

variable {sqlNow : Tid → Utc} {s : Service} {requests : Tid → Request} {db₀ : Db}
  {tr tr' : List RunLabel} {c c' : RunConfig} {l : RunLabel} {tenants : Finset Uuid}

/-- A step that changes nothing. -/
theorem Chronicle.idle {db : Db} (h : Chronicle s requests tr db) (hl : ∀ i, l ≠ committed i) :
    Chronicle s requests (tr ++ [l]) db := by
  have hold : ∀ i, committed i ∈ tr ++ [l] → committed i ∈ tr := by
    intro i hi
    rcases List.mem_append.mp hi with hi | hi
    · exact hi
    · exact absurd (List.mem_singleton.mp hi).symm (hl i)
  refine ⟨h.known, fun k hk => ?_, h.counted, fun i e hi => h.done i e (hold i hi),
    fun i j e hi hj => h.once i j e (hold i hi) (hold j hj)⟩
  rcases h.recorded k hk with ⟨⟨i, b, hi, hb⟩, hnone⟩ | hevidence
  · exact .inl ⟨⟨i, b, List.mem_append_left _ hi, hb⟩, hnone⟩
  · exact .inr hevidence

/-- A commit. -/
theorem Chronicle.commit {db : Db} {i : Tid} {read : Option ManagementPrincipal} {change : Change}
    {records : List Record} (h : Chronicle s requests tr db)
    (hdoes : Does s False (requests i).env read db (requests i).command change records) :
    Chronicle s requests (tr ++ [committed i])
      ((change.apply i db).appendAudits records) := by
  have haudits : ((change.apply i db).appendAudits records).audits = db.audits ++ records := by
    cases change <;> rfl
  have hchange := hdoes.credentialChange (t := i)
  have hmem : ∀ j, committed j ∈ tr ++ [committed i] → committed j ∈ tr ∨ j = i := by
    intro j hj
    rcases List.mem_append.mp hj with hj | hj
    · exact .inl hj
    · exact .inr (committed_inj.mp (List.mem_singleton.mp hj))
  have hlater : Later db ((change.apply i db).appendAudits records) :=
    hdoes.later.trans (later_appendAudits records)
  refine ⟨?_, fun k hk => ?_, h.counted.step hdoes, fun j e hj he => ?_, fun j j' e hj hj' he he' => ?_⟩
  · rw [haudits]
    exact h.known.step hchange
  · by_cases hfree : db.credentials.find? k = none
    · rcases hdoes.stores h.known hfree hk with ⟨⟨b, hb⟩, hid, hrecords⟩ | ⟨c, hid, hevidence⟩
      · refine .inl ⟨⟨i, b, List.mem_append_right _ (List.mem_singleton_self _), hb, hid⟩, ?_⟩
        rw [haudits, hrecords, List.append_nil]
        refine filter_about_eq_nil fun r hr habout => ?_
        have hstored := h.known r hr (.inl habout.1)
        rw [habout.2, hfree] at hstored
        cases hstored
      · refine .inr ⟨c, hid, ?_⟩
        unfold Service.Evidence
        rw [haudits]
        exact hevidence
    · rcases h.recorded k hfree with ⟨⟨j, b, hj, hb⟩, hnone⟩ | ⟨c, hid, hevidence⟩
      · refine .inl ⟨⟨j, b, List.mem_append_left _ hj, hb⟩, ?_⟩
        rw [haudits, List.filter_append, hnone, List.nil_append]
        exact filter_about_eq_nil fun r hr habout => hfree (hdoes.issues hr habout)
      · refine .inr ⟨c, hid, ?_⟩
        unfold Service.Evidence
        rw [haudits]
        exact hevidence.step (by decide) hchange
  · rcases hmem j hj with hold | rfl
    · exact (h.done j e hold he).later hlater
    · exact (hdoes.ends he).2.later (later_appendAudits records)
  · have hnot : ∀ q, committed q ∈ tr → (requests q).command.ends? = some e →
        (requests i).command.ends? ≠ some e :=
      fun q hq heq hi => (hdoes.ends (t := i) hi).1 (h.done q e hq heq)
    rcases hmem j hj with hold | hji <;> rcases hmem j' hj' with hold' | hji'
    · exact h.once j j' e hold hold' he he'
    · exact absurd (hji' ▸ he') (hnot j hold he)
    · exact absurd (hji ▸ he) (hnot j' hold' he')
    · exact hji.trans hji'.symm

theorem Chronicle.step (h : Chronicle s requests tr c.world.db)
    (hs : CommitsOnly (fun w => Commits s False (requests l.tid) [] l.tid (w, tr)) l.tid l.event.op
      l.event.answer c.world c'.world) : Chronicle s requests (tr ++ [l]) c'.world.db := by
  rcases hs.label_cases with ⟨hl, ⟨read, change, records, hcommit⟩, hw⟩ | ⟨hl, hsame⟩
  · have hdb : c'.world.db = (change.apply l.tid c.world.db).appendAudits records := by
      rw [hw, db_commit]
      exact hcommit.view
    rw [hdb, hl]
    exact h.commit hcommit.does
  · rw [hsame]
    exact h.idle hl

/-- A run of the commands from an empty store. -/
abbrev FromEmpty (sqlNow : Tid → Utc) (s : Service) (requests : Tid → Request) (tenants : Finset Uuid)
    (tr : List RunLabel) (c : RunConfig) : Prop :=
  Run (database sqlNow).exec ⟨World.ofDb (Db.empty tenants), fun i => s.handle (requests i)⟩ tr c

end Runs

/-! ## A credential that is issued and revoked, and that of the bootstrap -/

end Valor.ManagementIdentity
