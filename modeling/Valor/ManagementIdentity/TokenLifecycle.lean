/-
  Bearer tokens follow the lifecycle of their credentials.

  `authenticate_iff` says which tokens a store accepts. In the stores that the commands
  reach, every credential has a principal, and a token that was returned belongs to a
  credential that is stored: it is accepted as long as the credential and its principal
  are live (`authentication_follows_lifecycle`). The attempt itself must be recorded, so
  near the ends of the range of `datetime` no token is accepted
  (`live_token_refused_at_first_instant`).
-/
import Valor.ManagementIdentity.Authentication
import Valor.ManagementIdentity.CredentialHistory

namespace Valor.ManagementIdentity

open Python Postgres ManagementAudit Prog Interleave ReadCommitted ManagementAuthenticator

/-- Every credential is of a stored principal. -/
def Owned (db : Db) : Prop :=
  ∀ k row, db.credentials.find? k = some row → db.principals.find? row.principalId ≠ none

section Owners

variable {s : Service} {api : Prop} {env : Env} {read : Option ManagementPrincipal} {db : Db}
  {command : Command} {change : Change} {records : List Record} {t : Tid}

theorem stays_owner {db' : Db} (hlater : Later db db') {k : Uuid} (h : db.principals.find? k ≠ none) :
    db'.principals.find? k ≠ none := by
  obtain ⟨row, hrow⟩ := Option.ne_none_iff_exists'.mp h
  obtain ⟨row', hrow', _⟩ := hlater.principals k row hrow
  rw [hrow']
  exact Option.some_ne_none row'

theorem find?_insertCredential {crow row : ManagementCredentialRow} {k : Uuid}
    (h : (db.credentials.insert crow).find? k = some row) (hfree : db.credentials.find? k = none) :
    row = crow := by
  rw [Table.find?_insert, hfree, Option.none_or] at h
  split at h
  · exact (Option.some.inj h).symm
  · cases h

theorem Owned.step (howned : Owned db) (h : Does s api env read db command change records) :
    Owned ((change.apply t db).appendAudits records) := by
  intro k row hrow
  have hlater : Later db ((change.apply t db).appendAudits records) :=
    (h.later (t := t)).trans (later_appendAudits records)
  by_cases hfree : db.credentials.find? k = none
  · have hfound : (change.apply t db).credentials.find? k = some row := hrow
    show (change.apply t db).principals.find? row.principalId ≠ none
    cases h with
    | @bootstrapped c p credential prow crow _ _ _ credential_ok row_ok crow_ok free _ =>
      obtain rfl := find?_insertCredential hfound hfree
      have hid : row.principalId = prow.principalId :=
        (ofCredential_ok crow_ok).2.1.trans
          ((Credential.new_ok credential_ok).2.1.trans (ofPrincipal_ok row_ok).1.symm)
      show (db.principals.insert prow).find? row.principalId ≠ none
      rw [Table.find?_insert, if_pos (show Keyed.key prow = row.principalId from hid.symm), Option.or_some]
      exact Option.some_ne_none _
    | created => exact absurd (hfree.symm.trans hfound) (Option.some_ne_none row).symm
    | issued _ _ _ _ _ crow_ok _ _ owner =>
      obtain rfl := find?_insertCredential hfound hfree
      rw [(ofCredential_ok crow_ok).2.1]
      exact owner
    | scopesSet => exact absurd (hfree.symm.trans hfound) (Option.some_ne_none row).symm
    | @revoked _ _ _ revoked revokedAt =>
      have hgone := find?_revokeCredential db revoked.credentialId revokedAt k
      rw [hfree, Option.map_none, ite_self] at hgone
      exact absurd (hgone.symm.trans hfound) (Option.some_ne_none row).symm
    | disabled => exact absurd (hfree.symm.trans hfound) (Option.some_ne_none row).symm
  · obtain ⟨old, hold⟩ := Option.ne_none_iff_exists'.mp hfree
    obtain ⟨row', hrow', hlaterRow⟩ := hlater.credentials k old hold
    obtain rfl := Option.some.inj (hrow'.symm.trans hrow)
    rw [hlaterRow.principalId]
    exact stays_owner hlater (howned k old hold)

end Owners

section Runs

variable {sqlNow : Tid → Utc} {s : Service} {requests : Tid → Request} {tr : List RunLabel}
  {c c' : RunConfig} {tenants : Finset Uuid}

theorem owned_run (h : FromEmpty sqlNow s requests tenants tr c) : Owned c.world.db := by
  induction h with
  | nil => exact fun k row hrow => absurd hrow.symm (Option.some_ne_none row)
  | @snoc c c' tr l init hs ih =>
    rcases (step_commits init hs).label_cases with ⟨_, ⟨read, change, records, hcommit⟩, hw⟩ | ⟨_, hsame⟩
    · have hdb : c'.world.db = (change.apply l.tid c.world.db).appendAudits records := by
        rw [hw, db_commit]
        exact hcommit.view
      rw [hdb]
      exact ih.step hcommit.does
    · rw [hsame]
      exact ih

/-- The result of an attempt that runs alone against the store, none of its statements
    failing. -/
def attempt (s : Service) (sqlNow : Tid → Utc) (ch : Choice) (i : Tid) (db : Db) (token : String)
    (at' : Aware) : Except Error (Option AuthenticatedManagementIdentity) :=
  ((s.authenticator.authenticate token at').runState ((database sqlNow).alone ch i)
    (World.ofDb db)).result

/-- Thread `i` has returned the credential with its token. -/
def Returned (c : RunConfig) (i : Tid) (issued : IssuedCredential) : Prop :=
  c.prog i = .ret (.issued issued) ∨ ∃ p, c.prog i = .ret (.bootstrapped p issued)

theorem unexpired_column {t : Option Aware} {u : Option Utc} (h : t.mapM timestamptz = .ok u)
    (at' : Aware) : (∀ e ∈ u, at'.instant < e.instant) ↔ ∀ e ∈ t, at' < e := by
  cases t with
  | none =>
    cases h
    simp
  | some a =>
    obtain ⟨w, hw, h⟩ := Except.bind_ok_cases (x := timestamptz a) (f := fun b => .ok (some b)) h
    cases h
    simp [Aware.lt_iff, timestamptz_instant hw]

/-- A credential that was returned is stored with the verifier of its secret. -/
theorem returned_stored (h : FromEmpty sqlNow s requests tenants tr c) {i : Tid}
    {issued : IssuedCredential} (hret : Returned c i issued) :
    ∃ row ∈ c.world.db.credentials, ∃ p ∈ c.world.db.principals,
      row.credentialId = issued.credential.credentialId ∧ p.principalId = row.principalId ∧
      row.credentialId = (requests i).env.credentialId ∧
      row.secretVerifier = (s.hmacSha256 s.pepper (requests i).env.secret).val ∧
      issued.bearerToken = generateBearerToken (requests i).env.credentialId (requests i).env.secret ∧
      issued.credential.expiresAt.mapM timestamptz = .ok row.expiresAt := by
  have hissued : s.Issued (requests i).env issued c.world.db := by
    rcases hret with hret | ⟨p, hret⟩
    · exact (returned_answered h hret).2
    · exact (returned_answered h hret).2
  obtain ⟨⟨principalId, label, expiresAt, hnew⟩, htoken, written, row, hwritten, hrow, hlater⟩ := hissued
  obtain ⟨hid, _⟩ := Credential.new_ok hnew
  obtain ⟨hverifier, _⟩ := Credential.new_fields hnew
  obtain ⟨hwverifier, _, _, hwexpires⟩ := ofCredential_columns hwritten
  obtain ⟨hmem, hkey⟩ := Table.find?_some hrow
  have hrowid : row.credentialId = issued.credential.credentialId := hkey
  obtain ⟨p, hp⟩ := Option.ne_none_iff_exists'.mp (owned_run h _ row hrow)
  obtain ⟨hpmem, hpkey⟩ := Table.find?_some hp
  refine ⟨row, hmem, p, hpmem, hrowid, hpkey, hrowid.trans hid, ?_, htoken, ?_⟩
  · rw [hlater.secretVerifier, hwverifier, hverifier]
  · rw [hlater.expiresAt, hwexpires]

/-- In every store that a run reaches and at every recordable time, exactly the tokens with
    the secret of a live credential of an active principal authenticate, as that principal
    with its stored scopes and capability. A token that was returned does so as its own
    credential, and no runtime token does. -/
theorem authentication_follows_lifecycle (sqlNow : Tid → Utc) (s : Service)
    (requests : Tid → Request) (tenants : Finset Uuid) (tr : List RunLabel) (c : RunConfig)
    (h : FromEmpty sqlNow s requests tenants tr c) (ch : Choice) (hch : ch.fails = false) (i : Tid)
    (at' : Aware) :
    (∀ token identity, attempt s sqlNow ch i c.world.db token at' = .ok (some identity) ↔
      ∃ row ∈ c.world.db.credentials, ∃ p ∈ c.world.db.principals,
        s.authenticator.Accepts c.world.db token at' row p ∧ Recordable at' ∧
        identity = ⟨p.principalId, row.credentialId, c.world.db.scopesOf p.principalId,
          p.canManagePrincipals⟩) ∧
    (∀ j issued, Returned c j issued → (requests j).env.secret ≠ "" →
      ∃ row ∈ c.world.db.credentials, ∃ p ∈ c.world.db.principals,
        row.credentialId = issued.credential.credentialId ∧ p.principalId = row.principalId ∧
        ∀ identity, attempt s sqlNow ch i c.world.db issued.bearerToken at' = .ok (some identity) ↔
          (row.revokedAt = none ∧ (∀ e ∈ issued.credential.expiresAt, at' < e) ∧
            p.disabledAt = none ∧ Recordable at') ∧
          identity = ⟨p.principalId, issued.credential.credentialId,
            c.world.db.scopesOf p.principalId, p.canManagePrincipals⟩) ∧
    ∀ credentialId secret identity, attempt s sqlNow ch i c.world.db
      (RuntimeIdentity.generateRuntimeBearerToken credentialId secret) at' ≠ .ok (some identity) := by
  have hiff : ∀ token identity, attempt s sqlNow ch i c.world.db token at' = .ok (some identity) ↔
      ∃ row ∈ c.world.db.credentials, ∃ p ∈ c.world.db.principals,
        s.authenticator.Accepts c.world.db token at' row p ∧ Recordable at' ∧
        identity = ⟨p.principalId, row.credentialId, c.world.db.scopesOf p.principalId,
          p.canManagePrincipals⟩ := fun _ _ => authenticate_iff hch
  refine ⟨hiff, fun j issued hret hsecret => ?_, fun credentialId secret identity hresult => ?_⟩
  · obtain ⟨row, hrow, p, hp, hid, howner, hcid, hverifier, htoken, hexpires⟩ := returned_stored h hret
    have hparse : parseBearerToken issued.bearerToken = some (row.credentialId, (requests j).env.secret) := by
      rw [htoken, hcid]
      exact parse_generate hsecret
    refine ⟨row, hrow, p, hp, hid, howner, fun identity => (hiff _ identity).trans ?_⟩
    rw [← unexpired_column hexpires, ← hid]
    constructor
    · rintro ⟨row', hrow', p', hp', ⟨⟨x, hx, _⟩, hunrevoked, hunexpired, howner', hactive⟩, hrec, rfl⟩
      have hkey : row'.credentialId = row.credentialId := by
        rw [hparse] at hx
        exact (congrArg Prod.fst (Option.some.inj hx)).symm
      obtain rfl : row' = row := Table.eq_of_key hrow' hrow hkey
      obtain rfl : p' = p := Table.eq_of_key hp' hp (howner'.trans howner.symm)
      exact ⟨⟨hunrevoked, hunexpired, hactive, hrec⟩, rfl⟩
    · rintro ⟨⟨hunrevoked, hunexpired, hactive, hrec⟩, rfl⟩
      exact ⟨row, hrow, p, hp, ⟨⟨_, hparse, hverifier.symm⟩, hunrevoked, hunexpired, howner, hactive⟩,
        hrec, rfl⟩
  · obtain ⟨_, _, _, _, ⟨⟨x, hx, _⟩, _⟩, _⟩ := (hiff _ identity).mp hresult
    rw [parse_generateRuntime] at hx
    cases hx

end Runs

/-! ## One token at two times -/

/-- Manager 1 is bootstrapped with credential 11. -/
def bootstrapRequests : Tid → Request := fun _ =>
  ⟨.bootstrap ⟨"token", "M", ∅⟩, envAt 0 1 11⟩

/-- The bootstrap returned credential 11, which does not expire. -/
def issuedEleven (c : RunConfig) : Bool :=
  match c.prog 0 with
  | .ret (.bootstrapped _ issued) =>
    decide (issued.credential.credentialId = 11) && issued.credential.expiresAt.isNone
  | _ => false

theorem returned_of_issuedEleven {c : RunConfig} (h : issuedEleven c = true) :
    ∃ issued, Returned c 0 issued ∧ issued.credential.credentialId = 11 ∧
      issued.credential.expiresAt = none := by
  unfold issuedEleven at h
  split at h
  · next issued hprog =>
    simp only [Bool.and_eq_true, decide_eq_true_eq, Option.isNone_iff_eq_none] at h
    exact ⟨issued, .inr ⟨_, hprog⟩, h⟩
  · cases h

/-- After the bootstrap credential 11 and its principal are live, and the token is known. -/
theorem bootstrapped_live : ∃ tr c issued row p,
    FromEmpty (fun _ => epoch) exampleService bootstrapRequests ∅ tr c ∧ Returned c 0 issued ∧
    row ∈ c.world.db.credentials ∧ p ∈ c.world.db.principals ∧
    issued.credential.credentialId = 11 ∧ issued.credential.expiresAt = none ∧
    row.credentialId = 11 ∧ p.principalId = row.principalId ∧ row.secretVerifier = zeros ∧
    row.revokedAt = none ∧ row.expiresAt = none ∧ p.disabledAt = none := by
  obtain ⟨tr, c, hrun, ht⟩ := schedule_any (database fun _ => epoch).exec
    ⟨World.ofDb (Db.empty ∅), fun i => exampleService.handle (bootstrapRequests i)⟩ (steps 0 6)
    (fun t => issuedEleven t.2 &&
      t.2.world.db.credentials.rows.any fun row => t.2.world.db.principals.rows.any fun p =>
        decide (row.credentialId = 11 ∧ p.principalId = row.principalId ∧ row.secretVerifier = zeros ∧
          row.revokedAt = none ∧ row.expiresAt = none ∧ p.disabledAt = none)) (by decide +kernel)
  simp only [Bool.and_eq_true, List.any_eq_true, decide_eq_true_eq] at ht
  obtain ⟨hissued, row, hrow, p, hp, hlive⟩ := ht
  obtain ⟨issued, hret, hid, hexpires⟩ := returned_of_issuedEleven hissued
  exact ⟨tr, c, issued, row, p, hrun, hret, hrow, hp, hid, hexpires, hlive⟩

/-- The token of the bootstrap authenticates on the 91st day. -/
theorem authentication_follows_lifecycle_later : ∃ tr c issued identity,
    FromEmpty (fun _ => epoch) exampleService bootstrapRequests ∅ tr c ∧ Returned c 0 issued ∧
    attempt exampleService (fun _ => epoch) performed 0 c.world.db issued.bearerToken
      (7776000000000 : Utc) = .ok (some identity) := by
  obtain ⟨tr, c, issued, row, p, hrun, hret, hrow, hp, hid, hexpires, hkey, howner, _, hunrevoked, _,
    hactive⟩ := bootstrapped_live
  obtain ⟨_, htoken, _⟩ := authentication_follows_lifecycle (fun _ => epoch) exampleService
    bootstrapRequests ∅ tr c hrun performed rfl 0 (7776000000000 : Utc).toAware
  obtain ⟨row', hrow', p', hp', hid', howner', hiff⟩ := htoken 0 issued hret (by decide)
  obtain rfl : row' = row := Table.eq_of_key hrow' hrow (hid'.trans (hid.trans hkey.symm))
  obtain rfl : p' = p := Table.eq_of_key hp' hp (howner'.trans howner.symm)
  refine ⟨tr, c, issued, _, hrun, hret, (hiff _).mpr ⟨⟨hunrevoked, ?_, hactive, by decide⟩, rfl⟩⟩
  rw [hexpires]
  exact fun e he => nomatch he

/-- At the first instant of `datetime` the same token does not: the bucket of its evidence
    has no bound 90 days before. -/
theorem live_token_refused_at_first_instant : ∃ tr c token row p,
    FromEmpty (fun _ => epoch) exampleService bootstrapRequests ∅ tr c ∧
    row ∈ c.world.db.credentials ∧ p ∈ c.world.db.principals ∧
    exampleService.authenticator.Accepts c.world.db token epoch row p ∧
    ∀ identity, attempt exampleService (fun _ => epoch) performed 0 c.world.db token epoch ≠
      .ok (some identity) := by
  obtain ⟨tr, c, issued, row, p, hrun, _, hrow, hp, _, _, hkey, howner, hverifier, hunrevoked, hexpires,
    hactive⟩ := bootstrapped_live
  refine ⟨tr, c, generateBearerToken 11 "secret", row, p, hrun, hrow, hp, ⟨⟨"secret", ?_, ?_⟩,
    hunrevoked, ?_, howner, hactive⟩, fun identity hresult => ?_⟩
  · rw [hkey]
    exact parse_generate (by decide)
  · exact hverifier.symm
  · rw [hexpires]
    exact fun e he => nomatch he
  · obtain ⟨_, _, _, _, _, hrec, _⟩ := (authenticate_iff rfl).mp hresult
    exact absurd hrec (by decide)

end Valor.ManagementIdentity
