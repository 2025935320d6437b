/-
  Management identity: bearer tokens and `ManagementAuthenticator`.

  A token holds the id and the secret of a credential, set apart by underscores. The
  secret can hold more of them and the id never does, so the first one ends the id
  (`parse_generate`).

  `resolves` is what an attempt comes to: the known credential that it names, with its
  principal and the outcome. Such an attempt is observed, and so writes to the evidence
  table; its time must be far enough from both ends of the range of `datetime`
  (`Recordable`), else the attempt raises OverflowError. `authenticate_ends` is the whole
  of an attempt that runs alone.
-/
import Valor.Lib.Serial
import Valor.ManagementIdentity.Service
import Valor.RuntimeIdentity.Domain

namespace Valor.ManagementIdentity

open Python Postgres ManagementAudit Prog Interleave ReadCommitted

/-! ## Tokens -/

/-- `generate_bearer_token`, with the secret that `token_urlsafe` gives. -/
def generateBearerToken (credentialId : Uuid) (secret : String) : String :=
  "valor_mgmt_" ++ credentialId.str ++ "_" ++ secret

/-- The credential id and the secret of a token. -/
def parseBearerToken (token : String) : Option (Uuid × String) :=
  let start := "valor_mgmt_".toList
  if start.isPrefixOf token.toList then
    let value := token.toList.drop start.length
    match value.dropWhile (· ≠ '_') with
    -- no separator, or no secret after it
    | [] | [_] => none
    | _ :: secret =>
        (Uuid.ofText (String.ofList (value.takeWhile (· ≠ '_')))).map (·, String.ofList secret)
  else none

theorem underscore_not_mem_str (u : Uuid) : '_' ∉ u.str.toList := by
  rw [Uuid.str, String.toList_ofList]
  intro h
  rcases Uuid.mem_chars h with h | ⟨n, hn, h⟩
  · exact absurd h (by decide)
  · exact (Uuid.hexDigit_spec hn).2.2.2.2.1 h.symm

/-- A token is read back, whatever underscores its secret holds. -/
theorem parse_generate {credentialId : Uuid} {secret : String} (h : secret ≠ "") :
    parseBearerToken (generateBearerToken credentialId secret) = some (credentialId, secret) := by
  have hword : ∀ c ∈ credentialId.str.toList, decide (c ≠ '_') = true := by
    intro c hc
    have hne : c ≠ '_' := fun he => underscore_not_mem_str credentialId (he ▸ hc)
    simpa using hne
  obtain ⟨c, cs, hcs⟩ := List.exists_cons_of_ne_nil (mt String.toList_eq_nil_iff.mp h)
  have hlist : (generateBearerToken credentialId secret).toList =
      "valor_mgmt_".toList ++ (credentialId.str.toList ++ '_' :: c :: cs) := by
    simp only [generateBearerToken, String.toList_append, List.append_assoc, hcs]
    rfl
  have hdrop : (credentialId.str.toList ++ '_' :: c :: cs).dropWhile (· ≠ '_') = '_' :: c :: cs := by
    rw [List.dropWhile_append_of_pos hword]
    exact List.dropWhile_cons_of_neg (by simp)
  have htake : (credentialId.str.toList ++ '_' :: c :: cs).takeWhile (· ≠ '_') =
      credentialId.str.toList := by
    rw [List.takeWhile_append_of_pos hword, List.takeWhile_cons_of_neg (by simp), List.append_nil]
  have hstart : "valor_mgmt_".toList.isPrefixOf
      ("valor_mgmt_".toList ++ (credentialId.str.toList ++ '_' :: c :: cs)) = true :=
    List.isPrefixOf_iff_prefix.mpr (List.prefix_append ..)
  unfold parseBearerToken
  rw [hlist]
  simp only [hstart, if_true, List.drop_left, hdrop, htake]
  rw [String.ofList_toList, Uuid.ofText_str, ← hcs, String.ofList_toList]
  rfl

/-- A runtime token is none of a management credential. -/
theorem parse_generateRuntime (credentialId : Uuid) (secret : String) :
    parseBearerToken (RuntimeIdentity.generateRuntimeBearerToken credentialId secret) = none := by
  have hstart : "valor_mgmt_".toList.isPrefixOf
      (RuntimeIdentity.generateRuntimeBearerToken credentialId secret).toList = false := by
    simp only [RuntimeIdentity.generateRuntimeBearerToken, String.toList_append, List.append_assoc]
    rfl
  unfold parseBearerToken
  simp only [hstart]
  rfl

/-! ## Authentication -/

structure AuthenticatedManagementIdentity where
  principalId : Uuid
  credentialId : Uuid
  authorizedTenantIds : Finset Uuid
  canManagePrincipals : Bool
  deriving DecidableEq

structure ManagementAuthenticator where
  pepper : String
  hmacSha256 : String → String → HexDigest

/-- The authenticator that is deployed with the service. -/
def Service.authenticator (s : Service) : ManagementAuthenticator := ⟨s.pepper, s.hmacSha256⟩

namespace ManagementAuthenticator

/-- `verifier_matches`. Both texts are hexadecimal, which `compare_digest` takes. -/
def verifierMatches (a : ManagementAuthenticator) (secret expected : String) : Bool :=
  (a.hmacSha256 a.pepper secret).val = expected

/-- `_observe`, with the two statements of the repository's `observe`. -/
def observe (credentialId principalId : Uuid) (outcome : ManagementAuthenticationOutcome)
    (at' : Aware) : Program Unit := do
  let evidence ← orOverflow (ManagementAuthenticationEvidence.at credentialId principalId outcome at')
  let before ← orOverflow (evidence.bucketStartedAt.subDays 90)
  sql (Sql.deleteEvidence before)
  sql (Sql.insertEvidence evidence)
  commit

def authenticate (a : ManagementAuthenticator) (token : String) (at' : Aware) :
    Program (Option AuthenticatedManagementIdentity) :=
  match parseBearerToken token with
  | none => .ret none
  | some (credentialId, secret) => unitOfWork do
      let credential? : Option ManagementCredential ← sql (Sql.credentialsGet credentialId)
      match credential? with
      | none => .ret none
      | some credential =>
          let principal? : Option ManagementPrincipal ← sql (Sql.principalsGet credential.principalId)
          match principal? with
          | none => .ret none
          | some principal =>
              if !a.verifierMatches secret credential.secretVerifier then do
                observe credentialId credential.principalId .credentialMismatch at'
                return none
              else if credential.revokedAt.isSome then do
                observe credentialId credential.principalId .revoked at'
                return none
              else if credential.expiresAt.any (· ≤ at') then do
                observe credentialId credential.principalId .expired at'
                return none
              else if !principal.isActive then do
                observe credentialId credential.principalId .principalDisabled at'
                return none
              else do
                observe credentialId credential.principalId .succeeded at'
                return some ⟨principal.principalId, credential.credentialId, principal.tenantIds,
                  principal.canManagePrincipals⟩

/-! ## What an attempt comes to -/

def outcome (a : ManagementAuthenticator) (secret : String) (c : ManagementCredential)
    (p : ManagementPrincipal) (at' : Aware) : ManagementAuthenticationOutcome :=
  if !a.verifierMatches secret c.secretVerifier then .credentialMismatch
  else if c.revokedAt.isSome then .revoked
  else if c.expiresAt.any (· ≤ at') then .expired
  else if !p.isActive then .principalDisabled
  else .succeeded

/-- A known credential that an attempt names, its principal and the outcome. -/
structure Resolution where
  credential : ManagementCredential
  principal : ManagementPrincipal
  outcome : ManagementAuthenticationOutcome

def Resolution.identity (r : Resolution) : Option AuthenticatedManagementIdentity :=
  if r.outcome = .succeeded then
    some ⟨r.principal.principalId, r.credential.credentialId, r.principal.tenantIds,
      r.principal.canManagePrincipals⟩
  else none

def resolves (a : ManagementAuthenticator) (db : Db) (token : String) (at' : Aware) :
    Option Resolution := do
  let (credentialId, secret) ← parseBearerToken token
  let c ← db.getCredential credentialId
  let p ← db.getPrincipal c.principalId
  return ⟨c, p, a.outcome secret c p at'⟩

/-- The times that have a bucket, and the bucket one 90 days before. -/
def Recordable (at' : Aware) : Prop :=
  90 * Datetime.day ≤ at'.instant ∧ at'.instant < Datetime.maxWall

instance (at' : Aware) : Decidable (Recordable at') := inferInstanceAs (Decidable (_ ∧ _))

/-- The row that is written for an attempt at `u`. -/
def Resolution.row (r : Resolution) (u : Utc) : ManagementAuthenticationEvidenceRow where
  credentialId := r.credential.credentialId
  principalId := r.credential.principalId
  outcome := r.outcome
  bucketStartedAt := u.startOfHour
  firstObservedAt := u
  hourly := rfl

section Attempts

variable {a : ManagementAuthenticator} {token secret : String} {at' : Aware} {db : Db}
  {c : ManagementCredential} {p : ManagementPrincipal} {r : Resolution}

/-- The four refusals and the success differ in the outcome that is observed. -/
theorem observe_outcome (credentialId : Uuid) :
    (if !a.verifierMatches secret c.secretVerifier then
        (observe credentialId c.principalId .credentialMismatch at').bind fun _ => .ret none
      else if c.revokedAt.isSome then
        (observe credentialId c.principalId .revoked at').bind fun _ => .ret none
      else if c.expiresAt.any (· ≤ at') then
        (observe credentialId c.principalId .expired at').bind fun _ => .ret none
      else if !p.isActive then
        (observe credentialId c.principalId .principalDisabled at').bind fun _ => .ret none
      else (observe credentialId c.principalId .succeeded at').bind fun _ =>
        .ret (some ⟨p.principalId, c.credentialId, p.tenantIds, p.canManagePrincipals⟩)) =
      (observe credentialId c.principalId (a.outcome secret c p at') at').bind fun _ =>
        .ret (Resolution.identity ⟨c, p, a.outcome secret c p at'⟩) := by
  unfold outcome
  split_ifs <;> rfl

/-- The bucket of a recordable time, and the bound of the retention. -/
theorem recordable_bucket (h : Recordable at') : ∃ u before, at'.astimezone = .ok u ∧
    u.startOfHour.subDays 90 = .ok before ∧
    before.instant = u.startOfHour.instant - 90 * Datetime.day := by
  obtain ⟨hlow, hhigh⟩ := h
  have hrange : 0 ≤ at'.instant ∧ at'.instant < Datetime.maxWall := by
    simp only [Datetime.day, Datetime.maxWall] at *
    omega
  have hbefore : 0 ≤ at'.instant / Datetime.hour * Datetime.hour - 90 * Datetime.day ∧
      at'.instant / Datetime.hour * Datetime.hour - 90 * Datetime.day < Datetime.maxWall := by
    simp only [Datetime.day, Datetime.hour, Datetime.maxWall] at *
    omega
  refine ⟨⟨at'.instant, hrange⟩, ⟨_, hbefore⟩, ?_, ?_, rfl⟩
  · rw [Aware.astimezone, dif_pos hrange]
  · exact dif_pos hbefore

/-- Any other time has no bucket, or the retention has no bound. -/
theorem not_recordable (h : ¬Recordable at') : at'.astimezone = .error ⟨⟩ ∨
    ∃ u, at'.astimezone = .ok u ∧ u.startOfHour.subDays 90 = .error ⟨⟩ := by
  by_cases hrange : 0 ≤ at'.instant ∧ at'.instant < Datetime.maxWall
  · refine .inr ⟨⟨at'.instant, hrange⟩, by rw [Aware.astimezone, dif_pos hrange],
      dif_neg fun hbefore => h ⟨?_, hrange.2⟩⟩
    have hpos : 0 ≤ at'.instant / Datetime.hour * Datetime.hour - 90 * Datetime.day := hbefore.1
    simp only [Datetime.day, Datetime.hour] at hpos ⊢
    omega
  · exact .inl (by rw [Aware.astimezone, dif_neg hrange])

theorem evidence_at {u : Utc} (h : at'.astimezone = .ok u) (credentialId principalId : Uuid)
    (o : ManagementAuthenticationOutcome) : ∃ e,
      ManagementAuthenticationEvidence.at credentialId principalId o at' = .ok e ∧
      e.bucketStartedAt = u.startOfHour ∧ e.credentialId = credentialId ∧
      e.principalId = principalId ∧
      ManagementAuthenticationEvidenceRow.ofEvidence e =
        .ok ⟨credentialId, principalId, o, u.startOfHour, u, rfl⟩ := by
  have hbucket : hourlyBucket at' = .ok u.startOfHour := by
    rw [hourlyBucket, h]
    rfl
  have hcolumn : timestamptz at' = .ok u := by
    rw [timestamptz, h]
  refine ⟨⟨credentialId, principalId, o, u.startOfHour, at', hbucket⟩, ?_, rfl, rfl, rfl, ?_⟩
  · unfold ManagementAuthenticationEvidence.at
    split
    · next hb =>
      have he := hb.symm.trans hbucket
      cases he
      rfl
    · next hb => cases hb.symm.trans hbucket
  · unfold ManagementAuthenticationEvidenceRow.ofEvidence
    split
    · next ht =>
      have he := ht.symm.trans hcolumn
      cases he
      rfl
    · next ht => cases ht.symm.trans hcolumn

theorem evidence_at_error (h : at'.astimezone = .error ⟨⟩) (credentialId principalId : Uuid)
    (o : ManagementAuthenticationOutcome) :
    ManagementAuthenticationEvidence.at credentialId principalId o at' = .error ⟨⟩ := by
  have hbucket : hourlyBucket at' = .error ⟨⟩ := by
    rw [hourlyBucket, h]
    rfl
  unfold ManagementAuthenticationEvidence.at
  split
  · next hb => cases hb.symm.trans hbucket
  · rfl

theorem resolves_some (h : a.resolves db token at' = some r) : ∃ credentialId secret,
    parseBearerToken token = some (credentialId, secret) ∧
    db.getCredential credentialId = some r.credential ∧
    db.getPrincipal r.credential.principalId = some r.principal ∧
    r.outcome = a.outcome secret r.credential r.principal at' := by
  obtain ⟨⟨credentialId, secret⟩, hparse, h⟩ := Option.bind_eq_some_iff.mp h
  obtain ⟨c, hc, h⟩ := Option.bind_eq_some_iff.mp h
  obtain ⟨p, hp, h⟩ := Option.bind_eq_some_iff.mp h
  obtain rfl := Option.some.inj h
  exact ⟨credentialId, secret, hparse, hc, hp, rfl⟩

variable {sqlNow : Tid → Utc} {ch : Choice} {i : Tid}

/-- An attempt that names no known credential returns None and leaves the store. -/
theorem authenticate_unresolved (hch : ch.fails = false) (h : a.resolves db token at' = none) :
    Ends (database sqlNow) ch i (a.authenticate token at') (World.ofDb db) (.ok none) db := by
  unfold authenticate
  cases hparse : parseBearerToken token with
  | none => exact yields_ret (sole_ofDb db)
  | some x =>
    obtain ⟨credentialId, secret⟩ := x
    refine ends_unitOfWork (ends_query hch rfl (sole_ofDb db) rfl ?_)
    show Ends _ _ _ (match db.getCredential credentialId with | none => _ | some c => _) _ _ _
    cases hc : db.getCredential credentialId with
    | none => exact yields_ret (sole_ofDb db)
    | some c =>
      refine ends_query hch rfl (sole_ofDb db) rfl ?_
      show Ends _ _ _ (match db.getPrincipal c.principalId with | none => _ | some p => _) _ _ _
      cases hp : db.getPrincipal c.principalId with
      | none => exact yields_ret (sole_ofDb db)
      | some p => simp [resolves, hparse, hc, hp] at h

/-- An attempt that names a known credential ends as its observation does. -/
theorem ends_of_observe (hch : ch.fails = false) (h : a.resolves db token at' = some r)
    {o : Except Error (Option AuthenticatedManagementIdentity)} {db' : Db}
    (hobserve : Ends (database sqlNow) ch i
      ((observe r.credential.credentialId r.credential.principalId r.outcome at').bind fun _ =>
        .ret r.identity) (World.ofDb db) o db') :
    Ends (database sqlNow) ch i (a.authenticate token at') (World.ofDb db) o db' := by
  obtain ⟨credentialId, secret, hparse, hc, hp, ho⟩ := resolves_some h
  have hid : credentialId = r.credential.credentialId := by
    obtain ⟨row, hrow, he⟩ := Option.map_eq_some_iff.mp hc
    rw [← he]
    exact (Table.find?_some hrow).2.symm
  unfold authenticate
  rw [hparse]
  refine ends_unitOfWork (ends_query hch rfl (sole_ofDb db) rfl ?_)
  show Ends _ _ _ (match db.getCredential credentialId with | none => _ | some c => _) _ _ _
  rw [hc]
  refine ends_query hch rfl (sole_ofDb db) rfl ?_
  show Ends _ _ _ (match db.getPrincipal r.credential.principalId with | none => _ | some p => _) _ _ _
  rw [hp]
  simp only [bind_eq, pure_eq, observe_outcome]
  rw [← ho, hid]
  exact hobserve

/-- The credential and the principal of a resolution are rows. -/
theorem resolves_rows (h : a.resolves db token at' = some r) :
    (∃ row, db.credentials.find? r.credential.credentialId = some row ∧
      r.credential = credentialFromRow row) ∧
    ∃ row, db.principals.find? r.credential.principalId = some row ∧
      r.principal = principalFromRow row (db.scopesOf r.credential.principalId) := by
  obtain ⟨credentialId, secret, _, hc, hp, _⟩ := resolves_some h
  obtain ⟨crow, hcrow, he⟩ := Option.map_eq_some_iff.mp hc
  obtain ⟨prow, hprow, hpe⟩ := Option.map_eq_some_iff.mp hp
  have hid : r.credential.credentialId = credentialId := by
    rw [← he]
    exact (Table.find?_some hcrow).2
  exact ⟨⟨crow, hid ▸ hcrow, he.symm⟩, prow, hprow, hpe.symm⟩

/-- An observed attempt leaves its evidence, without what is older than 90 days. -/
theorem authenticate_observed (hch : ch.fails = false) (h : a.resolves db token at' = some r)
    {u before : Utc} (hu : at'.astimezone = .ok u) (hbefore : u.startOfHour.subDays 90 = .ok before) :
    Ends (database sqlNow) ch i (a.authenticate token at') (World.ofDb db) (.ok r.identity)
      ((db.deleteEvidence before).insertEvidence (r.row u)) := by
  obtain ⟨⟨crow, hcrow, _⟩, prow, hprow, _⟩ := resolves_rows h
  obtain ⟨e, he, hbucket, hecid, hepid, hrow⟩ :=
    evidence_at hu r.credential.credentialId r.credential.principalId r.outcome
  refine ends_of_observe hch h ?_
  unfold observe
  simp only [bind_eq, bind_assoc]
  refine ends_lift he (ends_lift (hbucket ▸ hbefore) ?_)
  refine ends_change (g := fun db => db.deleteEvidence before) (r := ()) hch rfl (sole_ofDb db)
    (fun _ => rfl) fun w hw => ?_
  refine ends_change (g := fun db => db.insertEvidence (r.row u)) (r := ()) hch rfl hw
    (fun _ => ?_) fun w hw => ?_
  swap
  · exact ends_commit hch hw fun w hw => yields_ret hw
  refine Except.bind_eq_ok (congrArg (column Error.database) hrow) ?_
  refine Except.bind_eq_ok (constraint_of (.inr ⟨?_, ?_⟩)) rfl
  · show db.credentials.find? e.credentialId ≠ none
    rw [hecid, hcrow]
    exact Option.some_ne_none crow
  · show db.principals.find? e.principalId ≠ none
    rw [hepid, hprow]
    exact Option.some_ne_none prow

/-- At a time that cannot be recorded an attempt on a known credential raises. -/
theorem authenticate_overflow (hch : ch.fails = false) (h : a.resolves db token at' = some r)
    (hnot : ¬Recordable at') : Ends (database sqlNow) ch i (a.authenticate token at') (World.ofDb db)
      (.error .overflowError) db := by
  refine ends_of_observe hch h ?_
  unfold observe
  simp only [bind_eq, bind_assoc]
  rcases not_recordable hnot with hu | ⟨u, hu, hbefore⟩
  · rw [evidence_at_error hu]
    exact ends_raise (sole_ofDb db)
  · obtain ⟨e, he, hbucket, _⟩ :=
      evidence_at hu r.credential.credentialId r.credential.principalId r.outcome
    refine ends_lift he ?_
    rw [hbucket, hbefore]
    exact ends_raise (sole_ofDb db)

/-- The token is good for the credential of the row `c`, of the principal of the row `p`. -/
structure Accepts (a : ManagementAuthenticator) (db : Db) (token : String) (at' : Aware)
    (c : ManagementCredentialRow) (p : ManagementPrincipalRow) : Prop where
  secret : ∃ x, parseBearerToken token = some (c.credentialId, x) ∧
    (a.hmacSha256 a.pepper x).val = c.secretVerifier
  unrevoked : c.revokedAt = none
  unexpired : ∀ e ∈ c.expiresAt, at'.instant < e.instant
  owner : p.principalId = c.principalId
  active : p.disabledAt = none

theorem outcome_succeeded_iff {crow : ManagementCredentialRow} {prow : ManagementPrincipalRow}
    {tenantIds : Finset Uuid} :
    a.outcome secret (credentialFromRow crow) (principalFromRow prow tenantIds) at' = .succeeded ↔
      (a.hmacSha256 a.pepper secret).val = crow.secretVerifier ∧ crow.revokedAt = none ∧
        (∀ e ∈ crow.expiresAt, at'.instant < e.instant) ∧ prow.disabledAt = none := by
  have hexpires : (credentialFromRow crow).expiresAt.any (· ≤ at') = false ↔
      ∀ e ∈ crow.expiresAt, at'.instant < e.instant := by
    cases he : crow.expiresAt <;> simp [credentialFromRow, he, Aware.le_iff]
  have hrevoked : (credentialFromRow crow).revokedAt.isSome = false ↔ crow.revokedAt = none := by
    simp [credentialFromRow]
  have hactive : (!(principalFromRow prow tenantIds).isActive) = false ↔ prow.disabledAt = none := by
    simp [ManagementPrincipal.isActive, principalFromRow]
  have hverifier : (!a.verifierMatches secret (credentialFromRow crow).secretVerifier) = false ↔
      (a.hmacSha256 a.pepper secret).val = crow.secretVerifier := by
    rw [Bool.not_eq_false', verifierMatches, decide_eq_true_eq]
    exact Iff.rfl
  rw [← hverifier, ← hrevoked, ← hexpires, ← hactive]
  unfold outcome
  split_ifs <;> simp_all

/-- Exactly the attempts with a good token, at a time that can be recorded, return an
    identity: that of the credential, with what the store has of its principal. -/
theorem authenticate_iff (hch : ch.fails = false) {identity : AuthenticatedManagementIdentity} :
    ((a.authenticate token at').runState ((database sqlNow).alone ch i) (World.ofDb db)).result =
        .ok (some identity) ↔
      ∃ c ∈ db.credentials, ∃ p ∈ db.principals, a.Accepts db token at' c p ∧ Recordable at' ∧
        identity = ⟨p.principalId, c.credentialId, db.scopesOf p.principalId,
          p.canManagePrincipals⟩ := by
  constructor
  · intro hresult
    cases h : a.resolves db token at' with
    | none => simp [(authenticate_unresolved hch h).1] at hresult
    | some r =>
      by_cases hrec : Recordable at'
      · obtain ⟨u, before, hu, hbefore, _⟩ := recordable_bucket hrec
        obtain ⟨credentialId, secret, hparse, hc, hp, ho⟩ := resolves_some h
        obtain ⟨crow, hcrow, hce⟩ := Option.map_eq_some_iff.mp hc
        obtain ⟨prow, hprow, hpe⟩ := Option.map_eq_some_iff.mp hp
        obtain ⟨hcmem, hckey⟩ := Table.find?_some hcrow
        obtain ⟨hpmem, hpkey⟩ := Table.find?_some hprow
        have hidentity : r.identity = some identity :=
          Except.ok.inj ((authenticate_observed hch h hu hbefore).1.symm.trans hresult)
        unfold Resolution.identity at hidentity
        rw [ho, ← hce, ← hpe] at hidentity
        by_cases hs : a.outcome secret (credentialFromRow crow)
            (principalFromRow prow (db.scopesOf r.credential.principalId)) at' = .succeeded
        · rw [if_pos hs] at hidentity
          obtain ⟨hverifier, hunrevoked, hunexpired, hactive⟩ := outcome_succeeded_iff.mp hs
          have hown : prow.principalId = crow.principalId := by
            have hcp : r.credential.principalId = crow.principalId := by rw [← hce]; rfl
            exact hpkey.trans hcp
          refine ⟨crow, hcmem, prow, hpmem, ⟨⟨secret, ?_, hverifier⟩, hunrevoked, hunexpired, hown,
            hactive⟩, hrec, ?_⟩
          · rw [hparse, ← hckey]
            rfl
          · have hkey : r.credential.principalId = prow.principalId := hpkey.symm
            rw [hkey] at hidentity
            exact (Option.some.inj hidentity).symm
        · rw [if_neg hs] at hidentity
          cases hidentity
      · simp [(authenticate_overflow hch h hrec).1] at hresult
  · rintro ⟨c, hc, p, hp, ⟨⟨secret, hparse, hverifier⟩, hunrevoked, hunexpired, hown, hactive⟩, hrec,
      rfl⟩
    obtain ⟨u, before, hu, hbefore, _⟩ := recordable_bucket hrec
    have hcget : db.getCredential c.credentialId = some (credentialFromRow c) :=
      Option.map_eq_some_iff.mpr ⟨c, Table.mem_iff_find?.mp hc, rfl⟩
    have hpget : db.getPrincipal c.principalId =
        some (principalFromRow p (db.scopesOf p.principalId)) := by
      rw [← hown]
      exact Option.map_eq_some_iff.mpr ⟨p, Table.mem_iff_find?.mp hp, rfl⟩
    have houtcome : a.outcome secret (credentialFromRow c)
        (principalFromRow p (db.scopesOf p.principalId)) at' = .succeeded :=
      outcome_succeeded_iff.mpr ⟨hverifier, hunrevoked, hunexpired, hactive⟩
    have h : a.resolves db token at' = some ⟨credentialFromRow c,
        principalFromRow p (db.scopesOf p.principalId), .succeeded⟩ := by
      have hpget' : db.getPrincipal (credentialFromRow c).principalId =
          some (principalFromRow p (db.scopesOf p.principalId)) := hpget
      simp [resolves, hparse, hcget, hpget', houtcome]
    rw [(authenticate_observed hch h hu hbefore).1]
    rfl

end Attempts

end ManagementAuthenticator

end Valor.ManagementIdentity
