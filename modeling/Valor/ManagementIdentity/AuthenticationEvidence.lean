/-
  The evidence of authentication as a summary of all attempts.

  Attempts run one after another, each against a store of its own; only the evidence table
  is handed on. Those that are observed keep the first row of each credential, outcome and
  hour and the last 90 days of hours (`after_eq_retained`), and so the table is a function
  of the attempts (`evidence_exact`).
-/
import Valor.Lib.Retention
import Valor.ManagementIdentity.Authentication
import Valor.ManagementIdentity.LastManager

namespace Valor.ManagementIdentity

open Python Postgres ManagementAudit Prog Interleave ReadCommitted ManagementAuthenticator

/-- One attempt: the store it meets, the token and the time. -/
structure Attempt where
  db : Db
  token : String
  at' : Aware

abbrev EvidenceKey := Uuid × ManagementAuthenticationOutcome × Utc

namespace Attempt

variable (a : ManagementAuthenticator)

/-- The evidence table after the attempt, which runs alone. -/
def leaves (sqlNow : Tid → Utc) (ch : Choice) (t : Table ManagementAuthenticationEvidenceRow)
    (x : Attempt) : Table ManagementAuthenticationEvidenceRow :=
  ((a.authenticate x.token x.at').runState ((database sqlNow).alone ch 0)
    (World.ofDb { x.db with evidence := t })).state.db.evidence

/-- The known credential that the attempt resolved to. -/
def resolves (x : Attempt) : Option Resolution := a.resolves x.db x.token x.at'

/-- The attempt resolved to a known credential, with this outcome and in this hour, at a time
    that can be recorded. -/
def Observes (x : Attempt) (k : EvidenceKey) : Prop :=
  ∃ r, x.resolves a = some r ∧ r.credential.credentialId = k.1 ∧ r.outcome = k.2.1 ∧
    hourlyBucket x.at' = .ok k.2.2 ∧ Recordable x.at'

/-- The row that the attempt writes. -/
def row (x : Attempt) : Option ManagementAuthenticationEvidenceRow := do
  let r ← x.resolves a
  if Recordable x.at' then
    match x.at'.astimezone with
    | .ok u => some (r.row u)
    | .error _ => none
  else none

end Attempt

/-- The evidence table after all attempts, from an empty one. -/
def evidenceAfter (a : ManagementAuthenticator) (sqlNow : Tid → Utc) (ch : Choice)
    (attempts : List Attempt) : Table ManagementAuthenticationEvidenceRow :=
  attempts.foldl (Attempt.leaves a sqlNow ch) .empty

/-- The time of an hour's bucket. -/
def bucketTime (k : EvidenceKey) : Int := k.2.2.instant

def retentionSpan : Int := 90 * Datetime.day

section Attempts

variable {a : ManagementAuthenticator} {sqlNow : Tid → Utc} {ch : Choice} {x : Attempt}
  {t : Table ManagementAuthenticationEvidenceRow} {row : ManagementAuthenticationEvidenceRow}
  {k : EvidenceKey} {attempts : List Attempt}

theorem row_eq_some : x.row a = some row ↔ ∃ r u, x.resolves a = some r ∧ Recordable x.at' ∧
    x.at'.astimezone = .ok u ∧ row = r.row u := by
  unfold Attempt.row
  cases hr : x.resolves a with
  | none => simp
  | some r =>
    by_cases hrec : Recordable x.at'
    · cases hu : x.at'.astimezone <;> simp [hrec, eq_comm]
    · simp [hrec]

/-- The rows are those of the attempts that are observed. -/
theorem observes_iff : x.Observes a k ↔ ∃ row, x.row a = some row ∧ Keyed.key row = k := by
  constructor
  · rintro ⟨r, hr, hid, ho, hbucket, hrec⟩
    obtain ⟨u, _, hu, _⟩ := recordable_bucket hrec
    refine ⟨r.row u, row_eq_some.mpr ⟨r, u, hr, hrec, hu, rfl⟩, ?_⟩
    rw [hourlyBucket, hu] at hbucket
    have hb : u.startOfHour = k.2.2 := Except.ok.inj hbucket
    show (r.credential.credentialId, r.outcome, u.startOfHour) = k
    rw [hid, ho, hb]
  · rintro ⟨row, hrow, rfl⟩
    obtain ⟨r, u, hr, hrec, hu, rfl⟩ := row_eq_some.mp hrow
    exact ⟨r, hr, rfl, rfl, by rw [hourlyBucket, hu]; rfl, hrec⟩

/-- An attempt that is not observed leaves the table. -/
theorem leaves_of_none (hch : ch.fails = false) (h : x.row a = none) :
    x.leaves a sqlNow ch t = t := by
  have hresolves : a.resolves { x.db with evidence := t } x.token x.at' = x.resolves a := rfl
  unfold Attempt.leaves
  cases hr : x.resolves a with
  | none => rw [(authenticate_unresolved hch (hresolves.trans hr)).2]
  | some r =>
    by_cases hrec : Recordable x.at'
    · obtain ⟨u, _, hu, _⟩ := recordable_bucket hrec
      rw [row_eq_some.mpr ⟨r, u, hr, hrec, hu, rfl⟩] at h
      cases h
    · rw [(authenticate_overflow hch (hresolves.trans hr) hrec).2]

/-- An attempt that is observed leaves its row and what is not too old. -/
theorem leaves_of_some (hch : ch.fails = false) (h : x.row a = some row) :
    x.leaves a sqlNow ch t = t.retain bucketTime retentionSpan row := by
  obtain ⟨r, u, hr, hrec, hu, rfl⟩ := row_eq_some.mp h
  obtain ⟨u', before, hu', hbefore, hinstant⟩ := recordable_bucket hrec
  obtain rfl : u' = u := Except.ok.inj (hu'.symm.trans hu)
  have hresolves : a.resolves { x.db with evidence := t } x.token x.at' = some r := hr
  unfold Attempt.leaves
  rw [(authenticate_observed hch hresolves hu hbefore).2]
  show (t.delete fun s => s.bucketStartedAt.instant < before.instant).insert _ = _
  rw [hinstant]
  rfl

theorem after_eq_retained (hch : ch.fails = false) (attempts : List Attempt) :
    evidenceAfter a sqlNow ch attempts =
      Table.retained bucketTime retentionSpan (attempts.filterMap (Attempt.row a)) := by
  induction attempts using List.reverseRecOn with
  | nil => rfl
  | append_singleton attempts x ih =>
    rw [evidenceAfter] at ih ⊢
    rw [List.foldl_append, ih, List.filterMap_append]
    cases h : x.row a with
    | none =>
      simp only [List.foldl_cons, List.foldl_nil, leaves_of_none hch h, List.filterMap_cons, h,
        List.filterMap_nil, List.append_nil]
    | some row =>
      simp only [List.foldl_cons, List.foldl_nil, leaves_of_some hch h, List.filterMap_cons, h,
        List.filterMap_nil, Table.retained_snoc]

theorem bucketTime_row {r : Resolution} {u : Utc} :
    bucketTime (Keyed.key (r.row u)) = u.instant / Datetime.hour * Datetime.hour := rfl

/-- Attempts in the order of their times have rows in the order of their buckets. -/
theorem rows_sorted (h : attempts.Pairwise fun x y => x.at'.instant ≤ y.at'.instant) :
    (attempts.filterMap (Attempt.row a)).Pairwise fun r s =>
      bucketTime (Keyed.key r) ≤ bucketTime (Keyed.key s) := by
  refine List.pairwise_filterMap.mpr (h.imp fun {x y} hxy r hr s hs => ?_)
  obtain ⟨_, u, _, _, hu, rfl⟩ := row_eq_some.mp hr
  obtain ⟨_, v, _, _, hv, rfl⟩ := row_eq_some.mp hs
  have hle : u.instant ≤ v.instant := by
    rw [Aware.astimezone_instant hu, Aware.astimezone_instant hv]
    exact hxy
  rw [bucketTime_row, bucketTime_row]
  simp only [Datetime.hour]
  omega

/-- The first row with a key is that of the first attempt that observes it. -/
theorem first_observing (h : (attempts.filterMap (Attempt.row a)).find? (Keyed.key · = k) = some row) :
    ∃ pre x post, attempts = pre ++ x :: post ∧ x.row a = some row ∧ Keyed.key row = k ∧
      ∀ y ∈ pre, ¬y.Observes a k := by
  obtain ⟨hk, as, bs, happend, hfirst⟩ := List.find?_eq_some_iff_append.mp h
  obtain ⟨pre, rest, rfl, hpre, hrest⟩ := List.filterMap_eq_append_iff.mp happend
  obtain ⟨skipped, x, post, rfl, hskipped, hx, _⟩ := List.filterMap_eq_cons_iff.mp hrest
  refine ⟨pre ++ skipped, x, post, by simp, hx, by simpa using hk, fun y hy hobserves => ?_⟩
  obtain ⟨s, hs, hkey⟩ := observes_iff.mp hobserves
  rcases List.mem_append.mp hy with hy | hy
  · have hmem : s ∈ as := by
      rw [← hpre]
      exact List.mem_filterMap.mpr ⟨y, hy, hs⟩
    have hne := hfirst s hmem
    simp [hkey] at hne
  · rw [hskipped y hy] at hs
    cases hs

/-- Lifecycle outcomes are those of an attempt with the right secret. -/
theorem secret_of_lifecycle {r : Resolution} (h : x.resolves a = some r)
    (ho : r.outcome ≠ .credentialMismatch) : ∃ secret,
      parseBearerToken x.token = some (r.credential.credentialId, secret) ∧
        (a.hmacSha256 a.pepper secret).val = r.credential.secretVerifier := by
  obtain ⟨credentialId, secret, hparse, hc, _, houtcome⟩ := resolves_some h
  obtain ⟨crow, hcrow, hce⟩ := Option.map_eq_some_iff.mp hc
  have hid : r.credential.credentialId = credentialId := by
    rw [← hce]
    exact (Table.find?_some hcrow).2
  refine ⟨secret, hid ▸ hparse, ?_⟩
  by_contra hne
  refine ho (houtcome.trans ?_)
  rw [ManagementAuthenticator.outcome, if_pos]
  simpa [verifierMatches] using hne

/-- What a row of the table comes from: the first attempt that observes its key. -/
structure FirstObserved (a : ManagementAuthenticator) (attempts : List Attempt)
    (row : ManagementAuthenticationEvidenceRow) (pre : List Attempt) (x : Attempt)
    (post : List Attempt) (r : Resolution) : Prop where
  split : attempts = pre ++ x :: post
  resolves : x.resolves a = some r
  observes : x.Observes a (Keyed.key row)
  first : ∀ y ∈ pre, ¬y.Observes a (Keyed.key row)
  time : row.firstObservedAt.instant = x.at'.instant
  principal : row.principalId = r.credential.principalId
  secret : row.outcome ≠ .credentialMismatch → ∃ secret,
    parseBearerToken x.token = some (row.credentialId, secret) ∧
      (a.hmacSha256 a.pepper secret).val = r.credential.secretVerifier

/-- After attempts in the order of their times the evidence table is their summary: one row,
    of the first attempt, for each credential, outcome and hour that some attempt observed,
    back to 90 days before the hour of the last one. -/
theorem evidence_exact (a : ManagementAuthenticator) (sqlNow : Tid → Utc) (ch : Choice)
    (hch : ch.fails = false) (attempts : List Attempt)
    (hsorted : attempts.Pairwise fun x y => x.at'.instant ≤ y.at'.instant) :
    (∀ pre x post bucket, attempts = pre ++ x :: post → (x.resolves a).isSome →
      Recordable x.at' → hourlyBucket x.at' = .ok bucket →
      (∀ y ∈ post, y.resolves a = none ∨ ¬Recordable y.at') → ∀ k : EvidenceKey,
      ((∃ row ∈ evidenceAfter a sqlNow ch attempts, Keyed.key row = k) ↔
        bucket.instant - 90 * Datetime.day ≤ k.2.2.instant ∧ ∃ y ∈ attempts, y.Observes a k)) ∧
    (∀ row ∈ evidenceAfter a sqlNow ch attempts,
      (∀ row' ∈ evidenceAfter a sqlNow ch attempts, Keyed.key row' = Keyed.key row → row' = row) ∧
        row.bucketStartedAt = row.firstObservedAt.startOfHour ∧
        ∃ pre x post r, FirstObserved a attempts row pre x post r) ∧
    ∀ (t : Table ManagementAuthenticationEvidenceRow) (x : Attempt),
      (∀ credentialId secret, parseBearerToken x.token = some (credentialId, secret) →
        x.db.credentials.find? credentialId = none) → x.leaves a sqlNow ch t = t := by
  have htable : evidenceAfter a sqlNow ch attempts = _ := after_eq_retained hch attempts
  have hrows := rows_sorted (a := a) hsorted
  refine ⟨?_, ?_, ?_⟩
  · intro pre x post bucket hsplit hresolves hrec hbucket hpost k
    obtain ⟨r, hr⟩ := Option.isSome_iff_exists.mp hresolves
    obtain ⟨u, _, hu, _⟩ := recordable_bucket hrec
    have hrow : x.row a = some (r.row u) := row_eq_some.mpr ⟨r, u, hr, hrec, hu, rfl⟩
    have hlast : attempts.filterMap (Attempt.row a) = pre.filterMap (Attempt.row a) ++ [r.row u] := by
      have hnone : post.filterMap (Attempt.row a) = [] := by
        refine List.filterMap_eq_nil_iff.mpr fun y hy => ?_
        by_contra hne
        obtain ⟨row, hsome⟩ := Option.ne_none_iff_exists'.mp hne
        obtain ⟨_, _, hr', hrec', _⟩ := row_eq_some.mp hsome
        rcases hpost y hy with h | h
        · simp [hr'] at h
        · exact h hrec'
      rw [hsplit, List.filterMap_append, List.filterMap_cons, hrow, hnone]
    have hfind := Table.find?_retained (k := k) (show 0 ≤ retentionSpan by decide) (hlast ▸ hrows)
    rw [← hlast, ← htable] at hfind
    have hinstant : bucket.instant = bucketTime (Keyed.key (r.row u)) := by
      rw [hourlyBucket, hu] at hbucket
      rw [← Except.ok.inj hbucket]
      rfl
    constructor
    · rintro ⟨row, hmem, hkey⟩
      rw [Table.find?_eq_some.mpr ⟨hmem, hkey⟩] at hfind
      obtain ⟨hfirst, hkeep⟩ := Option.filter_eq_some_iff.mp hfind.symm
      obtain ⟨pre', y, post', rfl, hy, _, _⟩ := first_observing hfirst
      refine ⟨?_, y, by simp, observes_iff.mpr ⟨row, hy, hkey⟩⟩
      rw [hinstant, ← hkey]
      exact of_decide_eq_true hkeep
    · rintro ⟨hkeep, y, hy, hobserves⟩
      obtain ⟨row, hyrow, hkey⟩ := observes_iff.mp hobserves
      cases hfirst : (attempts.filterMap (Attempt.row a)).find? fun s => decide (Keyed.key s = k) with
      | none =>
        have hne := List.find?_eq_none.mp hfirst row (List.mem_filterMap.mpr ⟨y, hy, hyrow⟩)
        simp [hkey] at hne
      | some s =>
        obtain ⟨_, _, _, _, _, hs, _⟩ := first_observing hfirst
        have hkept : decide (bucketTime (Keyed.key (r.row u)) - retentionSpan ≤
            bucketTime (Keyed.key s)) = true := by
          rw [hs, ← hinstant]
          exact decide_eq_true hkeep
        rw [hfirst, Option.filter_some, if_pos hkept] at hfind
        exact ⟨s, Table.find?_eq_some.mp hfind⟩
  · intro row hmem
    refine ⟨fun row' hmem' hkey => Table.eq_of_key hmem' hmem hkey, row.hourly.symm, ?_⟩
    -- The last row that came says what the table is.
    rcases List.eq_nil_or_concat (attempts.filterMap (Attempt.row a)) with hnil | ⟨rows, last, hlast⟩
    · rw [htable, hnil] at hmem
      simp at hmem
    · rw [List.concat_eq_append] at hlast
      have hfind := Table.find?_retained (k := Keyed.key row) (show 0 ≤ retentionSpan by decide)
        (hlast ▸ hrows)
      rw [← hlast, ← htable, Table.mem_iff_find?.mp hmem] at hfind
      obtain ⟨hfirst, _⟩ := Option.filter_eq_some_iff.mp hfind.symm
      obtain ⟨pre, x, post, hsplit, hx, _, hpre⟩ := first_observing hfirst
      obtain ⟨r, u, hr, hrec, hu, rfl⟩ := row_eq_some.mp hx
      exact ⟨pre, x, post, r, hsplit, hr, observes_iff.mpr ⟨_, hx, rfl⟩, hpre,
        Aware.astimezone_instant hu, rfl, secret_of_lifecycle hr⟩
  · intro t x hunknown
    refine leaves_of_none hch ?_
    have hresolves : x.resolves a = none := by
      cases hparse : parseBearerToken x.token with
      | none => simp [Attempt.resolves, ManagementAuthenticator.resolves, hparse]
      | some y =>
        simp [Attempt.resolves, ManagementAuthenticator.resolves, hparse, Db.getCredential,
          hunknown y.1 y.2 hparse]
    simp [Attempt.row, hresolves]

end Attempts

/-! ## Two attempts, and one in the year 1 -/

/-- The token of the credential 11 of principal 1. -/
def elevenAt (at' : Utc) : Attempt := ⟨threePrincipals, generateBearerToken 11 "secret", at'⟩

def reliable : Choice := ⟨false, tableOrder⟩

theorem resolves_elevenAt (at' : Utc) : (elevenAt at').resolves exampleService.authenticator =
      some ⟨credentialFromRow (credentialRow 11 1), principalFromRow (principalRow 1 true) ∅,
        .succeeded⟩ := by
  have hparse : parseBearerToken (generateBearerToken 11 "secret") = some (11, "secret") :=
    parse_generate (by decide)
  show exampleService.authenticator.resolves threePrincipals (generateBearerToken 11 "secret") _ = _
  rw [ManagementAuthenticator.resolves, hparse]
  rfl

/-- The attempt at the beginning of the year 1 leaves no evidence: the bound of its retention
    would be before it. -/
theorem evidence_missing_at_first_hour : ∃ x r bucket,
    x.resolves exampleService.authenticator = some r ∧ hourlyBucket x.at' = .ok bucket ∧
      bucket.instant - 90 * Datetime.day ≤ bucket.instant ∧
      ∀ row ∈ evidenceAfter exampleService.authenticator (fun _ => epoch) reliable [x],
        Keyed.key row ≠ (r.credential.credentialId, r.outcome, bucket) := by
  refine ⟨elevenAt 0, _, epoch, resolves_elevenAt .., by decide, by decide, ?_⟩
  intro row hmem
  rw [after_eq_retained rfl] at hmem
  have hnone : (elevenAt 0).row exampleService.authenticator = none := by
    have hnot : ¬Recordable (elevenAt 0).at' := by decide
    simp [Attempt.row, hnot]
  simp [hnone] at hmem

/-- Two successes in one hour of the day 100 are one row. -/
theorem evidence_exact_twice : ∃ row ∈ evidenceAfter exampleService.authenticator (fun _ => epoch)
    reliable [elevenAt 8640000000001, elevenAt 8640000000002],
      Keyed.key row = (11, .succeeded, 8640000000000) :=
  ((evidence_exact exampleService.authenticator (fun _ => epoch) reliable rfl
    [elevenAt 8640000000001, elevenAt 8640000000002] (by decide)).1 [elevenAt 8640000000001]
      (elevenAt 8640000000002) [] 8640000000000 rfl (by rw [resolves_elevenAt]; rfl)
      (by decide) (by decide) (by simp) (11, .succeeded, 8640000000000)).mpr
    ⟨by decide, elevenAt 8640000000001, by simp, _, resolves_elevenAt .., rfl, rfl, by decide,
      by decide⟩

end Valor.ManagementIdentity
