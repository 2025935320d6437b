/-
  Runtime identity: the lifecycle of one Runtime Principal.

  Concurrent commands on one principal are as if run one after another, as long as no
  command commits over a row that has changed since the command read it (`Fresh`). The
  serial order is not the order of the commits: a credential can be issued on a principal
  that has been disabled in the meantime. It is by kind (`Change.rank`), and a command
  that commits is put in at the end of its kind.
-/
import Valor.Lib.Serial
import Valor.RuntimeIdentity.Commits

namespace Valor.RuntimeIdentity

open Python Postgres ManagementAudit Prog Interleave ReadCommitted Serial

/-! ## A step in other states -/

/-- The row of the principal that `p` was made from is there as well, with what an issue or a
    revocation looks at. -/
def Owner (p : RuntimePrincipal) (found : Option RuntimePrincipal) : Prop :=
  ∃ q, found = some q ∧ q.principalId = p.principalId ∧ q.tenantId = p.tenantId ∧
    (p.isActive = true → q.isActive = true)

/-- What a step needs of the database `db`, when it is enabled with the answers `a`. -/
def Change.Enabled (r : Request) (a : Answers) (db : Db) : Change → Prop
  | created .. => False
  | limits values => a.principal = (r.answers db).principal ∧
      db.matches values.principalId (·.unlimited) = true
  | issued credential => (∀ p, a.principal = some p → Owner p (r.answers db).principal) ∧
      db.credentials.find? credential.credentialId = none
  | continuity values => a.principal = (r.answers db).principal ∧
      db.matches values.principalId (·.unbound) = true ∧
      (∀ l, values.legacyRuntimePrincipalId = some l → db.claimed l = false) ∧
      (a.usable = true → (r.answers db).usable = true)
  | revoked _ _ => (∀ p, a.principal = some p → Owner p (r.answers db).principal) ∧
      a.credential = (r.answers db).credential
  | disabled _ _ => a.principal = (r.answers db).principal

section At

variable {s : Service} {r : Request} {a : Answers} {d db : Db} {reply : Reply} {change : Change}
  {records : List Record}

theorem safeToBind_usable {env : Env} {p : RuntimePrincipal} {legacyId : String}
    {facts : RuntimeInvocationContinuityFacts} {claimed usable : Bool}
    (h : (Service.preflightOf env p legacyId facts claimed usable).safeToBind = true) :
    usable = true ∧ p.usageLimitsConfigured = true := by
  simp only [Service.preflightOf, Bool.and_eq_true] at h
  exact ⟨h.2.2, h.2.1.2⟩

theorem Does.enabled (h : Does s r.env a d r.command reply change records)
    (hinvocations : db.invocations = d.invocations) (henabled : change.Enabled r a db) :
    Does s r.env (r.answers db) db r.command reply change records := by
  generalize hr : r.command = command at h ⊢
  cases h with
  | created => exact henabled.elim
  | bound actor found active unready legacy_text dayEnd_ok safe bound_ok row_ok record_ok =>
    obtain ⟨hprincipal, hmatched, hunclaimed, husable⟩ := henabled
    obtain ⟨husable', _⟩ := safeToBind_usable safe
    refine .bound actor (hprincipal.symm.trans found) active unready legacy_text dayEnd_ok ?_ bound_ok
      row_ok record_ok ?_ ?_
    · rw [inspectInvocations_congr hinvocations, (husable husable').trans husable'.symm]
      exact safe
    · rw [← (ofPrincipal_ok row_ok).1]
      exact hmatched
    · exact hunclaimed _ ((ofPrincipal_ok row_ok).2.trans (bindIdentityContinuity_ok bound_ok).2)
  | initialized actor found active unconfigured configured_ok row_ok record_ok =>
    obtain ⟨hprincipal, hmatched⟩ := henabled
    refine .initialized actor (hprincipal.symm.trans found) active unconfigured configured_ok row_ok
      record_ok ?_
    rw [← (ofPrincipal_ok row_ok).1]
    exact hmatched
  | issued actor expiry found active credential_ok row_ok record_ok =>
    obtain ⟨howner, hfree⟩ := henabled
    obtain ⟨q, hq, hid, htenant, hactive⟩ := howner _ found
    refine .issued actor expiry hq (hactive active) ?_ row_ok ?_ ?_ ?_
    · rw [hid]
      exact credential_ok
    · rw [htenant]
      exact record_ok
    · rw [← (ofCredential_ok row_ok).1]
      exact hfree
    · simp only [Request.answers, hr] at hq
      obtain ⟨row, hrow, hkey, rfl⟩ := getPrincipal_some hq
      rw [(Credential.new_ok credential_ok).2.1, ← hid]
      exact fun hnone => Option.some_ne_none row ((hkey ▸ hrow).symm.trans hnone)
  | revoked actor found credential_found owns unrevoked revoked_ok column_ok record_ok =>
    obtain ⟨howner, hcredential⟩ := henabled
    obtain ⟨q, hq, hid, htenant, _⟩ := howner _ found
    refine .revoked actor hq (hcredential.symm.trans credential_found) (owns.trans hid.symm) unrevoked
      revoked_ok column_ok ?_
    rw [htenant]
    exact record_ok
  | disabled actor found active disabled_ok column_ok record_ok =>
    have hprincipal : a.principal = (r.answers db).principal := henabled
    exact .disabled actor (hprincipal.symm.trans found) active disabled_ok column_ok record_ok

end At

/-! ## What changes leave alone -/

/-- The principals of `d` are there in `d'`, and none has been disabled in between. -/
def Stays (d d' : Db) : Prop :=
  ∀ k r, d.principals.find? k = some r → ∃ r', d'.principals.find? k = some r' ∧
    r'.tenantId = r.tenantId ∧ r'.disabledAt = r.disabledAt

theorem Stays.refl (d : Db) : Stays d d := fun _ r h => ⟨r, h, rfl, rfl⟩

theorem Stays.trans {a b c : Db} (h : Stays a b) (h' : Stays b c) : Stays a c := by
  intro k r hr
  obtain ⟨r₁, hr₁, ht₁, hd₁⟩ := h k r hr
  obtain ⟨r₂, hr₂, ht₂, hd₂⟩ := h' k r₁ hr₁
  exact ⟨r₂, hr₂, ht₂.trans ht₁, hd₂.trans hd₁⟩

/-- The place of a change in the serial order. -/
def Change.rank : Change → Nat
  | limits _ => 0
  | issued _ => 1
  | continuity _ => 2
  | revoked _ _ => 3
  | disabled _ _ => 4
  | created _ _ => 5

/-- Changes of the credentials alone; of the principals alone. -/
def Change.onCredentials : Change → Bool
  | issued _ => true
  | revoked _ _ => true
  | _ => false

def Change.onPrincipals : Change → Bool
  | limits _ => true
  | continuity _ => true
  | disabled _ _ => true
  | _ => false

section Frames

variable {d d' : Db} {change change' : Change}

theorem principals_apply (h : change.onCredentials = true) :
    (change.apply d).principals = d.principals := by
  cases change with
  | issued => rfl
  | revoked => rfl
  | _ => cases h

theorem credentials_apply (h : change.onPrincipals = true) :
    (change.apply d).credentials = d.credentials := by
  cases change with
  | limits => rfl
  | continuity => rfl
  | disabled => rfl
  | _ => cases h

theorem invocations_apply : (change.apply d).invocations = d.invocations := by
  cases change <;> rfl

/-- Changes of different tables commute. -/
theorem apply_comm (h : change.onCredentials = true) (h' : change'.onPrincipals = true) :
    change.apply (change'.apply d) = change'.apply (change.apply d) := by
  cases change with
  | issued => cases change' <;> first | rfl | cases h'
  | revoked => cases change' <;> first | rfl | cases h'
  | _ => cases h

theorem stays_modify {k : Uuid} {f : RuntimePrincipalRow → RuntimePrincipalRow}
    {hf : ∀ r, Keyed.key (f r) = Keyed.key r}
    (h : ∀ r, (f r).tenantId = r.tenantId ∧ (f r).disabledAt = r.disabledAt) :
    Stays d { d with principals := d.principals.modify k f hf } := by
  intro q r hr
  have hfind := Table.find?_modify d.principals k f hf q
  rw [hr] at hfind
  by_cases hq : q = k
  · exact ⟨f r, hfind.trans (by simp [hq]), h r⟩
  · exact ⟨r, hfind.trans (by simp [hq]), rfl, rfl⟩

theorem stays_apply (h : change.rank < 4) : Stays d (change.apply d) := by
  cases change with
  | limits values =>
    refine stays_modify fun r => ?_
    split <;> exact ⟨rfl, rfl⟩
  | continuity values =>
    refine stays_modify fun r => ?_
    split <;> exact ⟨rfl, rfl⟩
  | issued crow => exact .refl d
  | revoked c t => exact .refl d
  | disabled p t => exact absurd h (lt_irrefl 4)
  | created row crow => exact absurd h (by simp [Change.rank])

theorem Stays.owner (h : Stays d d') {k : Uuid} {p : RuntimePrincipal}
    (hp : d.getPrincipal k = some p) : Owner p (d'.getPrincipal k) := by
  obtain ⟨r, hr, hkey, rfl⟩ := getPrincipal_some hp
  obtain ⟨r', hr', ht, hd⟩ := h k r hr
  refine ⟨principalFromRow r', ?_, ?_, ht, fun hactive => ?_⟩
  · rw [Db.getPrincipal, hr']
    rfl
  · exact (Table.find?_some hr').2.trans hkey.symm
  · rw [isActive_principalFromRow] at hactive ⊢
    rwa [hd]

/-- Principals are only modified. -/
theorem principal_of_apply (h : change.rank < 5) {k : Uuid} {r' : RuntimePrincipalRow}
    (hr' : (change.apply d).principals.find? k = some r') :
    ∃ r, d.principals.find? k = some r := by
  have hmodify : (∃ q f hf, (change.apply d).principals = d.principals.modify q f hf) →
      ∃ r, d.principals.find? k = some r := by
    rintro ⟨q, f, hf, he⟩
    rw [he, Table.find?_modify] at hr'
    cases hr : d.principals.find? k with
    | none => simp [hr] at hr'
    | some r => exact ⟨r, rfl⟩
  cases change with
  | limits values => exact hmodify ⟨_, _, fun r => by split <;> rfl, rfl⟩
  | continuity values => exact hmodify ⟨_, _, fun r => by split <;> rfl, rfl⟩
  | disabled p t => exact hmodify ⟨p, fun r => { r with disabledAt := t }, fun _ => rfl, rfl⟩
  | issued crow => exact ⟨r', hr'⟩
  | revoked c t => exact ⟨r', hr'⟩
  | created row crow => exact absurd h (lt_irrefl 5)

end Frames

/-! ## Steps that do not notice another -/

section Pass

variable {s : Service} {r : Request} {d db : Db} {reply : Reply} {change : Change}
  {records : List Record} {crow : RuntimeCredentialRow}

/-- An issue or a revocation, and a change of principals that disables none. -/
theorem pass_principals (h : Does s r.env (r.answers d) d r.command reply change records)
    (hcredentials : db.credentials = d.credentials) (hinvocations : db.invocations = d.invocations)
    (hstays : Stays d db) (hcreds : change.onCredentials = true) :
    Does s r.env (r.answers db) db r.command reply change records := by
  refine h.enabled hinvocations ?_
  generalize hr : r.command = command at h
  cases h with
  | issued _ _ _ _ _ row_ok _ free _ =>
    refine ⟨fun p hp => ?_, ?_⟩
    · simp only [Request.answers, hr] at hp ⊢
      exact hstays.owner hp
    · rw [hcredentials, (ofCredential_ok row_ok).1]
      exact free
  | revoked =>
    refine ⟨fun p hp => ?_, ?_⟩
    · simp only [Request.answers, hr] at hp ⊢
      exact hstays.owner hp
    · simp only [Request.answers, hr, Db.getCredential, hcredentials]
  | _ => cases hcreds

/-- Disabling, and a change of credentials. -/
theorem pass_disabled (h : Does s r.env (r.answers d) d r.command reply change records)
    (hprincipals : db.principals = d.principals) (hinvocations : db.invocations = d.invocations)
    (hrank : change.rank = 4) : Does s r.env (r.answers db) db r.command reply change records := by
  refine h.enabled hinvocations ?_
  generalize hr : r.command = command at h
  cases h with
  | disabled =>
    show (r.answers d).principal = (r.answers db).principal
    simp only [Request.answers, hr, Db.getPrincipal, hprincipals]
  | _ => simp [Change.rank] at hrank

theorem usable_insertCredential {k : Uuid} {now : Utc} (h : d.hasPotentiallyUsable k now = true) :
    (d.insertCredential crow).hasPotentiallyUsable k now = true := by
  obtain ⟨x, hx, hxk⟩ := List.any_eq_true.mp h
  exact List.any_eq_true.mpr ⟨x, Table.mem_insert_of_mem (t := d.credentials) hx, hxk⟩

/-- A binding, and an issue. -/
theorem pass_bound (h : Does s r.env (r.answers d) d r.command reply change records)
    (hrank : change.rank = 2) :
    Does s r.env (r.answers (d.insertCredential crow)) (d.insertCredential crow) r.command reply
      change records := by
  have hsame : (d.insertCredential crow).invocations = d.invocations := rfl
  refine h.enabled hsame ?_
  generalize hr : r.command = command at h
  cases h with
  | bound _ _ _ _ _ _ _ bound_ok row_ok _ matched unclaimed =>
    refine ⟨?_, ?_, fun l hl => ?_, fun husable => ?_⟩
    · simp only [Request.answers, hr]
      rfl
    · rw [(ofPrincipal_ok row_ok).1]
      exact matched
    · rw [(ofPrincipal_ok row_ok).2, (bindIdentityContinuity_ok bound_ok).2] at hl
      cases hl
      exact unclaimed
    · simp only [Request.answers, hr] at husable ⊢
      exact usable_insertCredential husable
  | _ => simp [Change.rank] at hrank

/-- A revocation, and the issue of another credential. -/
theorem pass_revoked (h : Does s r.env (r.answers d) d r.command reply change records)
    (hrank : change.rank = 3) :
    Does s r.env (r.answers (d.insertCredential crow)) (d.insertCredential crow) r.command reply
      change records := by
  have hsame : (d.insertCredential crow).invocations = d.invocations := rfl
  refine h.enabled hsame ?_
  generalize hr : r.command = command at h
  cases h with
  | revoked _ _ credential_found =>
    refine ⟨fun p hp => ?_, ?_⟩
    · simp only [Request.answers, hr] at hp ⊢
      exact (Stays.refl d).owner hp
    · simp only [Request.answers, hr] at credential_found ⊢
      obtain ⟨row, hrow, _, _⟩ := getCredential_some credential_found
      have hfind := Table.find?_insert d.credentials crow
      simp only [Db.getCredential, Db.insertCredential, hfind, hrow, Option.some_or]
  | _ => simp [Change.rank] at hrank

/-- The issue of a credential and the revocation of another one. -/
theorem apply_comm_revoked {k : Uuid} {revokedAt : Option Utc} (h : crow.credentialId ≠ k) :
    (d.insertCredential crow).revokeCredential k revokedAt =
      (d.revokeCredential k revokedAt).insertCredential crow := by
  have htable := Table.modify_insert_comm d.credentials crow (fun r => { r with revokedAt })
    (fun _ => rfl) h
  exact congrArg (fun t => { d with credentials := t }) htable

end Pass

/-! ## A new step in a serial history -/

/-- A committed command: what it answered and did. -/
structure Effect where
  tid : Tid
  reply : Reply
  change : Change
  records : List Record

/-- The command of the effect does just that, alone on the database. -/
def Effect.Does (s : Service) (requests : Tid → Request) (x : Effect) (d : Db) : Prop :=
  RuntimeIdentity.Does s (requests x.tid).env ((requests x.tid).answers d) d (requests x.tid).command
    x.reply x.change x.records

abbrev SerialHistory (s : Service) (requests : Tid → Request) : List Effect → Db → Db → Prop :=
  History (Effect.Does s requests) fun x => x.change.apply

/-- The existing principal that a command is about. -/
def Command.principalId? : Command → Option Uuid
  | createPrincipal _ => none
  | bindIdentityContinuity c => some c.principalId
  | initializeUsageLimits c => some c.principalId
  | issueCredential c => some c.principalId
  | revokeCredential c => some c.principalId
  | disablePrincipal c => some c.principalId

section Place

variable {s : Service} {requests : Tid → Request} {principalId : Uuid} {x z : Effect}
  {xs ys zs : List Effect} {r : Request} {a : Answers} {db₀ d t u : Db} {p : RuntimePrincipal}

theorem rank_lt {reply : Reply} {change : Change} {records : List Record}
    (h : Does s r.env a d r.command reply change records)
    (hr : r.command.principalId? = some principalId) : change.rank < 5 := by
  generalize r.command = command at h hr
  cases h with
  | created => cases hr
  | _ => simp [Change.rank]

theorem Effect.Does.later (h : x.Does s requests d) : Later d (x.change.apply d) :=
  RuntimeIdentity.Does.later h

/-- A serial history grows, and every step is taken between its ends. -/
theorem SerialHistory.later (h : SerialHistory s requests xs t u) : Later t u :=
  h.rel .refl (fun _ _ _ => .trans) fun _ _ _ => Effect.Does.later

theorem SerialHistory.within (h : SerialHistory s requests xs t u) :
    History (fun x v => x.Does s requests v ∧ Later t v ∧ Later (x.change.apply v) u)
      (fun x => x.change.apply) xs t u :=
  History.within .refl (fun _ _ _ => .trans) (fun _ _ => Effect.Does.later) h

/-- Before a state with the principal active it is never disabled. -/
theorem not_disabled {reply : Reply} {change : Change} {records : List Record}
    (h : Does s r.env (r.answers d) d r.command reply change records)
    (hP : r.command.principalId? = some principalId) (hlater : Later (change.apply d) u)
    (hp : u.getPrincipal principalId = some p) (hactive : p.isActive = true) :
    change.rank ≠ 4 := by
  generalize hr : r.command = command at h hP
  cases h with
  | @disabled _ _ disabled disabledAt _ _ found _ disabled_ok column_ok _ =>
    exfalso
    cases hP
    simp only [Request.answers, hr] at found
    obtain ⟨row, hrow, hkey, rfl⟩ := getPrincipal_some found
    obtain ⟨hid, hat⟩ := disable_ok disabled_ok
    have hpid : disabled.principalId = row.principalId := hid
    have hfind := Table.find?_modify d.principals disabled.principalId
      (fun r => { r with disabledAt := disabledAt }) (fun _ => rfl) row.principalId
    rw [if_pos hpid.symm, hkey, hrow] at hfind
    obtain ⟨row', hrow', _, hdisabled, _⟩ := hlater.principals _ _ hfind
    obtain ⟨row'', hrow'', _, rfl⟩ := getPrincipal_some hp
    rw [hrow''] at hrow'
    cases hrow'
    rw [isActive_principalFromRow] at hactive
    have hsome := hdisabled (isSome_column hat column_ok)
    rw [Option.isSome_iff_ne_none] at hsome
    exact hsome (Option.isNone_iff_eq_none.mp hactive)
  | _ => simp [Change.rank]

/-- Before a state with no limits it is never bound. -/
theorem not_bound {reply : Reply} {change : Change} {records : List Record}
    (h : Does s r.env (r.answers d) d r.command reply change records)
    (hP : r.command.principalId? = some principalId) (hlater : Later d u)
    (hp : u.getPrincipal principalId = some p) (hunconfigured : p.usageLimitsConfigured = false) :
    change.rank ≠ 2 := by
  generalize hr : r.command = command at h hP
  cases h with
  | bound _ found _ _ _ _ safe =>
    exfalso
    cases hP
    simp only [Request.answers, hr] at found
    obtain ⟨row, hrow, hkey, rfl⟩ := getPrincipal_some found
    obtain ⟨row', hrow', _, _, hdaily, _⟩ := hlater.principals _ row hrow
    obtain ⟨row'', hrow'', _, rfl⟩ := getPrincipal_some hp
    rw [hrow''] at hrow'
    cases hrow'
    have hconfigured : row'.dailyUsageLimitUnits.isSome := hdaily (safeToBind_usable safe).2
    have hnone : row'.dailyUsageLimitUnits.isSome = false := hunconfigured
    rw [hnone] at hconfigured
    cases hconfigured
  | _ => simp [Change.rank]

/-- What the answers of a command have to do with the database `u` of its commit. -/
structure Current (r : Request) (db₀ u : Db) (a : Answers) (change : Change) : Prop where
  principal : ∃ seen, Later db₀ seen ∧ Later seen u ∧ a.principal = (r.answers seen).principal
  usable : ∃ seen, Later db₀ seen ∧ Later seen u ∧ a.usable = (r.answers seen).usable
  fresh : match change with
    | .revoked _ _ => a.credential = (r.answers u).credential
    | .issued _ => True
    | _ => a.principal = (r.answers u).principal

/-- The new step can be taken at `t`, and the steps from `t` to `u` do not notice it. -/
structure Placed (s : Service) (requests : Tid → Request) (x : Effect) (zs : List Effect)
    (t u : Db) : Prop where
  does : x.Does s requests t
  rest : SerialHistory s requests zs (x.change.apply t) (x.change.apply u)

/-- Changes of other tables in front of steps that do not notice them. -/
theorem placed_of_pass (hx : x.Does s requests t) (hzs : SerialHistory s requests zs t u)
    (hpass : ∀ z ∈ zs, ∀ v, z.Does s requests v → Later t v → Later (z.change.apply v) u →
      z.Does s requests (x.change.apply v) ∧
        z.change.apply (x.change.apply v) = x.change.apply (z.change.apply v)) :
    Placed s requests x zs t u :=
  ⟨hx, hzs.within.after fun z hz v ⟨hd, ht, hu⟩ => hpass z hz v hd ht hu⟩

theorem answers_principal (hP : r.command.principalId? = some principalId) :
    (r.answers d).principal = d.getPrincipal principalId := by
  unfold Request.answers
  generalize r.command = command at hP
  cases command <;> cases hP <;> rfl

theorem onCredentials_of_rank {change : Change} (h : change.rank = 1 ∨ change.rank = 3) :
    change.onCredentials = true := by
  cases change <;> simp_all [Change.rank, Change.onCredentials]

/-- Between `t` and `u` only credentials change. -/
def CredentialsOnly (s : Service) (requests : Tid → Request) (zs : List Effect) (t u : Db) : Prop :=
  ∀ z ∈ zs, ∀ v, z.Does s requests v → Later t v → Later (z.change.apply v) u →
    z.change.onCredentials = true

theorem CredentialsOnly.principals (h : CredentialsOnly s requests zs t u)
    (hzs : SerialHistory s requests zs t u) : u.principals = t.principals :=
  hzs.within.rel (R := fun d d' => d'.principals = d.principals) (fun _ => rfl)
    (fun a b c (h : b.principals = a.principals) (h' : c.principals = b.principals) => h'.trans h)
    fun z hz v ⟨hd, ht, hu⟩ => principals_apply (h z hz v hd ht hu)

theorem placed_onPrincipals (h : CredentialsOnly s requests zs t u)
    (hzs : SerialHistory s requests zs t u) (hx : x.Does s requests t)
    (hon : x.change.onPrincipals = true) (hrank : x.change.rank < 4) :
    Placed s requests x zs t u := by
  refine placed_of_pass hx hzs fun z hz v hd ht hu => ?_
  have hcreds := h z hz v hd ht hu
  exact ⟨pass_principals hd (credentials_apply hon) invocations_apply (stays_apply hrank) hcreds,
    apply_comm hcreds hon⟩

/-- A revocation is of a credential that is there and not revoked. -/
theorem revoked_found {reply : Reply} {records : List Record} {k : Uuid} {revokedAt : Option Utc}
    (h : Does s r.env (r.answers d) d r.command reply (.revoked k revokedAt) records) :
    ∃ row, d.credentials.find? k = some row ∧ row.revokedAt = none := by
  generalize hr : r.command = command at h
  cases h with
  | revoked _ _ credential_found _ unrevoked revoked_ok =>
    simp only [Request.answers, hr] at credential_found
    obtain ⟨row, hrow, hkey, rfl⟩ := getCredential_some credential_found
    refine ⟨row, ?_, by simpa [credentialFromRow] using unrevoked⟩
    rw [(revoke_ok revoked_ok).1]
    exact (congrArg d.credentials.find? hkey).trans hrow

/-- An issued credential is not revoked, and its key was free. -/
theorem issued_row {reply : Reply} {records : List Record} {crow : RuntimeCredentialRow}
    (h : Does s r.env a d r.command reply (.issued crow) records) :
    crow.revokedAt = none ∧ d.credentials.find? crow.credentialId = none := by
  generalize r.command = command at h
  cases h with
  | issued _ _ _ _ credential_ok row_ok _ free _ =>
    obtain ⟨hid, _, _, hrevoked⟩ := ofCredential_ok row_ok
    rw [(Credential.new_ok credential_ok).2.2.2] at hrevoked
    exact ⟨by simpa using hrevoked, by rwa [hid]⟩

theorem SerialHistory.stays (hxs : SerialHistory s requests xs t u)
    (hrank : ∀ x ∈ xs, x.change.rank < 4) : Stays t u :=
  hxs.rel .refl (fun _ _ _ => .trans) fun x hx _ _ => stays_apply (hrank x hx)

section Prefix

variable (on : ∀ i, (requests i).command.principalId? = some principalId)
  (hxs : SerialHistory s requests xs t u)
include on hxs

/-- No principal is added. -/
theorem SerialHistory.principal_of {k : Uuid} {row : RuntimePrincipalRow}
    (h : u.principals.find? k = some row) : ∃ row, t.principals.find? k = some row := by
  refine hxs.rel (R := fun d d' => (∃ row, d'.principals.find? k = some row) →
    ∃ row, d.principals.find? k = some row) (fun _ => id) ?_ ?_ ⟨row, h⟩
  · exact fun a b c hab hbc hc => hab (hbc hc)
  · rintro x _ d hd ⟨row, hrow⟩
    exact principal_of_apply (rank_lt hd (on x.tid)) hrow

/-- Until the first revocation, a credential is as it was or has been issued since. -/
theorem SerialHistory.unrevoked (hrank : ∀ x ∈ xs, x.change.rank < 3) {k : Uuid}
    {row : RuntimeCredentialRow} (h : u.credentials.find? k = some row) :
    t.credentials.find? k = some row ∨ row.revokedAt = none := by
  refine hxs.rel (R := fun d d' => ∀ row, d'.credentials.find? k = some row →
    d.credentials.find? k = some row ∨ row.revokedAt = none) (fun _ _ => .inl) ?_ ?_ row h
  · intro a b c hab hbc row hrow
    rcases hbc row hrow with hrow | hrow
    · exact hab row hrow
    · exact .inr hrow
  · rintro ⟨tid, reply, change, records⟩ hx d hd row hrow
    have hlt := hrank _ hx
    have h5 := rank_lt hd (on tid)
    cases change with
    | limits values => exact .inl hrow
    | continuity values => exact .inl hrow
    | issued crow =>
      have hfind := (Table.find?_insert d.credentials crow k).symm.trans hrow
      rcases Option.or_eq_some_iff.mp hfind with hold | ⟨_, hnew⟩
      · exact .inl hold
      · obtain ⟨_, hnew⟩ := Option.ite_none_right_eq_some.mp hnew
        cases hnew
        exact .inr (issued_row hd).1
    | revoked q t => exact absurd hlt (lt_irrefl 3)
    | disabled q t => exact absurd hlt (by simp [Change.rank])
    | created row crow => exact absurd h5 (by simp [Change.rank])

/-- Revocations add no credential. -/
theorem SerialHistory.credential_of (hrank : ∀ x ∈ xs, 3 ≤ x.change.rank) {k : Uuid}
    (h : (u.credentials.find? k).isSome) : (t.credentials.find? k).isSome := by
  refine hxs.rel (R := fun d d' => (d'.credentials.find? k).isSome → (d.credentials.find? k).isSome)
    (fun _ => id) (fun a b c hab hbc hc => hab (hbc hc)) ?_ h
  rintro ⟨tid, reply, change, records⟩ hx d hd hsome
  have hge := hrank _ hx
  have h5 := rank_lt hd (on tid)
  cases change with
  | revoked q t =>
    have hfind := Table.find?_modify d.credentials q (fun r => { r with revokedAt := t })
      (fun _ => rfl) k
    have hsome' := (congrArg Option.isSome hfind).symm.trans hsome
    split at hsome' <;> simpa using hsome'
  | disabled q t => exact hsome
  | limits values => exact absurd hge (by simp [Change.rank])
  | continuity values => exact absurd hge (by simp [Change.rank])
  | issued crow => exact absurd hge (by simp [Change.rank])
  | created row crow => exact absurd h5 (by simp [Change.rank])

end Prefix

/-- A credential that was usable when it was read: before the revocations, and once those
    that it was issued by are in, it is usable. -/
theorem usable_before {seen : Db} {k : Uuid} {now : Utc} (hseen : Later db₀ seen)
    (hlater : Later seen u) (htu : Later t u)
    (hkeys : ∀ q, (u.credentials.find? q).isSome → (t.credentials.find? q).isSome)
    (hunrevoked : ∀ q row, t.credentials.find? q = some row →
      db₀.credentials.find? q = some row ∨ row.revokedAt = none)
    (h : seen.hasPotentiallyUsable k now = true) : t.hasPotentiallyUsable k now = true := by
  obtain ⟨x, hx, hxk⟩ := List.any_eq_true.mp h
  have hfind : seen.credentials.find? x.credentialId = some x :=
    (Table.mem_iff_find? (t := seen.credentials)).mp hx
  obtain ⟨xu, hxu, hpid, hexpires, _⟩ := hlater.credentials _ x hfind
  obtain ⟨xt, hxt⟩ := Option.isSome_iff_exists.mp (hkeys x.credentialId (by rw [hxu]; rfl))
  obtain ⟨xu', hxu', hpid', hexpires', _⟩ := htu.credentials _ xt hxt
  rw [hxu] at hxu'
  cases hxu'
  have hnone : xt.revokedAt = none := by
    rcases hunrevoked _ xt hxt with hold | hnone
    · obtain ⟨x', hx', _, _, hrevoked, _⟩ := hseen.credentials _ xt hold
      rw [hfind] at hx'
      cases hx'
      have hxnone : x.revokedAt = none := by
        simp only [Bool.and_eq_true, Option.isNone_iff_eq_none] at hxk
        exact hxk.1.2
      by_contra hne
      have hsome := hrevoked (Option.isSome_iff_ne_none.mpr hne)
      simp [hxnone] at hsome
    · exact hnone
  refine List.any_eq_true.mpr ⟨xt, (Table.find?_some hxt).1, ?_⟩
  simp only [Bool.and_eq_true, Option.isNone_iff_eq_none] at hxk ⊢
  rw [← hpid', ← hexpires', hpid, hexpires]
  exact ⟨⟨hxk.1.1, hnone⟩, hxk.2⟩

theorem answers_credential (h : d.credentials = t.credentials) :
    (r.answers d).credential = (r.answers t).credential := by
  unfold Request.answers Db.getCredential
  rw [h]
  cases r.command <;> rfl

section Kinds

variable {i : Tid} {reply : Reply} {records : List Record}
  (on : ∀ i, (requests i).command.principalId? = some principalId)
  (hzs : SerialHistory s requests zs t u)
include on hzs

theorem placed_limits {values : RuntimePrincipalRow}
    (hrank : ∀ z ∈ zs, (Change.limits values).rank < z.change.rank)
    (hx : Does s (requests i).env a u (requests i).command reply (.limits values) records)
    (hcurrent : Current (requests i) db₀ u a (.limits values)) :
    Placed s requests ⟨i, reply, .limits values, records⟩ zs t u := by
  have hfound : a.principal = ((requests i).answers u).principal := hcurrent.fresh
  obtain ⟨p, hp, hactive, hunconfigured, hmatched⟩ : ∃ p, a.principal = some p ∧
      p.isActive = true ∧ p.usageLimitsConfigured = false ∧
      u.matches values.principalId (·.unlimited) = true := by
    generalize (requests i).command = command at hx
    cases hx with
    | initialized _ found active unconfigured _ row_ok _ matched =>
      rw [← (ofPrincipal_ok row_ok).1] at matched
      exact ⟨_, found, active, unconfigured, matched⟩
  have hpu := hfound.symm.trans hp
  rw [answers_principal (on i)] at hpu hfound
  have honly : CredentialsOnly s requests zs t u := by
    intro z hz v hd ht hu
    have hlt : 0 < z.change.rank := hrank z hz
    have h5 := rank_lt hd (on z.tid)
    have h4 := not_disabled hd (on z.tid) hu hpu hactive
    have h2 := not_bound hd (on z.tid) (hd.later.trans hu) hpu hunconfigured
    refine onCredentials_of_rank ?_
    omega
  have hprincipals := honly.principals hzs
  refine placed_onPrincipals honly hzs ?_ rfl (by simp [Change.rank])
  refine hx.enabled hzs.later.invocations.symm ⟨?_, ?_⟩
  · rw [hfound, answers_principal (on i), Db.getPrincipal, hprincipals]
    rfl
  · rw [Db.matches, ← hprincipals]
    exact hmatched

theorem placed_continuity {values : RuntimePrincipalRow} (hys : SerialHistory s requests ys db₀ t)
    (hyrank : ∀ y ∈ ys, y.change.rank ≤ (Change.continuity values).rank)
    (hrank : ∀ z ∈ zs, (Change.continuity values).rank < z.change.rank)
    (hx : Does s (requests i).env a u (requests i).command reply (.continuity values) records)
    (hcurrent : Current (requests i) db₀ u a (.continuity values)) :
    Placed s requests ⟨i, reply, .continuity values, records⟩ zs t u := by
  have hfound : a.principal = ((requests i).answers u).principal := hcurrent.fresh
  obtain ⟨c, p, hr, hp, hactive, hmatched, hunclaimed, husable⟩ : ∃ c p,
      (requests i).command = .bindIdentityContinuity c ∧ a.principal = some p ∧
      p.isActive = true ∧ u.matches values.principalId (·.unbound) = true ∧
      (∀ l, values.legacyRuntimePrincipalId = some l → u.claimed l = false) ∧ a.usable = true := by
    generalize hr : (requests i).command = command at hx
    cases hx with
    | bound _ found active _ _ _ safe bound_ok row_ok _ matched unclaimed =>
      obtain ⟨hid, hlegacy⟩ := ofPrincipal_ok row_ok
      rw [← hid] at matched
      refine ⟨_, _, rfl, found, active, matched, fun l hl => ?_, (safeToBind_usable safe).1⟩
      rw [hlegacy, (bindIdentityContinuity_ok bound_ok).2] at hl
      cases hl
      exact unclaimed
  have hpu := hfound.symm.trans hp
  rw [answers_principal (on i)] at hpu hfound
  have hthree : ∀ z ∈ zs, ∀ v, z.Does s requests v → Later t v → Later (z.change.apply v) u →
      z.change.rank = 3 := by
    intro z hz v hd ht hu
    have hlt : 2 < z.change.rank := hrank z hz
    have h5 := rank_lt hd (on z.tid)
    have h4 := not_disabled hd (on z.tid) hu hpu hactive
    omega
  have honly : CredentialsOnly s requests zs t u := fun z hz v hd ht hu =>
    onCredentials_of_rank (.inr (hthree z hz v hd ht hu))
  have hprincipals := honly.principals hzs
  refine placed_onPrincipals honly hzs ?_ rfl (by simp [Change.rank])
  refine hx.enabled hzs.later.invocations.symm ⟨?_, ?_, fun l hl => ?_, fun _ => ?_⟩
  · rw [hfound, answers_principal (on i), Db.getPrincipal, hprincipals]
    rfl
  · rw [Db.matches, ← hprincipals]
    exact hmatched
  · rw [Db.claimed, ← hprincipals]
    exact hunclaimed l hl
  · obtain ⟨seen, hseen, hlater, heq⟩ := hcurrent.usable
    rw [husable] at heq
    simp only [Request.answers, hr] at heq ⊢
    refine usable_before hseen hlater hzs.later (fun k => hzs.credential_of on fun z hz => ?_)
      (fun k row => hys.unrevoked on fun y hy => ?_) heq.symm
    · exact hrank z hz
    · exact Nat.lt_succ_of_le (hyrank y hy)

/-- The principal that an issue or a revocation has found was there all the time. -/
theorem owner_of_current {change : Change} (hys : SerialHistory s requests ys db₀ t)
    (hyrank : ∀ y ∈ ys, y.change.rank < 4) (hcurrent : Current (requests i) db₀ u a change)
    (p : RuntimePrincipal) (hp : a.principal = some p) :
    Owner p ((requests i).answers t).principal := by
  obtain ⟨seen, hseen, hlater, hfound⟩ := hcurrent.principal
  rw [hfound, answers_principal (on i)] at hp
  obtain ⟨row, hrow, hkey, rfl⟩ := getPrincipal_some hp
  obtain ⟨row', hrow', _⟩ := hlater.principals _ row hrow
  obtain ⟨row₁, hrow₁⟩ := hzs.principal_of on hrow'
  obtain ⟨row₀, hrow₀⟩ := hys.principal_of on hrow₁
  obtain ⟨row₁', hrow₁', htenant, hdisabled⟩ := hys.stays hyrank _ row₀ hrow₀
  obtain ⟨row', hrow', htenant', hdisabled', _⟩ := hseen.principals _ row₀ hrow₀
  rw [hrow] at hrow'
  cases hrow'
  refine ⟨principalFromRow row₁', ?_, ?_, htenant.trans htenant'.symm, fun hactive => ?_⟩
  · rw [answers_principal (on i), Db.getPrincipal, hrow₁']
    rfl
  · exact (Table.find?_some hrow₁').2.trans hkey.symm
  · rw [isActive_principalFromRow] at hactive ⊢
    rw [hdisabled, Option.isNone_iff_eq_none]
    by_contra hne
    have hsome := hdisabled' (Option.isSome_iff_ne_none.mpr hne)
    rw [Option.isNone_iff_eq_none] at hactive
    simp [hactive] at hsome

theorem placed_issued {crow : RuntimeCredentialRow} (hys : SerialHistory s requests ys db₀ t)
    (hyrank : ∀ y ∈ ys, y.change.rank ≤ (Change.issued crow).rank)
    (hrank : ∀ z ∈ zs, (Change.issued crow).rank < z.change.rank)
    (hx : Does s (requests i).env a u (requests i).command reply (.issued crow) records)
    (hcurrent : Current (requests i) db₀ u a (.issued crow)) :
    Placed s requests ⟨i, reply, .issued crow, records⟩ zs t u := by
  have hfree : ∀ v, Later v u → v.credentials.find? crow.credentialId = none := by
    intro v hv
    by_contra hne
    obtain ⟨row, hrow⟩ := Option.ne_none_iff_exists'.mp hne
    obtain ⟨row', hrow', _⟩ := hv.credentials _ row hrow
    rw [(issued_row hx).2] at hrow'
    cases hrow'
  have howner := owner_of_current on hzs hys
    (fun y hy => lt_of_le_of_lt (hyrank y hy) (by simp [Change.rank])) hcurrent
  refine placed_of_pass (hx.enabled hzs.later.invocations.symm ⟨howner, hfree t hzs.later⟩) hzs ?_
  rintro ⟨tid, reply, change, records⟩ hz v hd ht hu
  have hlt : 1 < change.rank := hrank _ hz
  have h5 := rank_lt hd (on tid)
  cases change with
  | continuity values => exact ⟨pass_bound hd rfl, rfl⟩
  | disabled k at' => exact ⟨pass_disabled hd rfl rfl rfl, rfl⟩
  | revoked k at' =>
    obtain ⟨row, hrow, _⟩ := revoked_found hd
    have hne : crow.credentialId ≠ k := by
      rintro rfl
      have hnone := hfree v (hd.later.trans hu)
      rw [hrow] at hnone
      cases hnone
    exact ⟨pass_revoked hd rfl, apply_comm_revoked hne⟩
  | limits values => exact absurd hlt (by simp [Change.rank])
  | issued crow' => exact absurd hlt (by simp [Change.rank])
  | created row crow' => exact absurd h5 (by simp [Change.rank])

theorem placed_revoked {k : Uuid} {at' : Option Utc} (hys : SerialHistory s requests ys db₀ t)
    (hyrank : ∀ y ∈ ys, y.change.rank ≤ (Change.revoked k at').rank)
    (hrank : ∀ z ∈ zs, (Change.revoked k at').rank < z.change.rank)
    (hx : Does s (requests i).env a u (requests i).command reply (.revoked k at') records)
    (hcurrent : Current (requests i) db₀ u a (.revoked k at')) :
    Placed s requests ⟨i, reply, .revoked k at', records⟩ zs t u := by
  have hfour : ∀ z ∈ zs, ∀ v, z.Does s requests v → z.change.rank = 4 := by
    intro z hz v hd
    have hlt : 3 < z.change.rank := hrank z hz
    have h5 := rank_lt hd (on z.tid)
    omega
  have hon : ∀ z ∈ zs, ∀ v, z.Does s requests v → z.change.onPrincipals = true := by
    intro z hz v hd
    have h4 := hfour z hz v hd
    cases hc : z.change with
    | limits => rfl
    | continuity => rfl
    | disabled => rfl
    | issued => simp [hc, Change.rank] at h4
    | revoked => simp [hc, Change.rank] at h4
    | created => simp [hc, Change.rank] at h4
  have hcredentials : u.credentials = t.credentials :=
    hzs.rel (R := fun d d' => d'.credentials = d.credentials) (fun _ => rfl)
      (fun a b c (hab : b.credentials = a.credentials) (hbc : c.credentials = b.credentials) =>
        hbc.trans hab) fun z hz v hd => credentials_apply (hon z hz v hd)
  have howner := owner_of_current on hzs hys
    (fun y hy => lt_of_le_of_lt (hyrank y hy) (by simp [Change.rank])) hcurrent
  have hread : a.credential = ((requests i).answers t).credential :=
    hcurrent.fresh.trans (answers_credential hcredentials)
  refine placed_of_pass (hx.enabled hzs.later.invocations.symm ⟨howner, hread⟩) hzs ?_
  exact fun z hz v hd _ _ => ⟨pass_disabled hd (principals_apply rfl) invocations_apply (hfour z hz v hd),
    (apply_comm rfl (hon z hz v hd)).symm⟩

theorem placed_disabled {k : Uuid} {at' : Option Utc}
    (hrank : ∀ z ∈ zs, (Change.disabled k at').rank < z.change.rank)
    (hx : Does s (requests i).env a u (requests i).command reply (.disabled k at') records)
    (hcurrent : Current (requests i) db₀ u a (.disabled k at')) :
    Placed s requests ⟨i, reply, .disabled k at', records⟩ zs t u := by
  cases hzs with
  | nil => exact ⟨hx.enabled rfl hcurrent.fresh, .nil _⟩
  | @cons z zs _ _ hd _ =>
    have hlt : 4 < z.change.rank := hrank z (List.mem_cons_self ..)
    have h5 := rank_lt hd (on z.tid)
    omega

end Kinds

/-- By kind. -/
abbrev Sorted (xs : List Effect) : Prop := xs.Pairwise fun x y => x.change.rank ≤ y.change.rank

theorem exists_insert (on : ∀ i, (requests i).command.principalId? = some principalId)
    (hxs : SerialHistory s requests xs db₀ u) (hsorted : Sorted xs)
    (hx : RuntimeIdentity.Does s (requests x.tid).env a u (requests x.tid).command x.reply x.change
      x.records) (hcurrent : Current (requests x.tid) db₀ u a x.change) :
    ∃ ys zs, xs = ys ++ zs ∧ Sorted (ys ++ x :: zs) ∧
      SerialHistory s requests (ys ++ x :: zs) db₀ (x.change.apply u) := by
  obtain ⟨ys, zs, rfl, hys, hzs⟩ := exists_split hsorted x.change.rank
  obtain ⟨t, hyt, hzt⟩ := history_append.mp hxs
  refine ⟨ys, zs, rfl, pairwise_insert hsorted hys hzs, ?_⟩
  have hplaced : Placed s requests x zs t u := by
    obtain ⟨i, reply, change, records⟩ := x
    cases change with
    | limits values => exact placed_limits on hzt hzs hx hcurrent
    | issued crow => exact placed_issued on hzt hyt hys hzs hx hcurrent
    | continuity values => exact placed_continuity on hzt hyt hys hzs hx hcurrent
    | revoked k at' => exact placed_revoked on hzt hyt hys hzs hx hcurrent
    | disabled k at' => exact placed_disabled on hzt hzs hx hcurrent
    | created row crow => exact absurd (rank_lt hx (on i)) (by simp [Change.rank])
  exact history_append.mpr ⟨t, hyt, .cons hplaced.does hplaced.rest⟩

end Place

/-! ## Commands alone -/

section Alone

variable {s : Service} {r : Request} {d db' : Db} {ch : Choice} {i : Tid} {w : World Db Lock}
  {ws : List (Db → Db)} {α : Type} {x : α}

theorem yields_requireActive {p : RuntimePrincipal} {k : RuntimePrincipal → Program α}
    (hactive : p.isActive = true) (hk : Yields database ch i (k p) w x db') :
    Yields database ch i ((Service.requireActive (some p)).bind k) w x db' := by
  simp only [Service.requireActive, bind_eq, bind_assoc]
  exact ends_raiseWhen (by simp [hactive]) hk

theorem yields_auditsAppend (hch : ch.fails = false) {record : Record} {k : Unit → Program α}
    (h : Sole i d ws w)
    (hk : ∀ w, Sole i d (ws ++ [fun db => db.appendAudit record]) w →
      Yields database ch i (k ()) w x db') :
    Yields database ch i ((sql (.auditsAppend record)).bind k) w x db' :=
  ends_change hch rfl h (fun _ => rfl) hk

/-- The end of every command: the audit record and the commit. -/
theorem yields_auditPrincipal (hch : ch.fails = false) {actor : Uuid} {value : RuntimePrincipal}
    {before : Option RuntimePrincipal} {action : Action} {record : Record} (h : Sole i d ws w)
    (hrecord : s.principalRecord r.env actor value before action = .ok record)
    (hdb : (ws.foldl (fun d f => f d) d).appendAudit record = db') :
    Yields database ch i ((s.auditPrincipal r.env actor value before action).bind fun _ =>
      commit.bind fun _ => .ret x) w x db' := by
  rw [← hdb]
  unfold Service.auditPrincipal
  rw [bind_eq, bind_assoc]
  refine ends_lift hrecord (yields_auditsAppend hch h fun w h => ends_commit hch h fun w h => ?_)
  rw [List.foldl_append] at h
  exact yields_ret h

theorem yields_auditCredential (hch : ch.fails = false) {auditId actor tenantId : Uuid}
    {value : RuntimeCredential} {before : Option RuntimeCredential} {action : Action}
    {record : Record} (h : Sole i d ws w)
    (hrecord : s.credentialRecord r.env auditId actor tenantId value before action = .ok record)
    (hdb : (ws.foldl (fun d f => f d) d).appendAudit record = db') :
    Yields database ch i ((s.auditCredential r.env auditId actor tenantId value before action).bind
      fun _ => commit.bind fun _ => .ret x) w x db' := by
  rw [← hdb]
  unfold Service.auditCredential
  rw [bind_eq, bind_assoc]
  refine ends_lift hrecord (yields_auditsAppend hch h fun w h => ends_commit hch h fun w h => ?_)
  rw [List.foldl_append] at h
  exact yields_ret h

theorem yields_principalsGet (hch : ch.fails = false) {k : Uuid} {p : RuntimePrincipal}
    {f : Option RuntimePrincipal → Program α} (hw : Sole i d [] w) (hp : d.getPrincipal k = some p)
    (hk : Yields database ch i (f (some p)) w x db') :
    Yields database ch i ((sql (.principalsGet k)).bind f) w x db' :=
  ends_query hch rfl hw (congrArg Except.ok hp) hk

/-- Claimed identities are stripped. -/
theorem strip_of_claimed {legacyId : String} (h : d.claimed legacyId = true) :
    strip legacyId = legacyId := by
  obtain ⟨row, _, hl⟩ := claimed_iff.mp h
  have hs := row.legacy_stripped
  rw [hl] at hs
  exact Option.some.inj hs

section Commands

variable {reply : Reply} {change : Change} {records : List Record} (hch : ch.fails = false)
  (hw : Sole i d [] w)
include hch hw

theorem initializeUsageLimits_yields {c : InitializeRuntimeUsageLimitsCommand}
    (hr : r.command = .initializeUsageLimits c)
    (h : Does s r.env (r.answers d) d (.initializeUsageLimits c) reply change records) :
    ∃ q, reply = .principal q ∧ Yields database ch i (s.initializeUsageLimits r.env c) w q
      ((change.apply d).appendAudits records) := by
  cases h with
  | @initialized _ principal configured row record actor found active unconfigured configured_ok
      row_ok record_ok matched =>
    refine ⟨_, rfl, ?_⟩
    simp only [Request.answers, hr] at found
    unfold Service.initializeUsageLimits Service.requireManager
    refine ends_raiseWhen (by simp [actor]) (ends_unitOfWork ?_)
    refine yields_principalsGet hch hw found (yields_requireActive active ?_)
    refine ends_raiseWhen (by simp [unconfigured]) (ends_lift configured_ok ?_)
    refine ends_change (g := fun db => db.initializeUsageLimits row) (r := true) hch rfl hw
      (fun _ => ?_) fun w hw => ?_
    · rw [row_ok]
      exact if_pos matched
    · exact ends_raiseWhen (by simp) (yields_auditPrincipal hch hw record_ok rfl)

theorem issueCredential_yields {c : IssueRuntimeCredentialCommand}
    (hr : r.command = .issueCredential c)
    (h : Does s r.env (r.answers d) d (.issueCredential c) reply change records) :
    ∃ q, reply = .issued q ∧ Yields database ch i (s.issueCredential r.env c) w q
      ((change.apply d).appendAudits records) := by
  cases h with
  | @issued _ principal credential crow record actor expiry found active credential_ok row_ok
      record_ok free owner =>
    refine ⟨_, rfl, ?_⟩
    simp only [Request.answers, hr] at found
    unfold Service.issueCredential Service.requireManager
    refine ends_raiseWhen (by simp [actor]) ?_
    rw [expiry]
    refine ends_unitOfWork ?_
    refine yields_principalsGet hch hw found (yields_requireActive active ?_)
    unfold Service.newCredential
    simp only [bind_eq, bind_assoc]
    refine ends_lift credential_ok ?_
    refine ends_change (g := fun db => db.insertCredential crow) (r := ()) hch rfl hw
      (fun _ => ?_) fun w hw => yields_auditCredential hch hw record_ok rfl
    exact Except.bind_eq_ok (congrArg (column _) row_ok)
      (Except.bind_eq_ok (constraint_of free) (Except.bind_eq_ok (constraint_of owner) rfl))

theorem revokeCredential_yields {c : RuntimeCredentialCommand}
    (hr : r.command = .revokeCredential c)
    (h : Does s r.env (r.answers d) d (.revokeCredential c) reply change records) :
    ∃ q, reply = .credential q ∧ Yields database ch i (s.revokeCredential r.env c) w q
      ((change.apply d).appendAudits records) := by
  cases h with
  | @revoked _ principal credential revoked revokedAt record actor found credential_found owns
      unrevoked revoked_ok column_ok record_ok =>
    refine ⟨_, rfl, ?_⟩
    simp only [Request.answers, hr] at found credential_found
    unfold Service.revokeCredential Service.requireManager
    refine ends_raiseWhen (by simp [actor]) (ends_unitOfWork ?_)
    refine yields_principalsGet hch hw found ?_
    refine ends_query hch rfl hw (congrArg Except.ok credential_found) ?_
    simp only [Service.requireRevocable, bind_eq, bind_assoc]
    refine ends_raiseWhen (by simp [owns, unrevoked]) (ends_lift revoked_ok ?_)
    refine ends_change (g := fun db => db.revokeCredential revoked.credentialId revokedAt) (r := ())
      hch rfl hw (fun _ => ?_) fun w hw => yields_auditCredential hch hw record_ok rfl
    rw [column_ok]
    rfl

theorem disablePrincipal_yields {c : DisablePrincipalCommand}
    (hr : r.command = .disablePrincipal c)
    (h : Does s r.env (r.answers d) d (.disablePrincipal c) reply change records) :
    ∃ q, reply = .principal q ∧ Yields database ch i (s.disablePrincipal r.env c) w q
      ((change.apply d).appendAudits records) := by
  cases h with
  | @disabled _ principal disabled disabledAt record actor found active disabled_ok column_ok
      record_ok =>
    refine ⟨_, rfl, ?_⟩
    simp only [Request.answers, hr] at found
    unfold Service.disablePrincipal Service.requireManager
    refine ends_raiseWhen (by simp [actor]) (ends_unitOfWork ?_)
    refine yields_principalsGet hch hw found (yields_requireActive active ?_)
    refine ends_lift disabled_ok ?_
    refine ends_change (g := fun db => db.disablePrincipal disabled.principalId disabledAt)
      (r := ()) hch rfl hw (fun _ => ?_) fun w hw => yields_auditPrincipal hch hw record_ok rfl
    rw [column_ok]
    rfl

theorem bindIdentityContinuity_yields {c : RuntimeIdentityContinuityCommand}
    (hr : r.command = .bindIdentityContinuity c)
    (h : Does s r.env (r.answers d) d (.bindIdentityContinuity c) reply change records) :
    ∃ q, reply = .principal q ∧ Yields database ch i (s.bindIdentityContinuity r.env c) w q
      ((change.apply d).appendAudits records) := by
  cases h with
  | @bound _ principal dayEnd bound row record actor found active unready legacy_text dayEnd_ok safe
      bound_ok row_ok record_ok matched unclaimed =>
    refine ⟨_, rfl, ?_⟩
    simp only [Request.answers, hr] at found safe
    unfold Service.bindIdentityContinuity Service.requireManager
    refine ends_raiseWhen (by simp [actor]) (ends_unitOfWork ?_)
    refine ends_change (g := id) (r := ()) hch rfl hw (fun _ => ?_) fun w hw => ?_
    · rw [legacy_text]
      rfl
    have hunclaimed : d.claimed c.legacyRuntimePrincipalId = false := by
      by_contra hne
      have hclaimed := eq_true_of_ne_false hne
      rw [strip_of_claimed hclaimed, hclaimed] at unclaimed
      cases unclaimed
    have hpid : principal.principalId = c.principalId := by
      obtain ⟨row, _, hkey, rfl⟩ := getPrincipal_some found
      exact hkey
    refine ends_change (g := id) (r := some principal) hch rfl hw
      (fun _ => by simp [found]) fun w hw => ?_
    refine yields_requireActive active (ends_raiseWhen (by simp [unready]) ?_)
    refine ends_query (r := false) hch rfl hw ?_ (ends_raiseWhen (by simp) ?_)
    · rw [legacy_text]
      exact congrArg Except.ok hunclaimed
    unfold Service.continuityPreflight
    simp only [bind_eq, bind_assoc]
    refine ends_lift dayEnd_ok ?_
    refine ends_query (r := d.inspectInvocations c.legacyRuntimePrincipalId
      principal.principalId.str principal.tenantId principal.agentId r.env.now.midnight dayEnd)
      hch (stmt_inspectInvocations ..) hw ?_ ?_
    · rw [legacy_text]
      rfl
    refine ends_query (r := false) hch rfl hw ?_ ?_
    · rw [legacy_text]
      exact congrArg Except.ok hunclaimed
    refine ends_query (r := d.hasPotentiallyUsable c.principalId r.env.now) hch rfl hw
      (by simp [hpid]) ?_
    refine ends_raiseWhen (by simp [safe]) (ends_lift bound_ok ?_)
    refine ends_change (g := fun db => db.bindIdentityContinuity row) (r := true) hch rfl hw
      (fun _ => ?_) fun w hw => ?_
    · refine Except.bind_eq_ok (congrArg (column _) row_ok) ((if_pos matched).trans ?_)
      refine Except.bind_eq_ok (constraint_of ?_) rfl
      rw [(bindIdentityContinuity_ok bound_ok).2]
      exact unclaimed
    · exact ends_raiseWhen (by simp) (yields_auditPrincipal hch hw record_ok rfl)

end Commands

end Alone

/-- A command that succeeds as an atomic step does so alone. -/
theorem handle_yields {s : Service} {r : Request} {d : Db} {ch : Choice} {principalId : Uuid}
    {reply : Reply} {change : Change} {records : List Record} (hch : ch.fails = false)
    (hP : r.command.principalId? = some principalId)
    (h : Does s r.env (r.answers d) d r.command reply change records) :
    Yields database ch 0 (s.handle r) (World.ofDb d) reply
      ((change.apply d).appendAudits records) := by
  have hw : Sole 0 d [] (World.ofDb d : World Db Lock) := sole_ofDb d
  unfold Service.handle
  generalize hr : r.command = command at h hP
  cases command with
  | createPrincipal c => cases hP
  | bindIdentityContinuity c =>
    obtain ⟨q, rfl, hy⟩ := bindIdentityContinuity_yields hch hw hr h
    exact yields_map hy
  | initializeUsageLimits c =>
    obtain ⟨q, rfl, hy⟩ := initializeUsageLimits_yields hch hw hr h
    exact yields_map hy
  | issueCredential c =>
    obtain ⟨q, rfl, hy⟩ := issueCredential_yields hch hw hr h
    exact yields_map hy
  | revokeCredential c =>
    obtain ⟨q, rfl, hy⟩ := revokeCredential_yields hch hw hr h
    exact yields_map hy
  | disablePrincipal c =>
    obtain ⟨q, rfl, hy⟩ := disablePrincipal_yields hch hw hr h
    exact yields_map hy

/-! ## The audit records apart -/

section Audits

variable {s : Service} {r : Request} {env : Env} {a : Answers} {d db : Db} {command : Command}
  {reply : Reply} {change : Change} {records A : List Record}

def Db.withAudits (db : Db) (audits : List Record) : Db := { db with audits }

theorem Does.withAudits (h : Does s env a db command reply change records) :
    Does s env a (db.withAudits A) command reply change records := by
  cases h with
  | created actor expiry binding principal_ok credential_ok row_ok crow_ok record_ok record'_ok free
      credential_free =>
    exact .created actor expiry binding principal_ok credential_ok row_ok crow_ok record_ok
      record'_ok free credential_free
  | bound actor found active unready legacy_text dayEnd_ok safe bound_ok row_ok record_ok matched
      unclaimed =>
    exact .bound actor found active unready legacy_text dayEnd_ok safe bound_ok row_ok record_ok
      matched unclaimed
  | initialized actor found active unconfigured configured_ok row_ok record_ok matched =>
    exact .initialized actor found active unconfigured configured_ok row_ok record_ok matched
  | issued actor expiry found active credential_ok row_ok record_ok free owner =>
    exact .issued actor expiry found active credential_ok row_ok record_ok free owner
  | revoked actor found credential_found owns unrevoked revoked_ok column_ok record_ok =>
    exact .revoked actor found credential_found owns unrevoked revoked_ok column_ok record_ok
  | disabled actor found active disabled_ok column_ok record_ok =>
    exact .disabled actor found active disabled_ok column_ok record_ok

theorem Later.withAudits (h : Later d db) : Later d (db.withAudits A) :=
  ⟨h.principals, h.credentials, h.agents, h.invocations⟩

theorem answers_withAudits : r.answers (db.withAudits A) = r.answers db := by
  unfold Request.answers
  cases r.command <;> rfl

theorem apply_withAudits : change.apply (db.withAudits A) = (change.apply db).withAudits A := by
  cases change <;> rfl

theorem history_serially {requests : Tid → Request} {principalId : Uuid} {xs : List Effect}
    {d' : Db} {ch : Choice} (hch : ch.fails = false)
    (on : ∀ i, (requests i).command.principalId? = some principalId)
    (h : SerialHistory s requests xs d d') (A : List Record) :
    database.serially ch (xs.map fun x => s.handle (requests x.tid)) (d.withAudits A) =
      (xs.map fun x => .ok x.reply, d'.withAudits (A ++ xs.flatMap (·.records))) := by
  induction h generalizing A with
  | nil d =>
    simp only [List.map_nil, List.flatMap_nil, List.append_nil]
    rfl
  | @cons x xs d d' hx _ ih =>
    have hdoes : Does s (requests x.tid).env ((requests x.tid).answers (d.withAudits A))
        (d.withAudits A) (requests x.tid).command x.reply x.change x.records := by
      rw [answers_withAudits]
      exact Does.withAudits hx
    have hdb : (x.change.apply (d.withAudits A)).appendAudits x.records =
        (x.change.apply d).withAudits (A ++ x.records) := by
      rw [apply_withAudits]
      rfl
    have hy := handle_yields hch (on x.tid) hdoes
    rw [hdb] at hy
    rw [List.map_cons, serially_cons hy, ih]
    simp

end Audits

/-! ## Runs -/

/-- The row that the command has read without a lock is still the stored one. -/
def Request.ReadsCurrent (r : Request) (evs : List (Event (Op Sql) (Op.Res Sql.Res) Error))
    (db : Db) : Prop :=
  match r.command with
  | .initializeUsageLimits c => ∀ found, ⟨.sql (.principalsGet c.principalId), .ok found⟩ ∈ evs →
      db.getPrincipal c.principalId = found
  | .disablePrincipal c => ∀ found, ⟨.sql (.principalsGet c.principalId), .ok found⟩ ∈ evs →
      db.getPrincipal c.principalId = found
  | .revokeCredential c => ∀ found, ⟨.sql (.credentialsGet c.credentialId), .ok found⟩ ∈ evs →
      db.getCredential c.credentialId = found
  | _ => True

/-- A commit is fresh: no row that the command has read and changes was changed since. -/
def Fresh (requests : Tid → Request) (tr : List RunLabel) (c : RunConfig) (l : RunLabel)
    (_ : RunConfig) : Prop :=
  l = committed l.tid → (requests l.tid).ReadsCurrent (own l.tid tr) c.world.db

/-- The committed database and trace are those of the effects `xs`, one after another. -/
structure Serialized (s : Service) (requests : Tid → Request) (db₀ : Db) (tr : List RunLabel)
    (db : Db) (xs : List Effect) : Prop where
  sorted : Sorted xs
  history : SerialHistory s requests xs db₀ (db.withAudits db₀.audits)
  audits : db.audits.Perm (db₀.audits ++ xs.flatMap (·.records))
  nodup : (xs.map (·.tid)).Nodup
  mem : ∀ i, i ∈ xs.map (·.tid) ↔ committed i ∈ tr
  wrote : ∀ x ∈ xs, ∃ evs, evs <+: own x.tid tr ∧ (requests x.tid).wrote x.reply evs

section Runs

variable {s : Service} {requests : Tid → Request} {principalId : Uuid} {db₀ : Db}
  {tr : List RunLabel} {c c' : RunConfig} {l : RunLabel} {xs : List Effect}

theorem current_of_observed {r : Request} {a : Answers} {db : Db} {reply : Reply} {change : Change}
    {records : List Record} {evs : List (Event (Op Sql) (Op.Res Sql.Res) Error)}
    (hP : r.command.principalId? = some principalId)
    (h : Does s r.env a db r.command reply change records) (ho : Observed r db₀ db evs a)
    (hfresh : r.ReadsCurrent evs db) : Current r db₀ db a change := by
  refine ⟨ho.principal, ho.usable, ?_⟩
  have hread := ho.read
  unfold Request.ReadsCurrent at hfresh
  generalize hr : r.command = command at h hread hfresh hP
  cases h with
  | created => cases hP
  | bound => simpa only [Request.answers, hr] using hread
  | initialized => simpa only [Request.answers, hr] using (hfresh _ hread).symm
  | issued => trivial
  | revoked => simpa only [Request.answers, hr] using (hfresh _ hread).symm
  | disabled => simpa only [Request.answers, hr] using (hfresh _ hread).symm

theorem own_isPrefix (i : Tid) (tr : List RunLabel) (l : RunLabel) : own i tr <+: own i (tr ++ [l]) := by
  rw [own_append]
  exact List.prefix_append ..

theorem Current.withAudits {r : Request} {a : Answers} {db : Db} {change : Change} {A : List Record}
    (h : Current r db₀ db a change) : Current r db₀ (db.withAudits A) a change := by
  obtain ⟨⟨seen, hseen, hlater, hp⟩, ⟨seen', hseen', hlater', hu⟩, hfresh⟩ := h
  refine ⟨⟨seen, hseen, hlater.withAudits, hp⟩, ⟨seen', hseen', hlater'.withAudits, hu⟩, ?_⟩
  rwa [answers_withAudits]

/-- A commit is put into the serial history; any other step leaves it. -/
theorem Serialized.step (on : ∀ i, (requests i).command.principalId? = some principalId)
    (h : Serialized s requests db₀ tr c.world.db xs)
    (hG : CommitsOnly (fun w => Commits s (requests l.tid) db₀ l.tid (w, tr)) l.tid l.event.op
      l.event.answer c.world c'.world) (hfresh : Fresh requests tr c l c') :
    ∃ xs, Serialized s requests db₀ (tr ++ [l]) c'.world.db xs := by
  have hwrote : ∀ x ∈ xs, ∃ evs, evs <+: own x.tid (tr ++ [l]) ∧
      (requests x.tid).wrote x.reply evs := by
    intro x hx
    obtain ⟨evs, hpre, hw⟩ := h.wrote x hx
    exact ⟨evs, hpre.trans (own_isPrefix x.tid tr l), hw⟩
  rcases hG.label_cases with ⟨hl, ⟨a, reply, change, records, hcommit⟩, hw'⟩ | ⟨hl, hdb⟩
  · have hcurrent := current_of_observed (on l.tid) hcommit.does hcommit.observed (hfresh hl)
    obtain ⟨ys, zs, rfl, hsorted, hhistory⟩ := exists_insert (x := ⟨l.tid, reply, change, records⟩) on
      h.history h.sorted hcommit.does.withAudits hcurrent.withAudits
    have hdb : c'.world.db = (change.apply c.world.db).appendAudits records := by
      rw [hw', db_commit]
      exact hcommit.view
    have hnew : l.tid ∉ (ys ++ zs).map (·.tid) := fun hm => hcommit.first ((h.mem l.tid).mp hm)
    have hperm : (ys ++ ⟨l.tid, reply, change, records⟩ :: zs).Perm
        (⟨l.tid, reply, change, records⟩ :: (ys ++ zs)) := List.perm_middle
    refine ⟨ys ++ ⟨l.tid, reply, change, records⟩ :: zs, hsorted, ?_, ?_, ?_, fun i => ?_, ?_⟩
    · rw [hdb]
      rw [apply_withAudits] at hhistory
      exact hhistory
    · rw [hdb]
      have haudits : (change.apply c.world.db).audits = c.world.db.audits := by cases change <;> rfl
      show ((change.apply c.world.db).audits ++ records).Perm _
      rw [haudits]
      refine (h.audits.append_right records).trans ?_
      rw [List.append_assoc]
      refine List.Perm.append_left _ (List.Perm.trans ?_ (hperm.flatMap_right _).symm)
      exact List.perm_append_comm
    · rw [(hperm.map _).nodup_iff]
      exact List.nodup_cons.mpr ⟨hnew, h.nodup⟩
    · rw [(hperm.map _).mem_iff, List.map_cons, List.mem_cons, h.mem, List.mem_append,
        List.mem_singleton, hl, committed_inj, or_comm]
      exact Iff.rfl
    · intro x hx
      rcases List.mem_cons.mp (hperm.mem_iff.mp hx) with rfl | hx
      · exact ⟨_, own_isPrefix _ tr l, hcommit.wrote⟩
      · exact hwrote x hx
  · refine ⟨xs, h.sorted, hdb ▸ h.history, hdb ▸ h.audits, h.nodup, fun i => ?_, hwrote⟩
    rw [h.mem, List.mem_append, List.mem_singleton]
    exact ⟨.inl, fun hm => hm.elim id fun he => absurd he.symm (hl i)⟩

theorem serialized_run (on : ∀ i, (requests i).command.principalId? = some principalId)
    (h : RunWhere database.exec (Fresh requests) [] ⟨World.ofDb db₀, fun i => s.handle (requests i)⟩
      tr c) : ∃ xs, Serialized s requests db₀ tr c.world.db xs := by
  induction h with
  | nil => exact ⟨[], .nil, .nil _, by simp [World.ofDb], List.nodup_nil, by simp, by simp⟩
  | snoc init hs hfresh ih =>
    obtain ⟨xs, hxs⟩ := ih
    exact hxs.step on (step_commits init.run hs) hfresh

end Runs

/-! ## Ends -/

/-- The row that a command ends. -/
def Command.ends : Command → Option Lock
  | revokeCredential c => some (.credential c.credentialId)
  | disablePrincipal c => some (.principal c.principalId)
  | _ => none

/-- The credential is revoked; the principal is disabled. -/
def Ended : Lock → Db → Prop
  | .credential k, db => ∃ row, db.credentials.find? k = some row ∧ row.revokedAt.isSome
  | .principal k, db => ∃ row, db.principals.find? k = some row ∧ row.disabledAt.isSome
  | _, _ => False

/-- What has ended, stays as it has ended. -/
structure Kept (db db' : Db) : Prop where
  revoked : ∀ k row, db.credentials.find? k = some row → row.revokedAt.isSome →
    ∃ row', db'.credentials.find? k = some row' ∧ row'.revokedAt = row.revokedAt
  disabled : ∀ k row, db.principals.find? k = some row → row.disabledAt.isSome →
    ∃ row', db'.principals.find? k = some row' ∧ row'.disabledAt = row.disabledAt

section Ends

variable {s : Service} {requests : Tid → Request} {principalId : Uuid} {db₀ db db' : Db}
  {tr tr' : List RunLabel} {c c' : RunConfig} {l : RunLabel} {r : Request} {a : Answers}
  {reply : Reply} {change : Change} {records : List Record} {k : Lock}

theorem Kept.refl (db : Db) : Kept db db :=
  ⟨fun _ row h _ => ⟨row, h, rfl⟩, fun _ row h _ => ⟨row, h, rfl⟩⟩

theorem Kept.trans {a b c : Db} (h : Kept a b) (h' : Kept b c) : Kept a c := by
  constructor
  · intro k row hrow hsome
    obtain ⟨row₁, hrow₁, he₁⟩ := h.revoked k row hrow hsome
    obtain ⟨row₂, hrow₂, he₂⟩ := h'.revoked k row₁ hrow₁ (he₁ ▸ hsome)
    exact ⟨row₂, hrow₂, he₂.trans he₁⟩
  · intro k row hrow hsome
    obtain ⟨row₁, hrow₁, he₁⟩ := h.disabled k row hrow hsome
    obtain ⟨row₂, hrow₂, he₂⟩ := h'.disabled k row₁ hrow₁ (he₁ ▸ hsome)
    exact ⟨row₂, hrow₂, he₂.trans he₁⟩

theorem Ended.later (h : Ended k db) (hlater : Later db db') : Ended k db' := by
  cases k with
  | credential k =>
    obtain ⟨row, hrow, hsome⟩ := h
    obtain ⟨row', hrow', _, _, hrevoked, _⟩ := hlater.credentials k row hrow
    exact ⟨row', hrow', hrevoked hsome⟩
  | principal k =>
    obtain ⟨row, hrow, hsome⟩ := h
    obtain ⟨row', hrow', _, hdisabled, _⟩ := hlater.principals k row hrow
    exact ⟨row', hrow', hdisabled hsome⟩
  | legacyIdentity _ => exact h.elim
  | legacyKey _ => exact h.elim

/-- A fresh command ends a row that has not ended. -/
theorem ends_fresh (h : Does s r.env a db r.command reply change records)
    (hcurrent : Current r db₀ db a change) (hk : r.command.ends = some k) :
    ¬Ended k db ∧ Ended k (change.apply db) := by
  have hread := hcurrent.fresh
  generalize hr : r.command = command at h hk
  cases h with
  | @revoked c principal credential revoked revokedAt record _ _ found _ unrevoked revoked_ok column_ok =>
    cases hk
    simp only [Request.answers, hr] at hread
    obtain ⟨row, hrow, hkey, rfl⟩ := getCredential_some (hread.symm.trans found)
    obtain ⟨hid, hat⟩ := revoke_ok revoked_ok
    have hrid : revoked.credentialId = c.credentialId := hid.trans hkey
    have hnone : row.revokedAt = none := by simpa [credentialFromRow] using unrevoked
    refine ⟨?_, ?_⟩
    · rintro ⟨row', hrow', hsome⟩
      rw [hrow] at hrow'
      cases hrow'
      simp [hnone] at hsome
    · have hfind := Table.find?_modify db.credentials revoked.credentialId
        (fun r => { r with revokedAt }) (fun _ => rfl) c.credentialId
      rw [if_pos hrid.symm, hrow] at hfind
      exact ⟨_, hfind, isSome_column hat column_ok⟩
  | @disabled c principal disabled disabledAt record _ found active disabled_ok column_ok =>
    cases hk
    simp only [Request.answers, hr] at hread
    obtain ⟨row, hrow, hkey, rfl⟩ := getPrincipal_some (hread.symm.trans found)
    obtain ⟨hid, hat⟩ := disable_ok disabled_ok
    have hrid : disabled.principalId = c.principalId := hid.trans hkey
    rw [isActive_principalFromRow, Option.isNone_iff_eq_none] at active
    refine ⟨?_, ?_⟩
    · rintro ⟨row', hrow', hsome⟩
      rw [hrow] at hrow'
      cases hrow'
      simp [active] at hsome
    · have hfind := Table.find?_modify db.principals disabled.principalId
        (fun r => { r with disabledAt }) (fun _ => rfl) c.principalId
      rw [if_pos hrid.symm, hrow] at hfind
      exact ⟨_, hfind, isSome_column hat column_ok⟩
  | _ => cases hk

/-- The key of the row that a revocation or a disabling changes. -/
theorem ends_of_change (h : Does s r.env a db r.command reply change records)
    (hcurrent : Current r db₀ db a change) :
    (∀ q t, change = .revoked q t → r.command.ends = some (.credential q)) ∧
      ∀ q t, change = .disabled q t → r.command.ends = some (.principal q) := by
  have hread := hcurrent.fresh
  generalize hr : r.command = command at h
  cases h with
  | revoked _ _ found _ _ revoked_ok _ _ =>
    refine ⟨?_, by simp⟩
    rintro q t he
    cases he
    simp only [Request.answers, hr] at hread
    obtain ⟨row, _, hkey, rfl⟩ := getCredential_some (hread.symm.trans found)
    rw [(revoke_ok revoked_ok).1]
    exact congrArg (some ∘ Lock.credential) hkey.symm
  | disabled _ found _ disabled_ok _ _ =>
    refine ⟨by simp, ?_⟩
    rintro q t he
    cases he
    simp only [Request.answers, hr] at hread
    obtain ⟨row, _, hkey, rfl⟩ := getPrincipal_some (hread.symm.trans found)
    rw [(disable_ok disabled_ok).1]
    exact congrArg (some ∘ Lock.principal) hkey.symm
  | _ => exact ⟨by simp, by simp⟩

theorem kept_apply (hP : r.command.principalId? = some principalId)
    (h : Does s r.env a db r.command reply change records)
    (hcurrent : Current r db₀ db a change) : Kept db (change.apply db) := by
  obtain ⟨hrevoked, hdisabled⟩ := ends_of_change h hcurrent
  have hrank := rank_lt h hP
  constructor
  · intro k row hrow hsome
    cases change with
    | limits values => exact ⟨row, hrow, rfl⟩
    | continuity values => exact ⟨row, hrow, rfl⟩
    | disabled q t => exact ⟨row, hrow, rfl⟩
    | issued crow =>
      have hfind := Table.find?_insert db.credentials crow k
      rw [hrow] at hfind
      exact ⟨row, hfind, rfl⟩
    | revoked q t =>
      have hfind := Table.find?_modify db.credentials q (fun r => { r with revokedAt := t })
        (fun _ => rfl) k
      by_cases hk : k = q
      · subst hk
        exact absurd ⟨row, hrow, hsome⟩ (ends_fresh h hcurrent (hrevoked k t rfl)).1
      · rw [if_neg hk, hrow] at hfind
        exact ⟨row, hfind, rfl⟩
    | created row crow => simp [Change.rank] at hrank
  · intro k row hrow hsome
    by_cases hlt : change.rank < 4
    · obtain ⟨row', hrow', _, he⟩ := stays_apply hlt k row hrow
      exact ⟨row', hrow', he⟩
    · cases change with
      | disabled q t =>
        have hfind := Table.find?_modify db.principals q (fun r => { r with disabledAt := t })
          (fun _ => rfl) k
        by_cases hk : k = q
        · subst hk
          exact absurd ⟨row, hrow, hsome⟩ (ends_fresh h hcurrent (hdisabled k t rfl)).1
        · rw [if_neg hk, hrow] at hfind
          exact ⟨row, hfind, rfl⟩
      | _ => simp [Change.rank] at hlt hrank

/-- What a fresh step does to what has ended. -/
structure StepEnds (requests : Tid → Request) (c : RunConfig) (l : RunLabel) (c' : RunConfig) :
    Prop where
  later : Later c.world.db c'.world.db
  kept : Kept c.world.db c'.world.db
  ends : l = committed l.tid → ∀ k, (requests l.tid).command.ends = some k →
    ¬Ended k c.world.db ∧ Ended k c'.world.db

theorem step_ends (on : ∀ i, (requests i).command.principalId? = some principalId)
    (h : Run database.exec ⟨World.ofDb db₀, fun i => s.handle (requests i)⟩ tr c)
    (hs : Step database.exec c l c') (hfresh : Fresh requests tr c l c') :
    StepEnds requests c l c' := by
  have hG := step_commits h hs
  rcases hG.label_cases with ⟨hl, ⟨a, reply, change, records, hcommit⟩, hw⟩ | ⟨hl, hdb⟩
  · have hcurrent := current_of_observed (on l.tid) hcommit.does hcommit.observed (hfresh hl)
    have hdb : c'.world.db = (change.apply c.world.db).appendAudits records := by
      rw [hw, db_commit]
      exact hcommit.view
    have hlater : Later (change.apply c.world.db) c'.world.db := by
      rw [hdb]
      exact later_appendAudits records
    refine ⟨(Does.later hcommit.does).trans hlater, ?_, fun _ k hk => ?_⟩
    · rw [hdb]
      obtain ⟨hr, hd⟩ := kept_apply (on l.tid) hcommit.does hcurrent
      exact ⟨hr, hd⟩
    · obtain ⟨hnot, hended⟩ := ends_fresh hcommit.does hcurrent hk
      exact ⟨hnot, hended.later hlater⟩
  · refine ⟨?_, ?_, fun he => absurd he (hl _)⟩
    · rw [hdb]
      exact .refl _
    · rw [hdb]
      exact .refl _

theorem kept_run (on : ∀ i, (requests i).command.principalId? = some principalId)
    (h : RunWhere database.exec (Fresh requests) [] ⟨World.ofDb db₀, fun i => s.handle (requests i)⟩
      tr c) (h' : RunWhere database.exec (Fresh requests) tr c tr' c') :
    Kept c.world.db c'.world.db := by
  induction h' with
  | nil => exact .refl _
  | snoc init hs hfresh ih => exact ih.trans (step_ends on (h.trans init).run hs hfresh).kept

/-- No row is ended twice, and a committed command has ended its row. -/
theorem ends_run (on : ∀ i, (requests i).command.principalId? = some principalId)
    (h : RunWhere database.exec (Fresh requests) [] ⟨World.ofDb db₀, fun i => s.handle (requests i)⟩
      tr c) :
    (∀ i k, committed i ∈ tr → (requests i).command.ends = some k → Ended k c.world.db) ∧
      ∀ i j k, committed i ∈ tr → committed j ∈ tr → (requests i).command.ends = some k →
        (requests j).command.ends = some k → i = j := by
  induction h with
  | nil => exact ⟨by simp, by simp⟩
  | @snoc tr c l c' init hs hfresh ih =>
    obtain ⟨hended, hunique⟩ := ih
    have hstep := step_ends on init.run hs hfresh
    have hmem : ∀ i, committed i ∈ tr ++ [l] → committed i ∈ tr ∨ l = committed i := by
      intro i hi
      rw [List.mem_append, List.mem_singleton] at hi
      exact hi.imp id Eq.symm
    have htid : ∀ i, l = committed i → l.tid = i := by
      rintro i rfl
      rfl
    -- The row that the new commit ends had not ended, so no earlier one ended it.
    have hnew : ∀ i j k, committed i ∈ tr → l = committed j → (requests i).command.ends = some k →
        (requests j).command.ends = some k → False := by
      intro i j k hi hj hik hjk
      have ht := htid j hj
      subst ht
      exact (hstep.ends hj k hjk).1 (hended i k hi hik)
    refine ⟨fun i k hi hk => ?_, fun i j k hi hj hik hjk => ?_⟩
    · rcases hmem i hi with hi | hl
      · exact (hended i k hi hk).later hstep.later
      · have ht := htid i hl
        subst ht
        exact (hstep.ends hl k hk).2
    · rcases hmem i hi with hi | hi <;> rcases hmem j hj with hj | hj
      · exact hunique i j k hi hj hik hjk
      · exact (hnew i j k hi hj hik hjk).elim
      · exact (hnew j i k hj hi hjk hik).elim
      · exact (htid i hi).symm.trans (htid j hj)

theorem wrote_unique {x y : Reply} {evs evs' : List (Event (Op Sql) (Op.Res Sql.Res) Error)}
    (hP : r.command.principalId? = some principalId) (hx : r.wrote x evs) (hpre : evs <+: evs')
    (hy : r.wrote y evs') : x = y := by
  obtain ⟨rest, rfl⟩ := hpre
  unfold Request.wrote at hx hy
  generalize r.command = command at hP hx hy
  have key : evs.filterMap (written r.env) = [x] →
      (evs ++ rest).filterMap (written r.env) = [y] → x = y := by
    intro hx hy
    rw [List.filterMap_append, hx] at hy
    simp only [List.singleton_append, List.cons.injEq] at hy
    exact hy.1
  cases command with
  | createPrincipal c => cases hP
  | _ => exact key hx hy

/-- The lifecycle of one principal, whose commands all commit fresh, is serializable. -/
theorem lifecycle_serializable (s : Service) (requests : Tid → Request) (principalId : Uuid)
    (on : ∀ i, (requests i).command.principalId? = some principalId) (db₀ : Db)
    (tr : List RunLabel) (c : RunConfig)
    (h : RunWhere database.exec (Fresh requests) [] ⟨World.ofDb db₀, fun i => s.handle (requests i)⟩
      tr c) :
    (∃ order : List (Tid × Reply), (order.map Prod.fst).Nodup ∧
      (∀ i, i ∈ order.map Prod.fst ↔ committed i ∈ tr) ∧
      (∀ i reply, c.prog i = .ret reply → (i, reply) ∈ order) ∧
      let alone := database.serially ⟨false⟩ (order.map fun x => s.handle (requests x.1)) db₀
      alone.1 = order.map (fun x => .ok x.2) ∧
      alone.2.principals = c.world.db.principals ∧ alone.2.credentials = c.world.db.credentials ∧
      c.world.db.audits.Perm alone.2.audits) ∧
    (∀ i j k, committed i ∈ tr → committed j ∈ tr → (requests i).command.ends = some k →
      (requests j).command.ends = some k → i = j) ∧
    ∀ tr' c', RunWhere database.exec (Fresh requests) tr c tr' c' →
      Kept c.world.db c'.world.db := by
  refine ⟨?_, (ends_run on h).2, fun tr' c' h' => kept_run on h h'⟩
  obtain ⟨xs, hxs⟩ := serialized_run on h
  have hserial := history_serially (rfl : Choice.fails ⟨false⟩ = false) on hxs.history db₀.audits
  have hfst : (xs.map fun x => (x.tid, x.reply)).map Prod.fst = xs.map (·.tid) := by
    rw [List.map_map]
    rfl
  refine ⟨xs.map fun x => (x.tid, x.reply), hfst ▸ hxs.nodup, fun i => hfst ▸ hxs.mem i, ?_, ?_⟩
  · intro i reply hret
    obtain ⟨hwrote, hcommit⟩ := returned_answered h.run hret
    obtain ⟨x, hx, rfl⟩ := List.mem_map.mp ((hxs.mem i).mpr (mem_own.mp hcommit))
    obtain ⟨evs, hpre, hw⟩ := hxs.wrote x hx
    have hreply : x.reply = reply := wrote_unique (on x.tid) hw hpre hwrote
    exact List.mem_map.mpr ⟨x, hx, by rw [hreply]⟩
  · have hmap : ((xs.map fun x => (x.tid, x.reply)).map fun x => s.handle (requests x.1)) =
        xs.map fun x => s.handle (requests x.tid) := by
      rw [List.map_map]
      rfl
    intro alone
    have halone : alone = (xs.map fun x => Except.ok x.reply,
        (c.world.db.withAudits db₀.audits).withAudits
          (db₀.audits ++ xs.flatMap (·.records))) := by
      rw [← hserial, ← hmap]
      rfl
    rw [halone, List.map_map]
    exact ⟨rfl, rfl, rfl, hxs.audits⟩

end Ends

/-! ## Two commands on one principal -/

/-- Whether the event is a read of a row that is not the stored one any more. -/
def Request.stale (r : Request) (db : Db) (e : Event (Op Sql) (Op.Res Sql.Res) Error) : Bool :=
  match e with
  | ⟨.sql (.principalsGet k), .ok found⟩ =>
      match r.command with
      | .initializeUsageLimits c => k = c.principalId && db.getPrincipal k ≠ found
      | .disablePrincipal c => k = c.principalId && db.getPrincipal k ≠ found
      | _ => false
  | ⟨.sql (.credentialsGet k), .ok found⟩ =>
      match r.command with
      | .revokeCredential c => k = c.credentialId && db.getCredential k ≠ found
      | _ => false
  | _ => false

theorem readsCurrent_of_stale {r : Request} {db : Db}
    {evs : List (Event (Op Sql) (Op.Res Sql.Res) Error)}
    (h : (evs.all fun e => !r.stale db e) = true) : r.ReadsCurrent evs db := by
  rw [List.all_eq_true] at h
  unfold Request.ReadsCurrent
  split
  · next c hr =>
    intro found hm
    simpa [Request.stale, hr] using h _ hm
  · next c hr =>
    intro found hm
    simpa [Request.stale, hr] using h _ hm
  · next c hr =>
    intro found hm
    simpa [Request.stale, hr] using h _ hm
  · trivial

def freshTest (requests : Tid → Request) (tr : List RunLabel) (c : RunConfig) (l : RunLabel) : Bool :=
  !isCommit l.tid l || (own l.tid tr).all fun e => !(requests l.tid).stale c.world.db e

theorem fresh_of_test {requests : Tid → Request} (tr : List RunLabel) (c : RunConfig) (l : RunLabel)
    (c' : RunConfig) (h : freshTest requests tr c l = true) : Fresh requests tr c l c' := by
  intro hl
  have hcommit : isCommit l.tid l = true := by
    rw [hl]
    simp [isCommit, committed]
  rw [freshTest, hcommit] at h
  exact readsCurrent_of_stale h

def exampleService : Service := ⟨"pepper", fun _ _ => zeroDigest, fun _ => zeroDigest⟩

def envAt (now : Utc) (credentialId : Uuid) : Env := ⟨now, 0, credentialId, 98, 99, "secret", none⟩

def manager : RuntimeIdentityActor := ⟨9, true⟩

def principalRow (principalId : Uuid) : RuntimePrincipalRow where
  principalId := principalId
  tenantId := 5
  agentId := 6
  createdAt := 0
  disabledAt := none
  dailyUsageLimitUnits := none
  perInvocationAllowanceUnits := none
  legacyRuntimePrincipalId := none
  identityContinuityBoundAt := none
  limits_together := rfl
  limits_positive := rfl
  legacy_stripped := rfl
  legacy_fits := rfl
  continuity_together := rfl

def credentialRow (credentialId principalId : Uuid) : RuntimeCredentialRow where
  credentialId := credentialId
  principalId := principalId
  secretVerifier := zeros
  label := none
  createdAt := 0
  expiresAt := none
  revokedAt := none
  label_canonical := canonicalLabel_none
  label_fits := labelFits_none
  verifier_hex := isHexDigest_zeros
  expires_later := by simp

/-- Principal 1 with credential 11. -/
def onePrincipal : Db where
  principals := Table.empty.insert (principalRow 1)
  credentials := Table.empty.insert (credentialRow 11 1)
  agents := {(5, 6)}
  invocations := []
  audits := []

/-- The thread takes `n` steps. -/
def steps (i : Tid) (n : Nat) : List (Tid × Choice) := List.replicate n (i, ⟨false⟩)

/-- The thread has returned. -/
def returned (i : Tid) (c : RunConfig) : Bool :=
  match c.prog i with
  | .ret _ => true
  | _ => false

/-- Every thread revokes credential 11, at a time of its own. -/
def revokingRequests (i : Tid) : Request :=
  ⟨.revokeCredential ⟨manager, 1, 11⟩, envAt (if i = 0 then 1 else 2) 0⟩

/-- Both read the credential before either revokes it: both revoke it, and the second
    changes the time of the revocation. -/
theorem credential_revoked_twice : ∃ tr c,
    Run database.exec ⟨World.ofDb onePrincipal, fun i => exampleService.handle (revokingRequests i)⟩
      tr c ∧ committed 0 ∈ tr ∧ committed 1 ∈ tr ∧ returned 0 c ∧ returned 1 c ∧
      ∀ i, (revokingRequests i).command.ends = some (.credential 11) := by
  obtain ⟨tr, c, hrun, ht⟩ := schedule_any database.exec
    ⟨World.ofDb onePrincipal, fun i => exampleService.handle (revokingRequests i)⟩
    (steps 0 2 ++ steps 1 2 ++ steps 0 4 ++ steps 1 4)
    (fun (tr, c) => tr.any (isCommit 0) && tr.any (isCommit 1) && returned 0 c && returned 1 c)
    (by decide +kernel)
  simp only [Bool.and_eq_true, List.any_eq_true] at ht
  obtain ⟨⟨⟨⟨l₀, hl₀, h₀⟩, l₁, hl₁, h₁⟩, hr₀⟩, hr₁⟩ := ht
  exact ⟨tr, c, hrun, eq_committed h₀ ▸ hl₀, eq_committed h₁ ▸ hl₁, hr₀, hr₁, fun _ => rfl⟩

/-- Credential 12 is issued on principal 1, which is disabled before that commits. -/
def endingRequests : Tid → Request
  | 0 => ⟨.issueCredential ⟨manager, 1, none, none⟩, envAt 1 12⟩
  | _ => ⟨.disablePrincipal ⟨manager, 1⟩, envAt 2 0⟩

theorem lifecycle_serializable_ending : ∃ tr c,
    RunWhere database.exec (Fresh endingRequests) []
      ⟨World.ofDb onePrincipal, fun i => exampleService.handle (endingRequests i)⟩ tr c ∧
    committed 0 ∈ tr ∧ committed 1 ∈ tr ∧
    (∀ tr' c', RunWhere database.exec (Fresh endingRequests) tr c tr' c' →
      Kept c.world.db c'.world.db) := by
  obtain ⟨tr, c, hrun, ht⟩ : ∃ tr c, RunWhere database.exec (Fresh endingRequests) []
      ⟨World.ofDb onePrincipal, fun i => exampleService.handle (endingRequests i)⟩ tr c ∧
      (tr.any (isCommit 0) && tr.any (isCommit 1)) = true :=
    scheduleWhere_any fresh_of_test [] _ (steps 0 2 ++ steps 1 5 ++ steps 0 3)
      (fun (tr, _) => tr.any (isCommit 0) && tr.any (isCommit 1)) (by decide +kernel)
  simp only [Bool.and_eq_true, List.any_eq_true] at ht
  obtain ⟨⟨l₀, hl₀, h₀⟩, l₁, hl₁, h₁⟩ := ht
  have on : ∀ i, (endingRequests i).command.principalId? = some 1 := by
    intro i
    unfold endingRequests
    split <;> rfl
  exact ⟨tr, c, hrun, eq_committed h₀ ▸ hl₀, eq_committed h₁ ▸ hl₁,
    (lifecycle_serializable exampleService endingRequests 1 on onePrincipal tr c hrun).2.2⟩

end Valor.RuntimeIdentity
