/-
  Continuity identities: no two principals share one.

  An invocation belongs to a principal by its runtime principal id, which is one of the
  principal's continuity identities: the text of its UUID, or the legacy identity that was
  bound to it. The unique index keeps legacy identities apart from each other, but nothing
  keeps a legacy identity apart from the UUIDs of other principals. That is all that is
  missing: `disjoint_iff` says exactly which commits keep the identities apart.
-/
import Valor.RuntimeIdentity.Lifecycle

namespace Valor.RuntimeIdentity

open Python Postgres ManagementAudit Prog Interleave ReadCommitted

/-! ## Sets of names -/

/-- Pairwise disjoint sets stay so if one of them changes exactly if the new one is disjoint
    from the others. -/
theorem pairwise_disjoint_update {K N : Type} [DecidableEq K] [DecidableEq N] {names : K → Finset N}
    (h : Pairwise fun j k => Disjoint (names j) (names k)) (k : K) (new : Finset N) :
    (Pairwise fun i j => Disjoint (Function.update names k new i) (Function.update names k new j)) ↔
      ∀ j ≠ k, Disjoint (names j) new := by
  constructor
  · intro hnew j hj
    have hjk : Disjoint (Function.update names k new j) (Function.update names k new k) := hnew hj
    rwa [Function.update_of_ne hj, Function.update_self] at hjk
  · intro hnew i j hij
    show Disjoint (Function.update names k new i) (Function.update names k new j)
    by_cases hi : i = k
    · have hj : j ≠ k := fun hj => hij (hi.trans hj.symm)
      rw [hi, Function.update_self, Function.update_of_ne hj]
      exact (hnew j hj).symm
    · rw [Function.update_of_ne hi]
      by_cases hj : j = k
      · rw [hj, Function.update_self]
        exact hnew i hi
      · rw [Function.update_of_ne hj]
        exact h hij

/-! ## Identities -/

/-- The continuity identities of a stored principal. -/
def Db.identityIds (db : Db) (principalId : Uuid) : Finset String :=
  ((db.getPrincipal principalId).map (·.continuityIdentityIds)).getD ∅

section Identities

variable {db : Db} {k : Uuid} {x legacyId : String} {row values : RuntimePrincipalRow}

theorem mem_identityIds : x ∈ db.identityIds k ↔
    ∃ row, db.principals.find? k = some row ∧
      (x = k.str ∨ row.legacyRuntimePrincipalId = some x) := by
  unfold Db.identityIds Db.getPrincipal
  cases hrow : db.principals.find? k with
  | none => simp
  | some row =>
    obtain rfl : row.principalId = k := (Table.find?_some hrow).2
    simp [RuntimePrincipal.continuityIdentityIds, principalFromRow]

theorem legacy_of_claimed_false (h : db.claimed legacyId = false)
    (hrow : db.principals.find? k = some row) : row.legacyRuntimePrincipalId ≠ some legacyId := by
  intro hl
  have htrue := claimed_iff.mpr ⟨row, (Table.find?_some hrow).1, hl⟩
  rw [h] at htrue
  cases htrue

theorem identityIds_insertPrincipal (hfree : db.principals.find? row.principalId = none)
    (hlegacy : row.legacyRuntimePrincipalId = none) :
    (db.insertPrincipal row).identityIds =
      Function.update db.identityIds row.principalId {row.principalId.str} := by
  funext j
  have hfind : (db.insertPrincipal row).principals.find? j = _ := Table.find?_insert _ row j
  ext x
  rw [mem_identityIds, hfind]
  by_cases hj : j = row.principalId
  · subst hj
    rw [hfree, Function.update_self]
    simp [Keyed.key, hlegacy]
  · have hne : Keyed.key row ≠ j := fun he => hj he.symm
    rw [Function.update_of_ne hj, mem_identityIds]
    cases hrow : db.principals.find? j <;> simp [hne]

theorem identityIds_bindIdentityContinuity (hm : db.matches values.principalId (·.unbound) = true)
    (hlegacy : values.legacyRuntimePrincipalId = some legacyId) :
    (db.bindIdentityContinuity values).identityIds =
      Function.update db.identityIds values.principalId {values.principalId.str, legacyId} := by
  obtain ⟨row, hrow, hunbound⟩ := (Option.any_eq_true ..).mp hm
  funext j
  have hfind : (db.bindIdentityContinuity values).principals.find? j = _ :=
    Table.find?_modify db.principals _ _ (fun r => by split <;> rfl) j
  ext x
  rw [mem_identityIds, hfind]
  by_cases hj : j = values.principalId
  · subst hj
    rw [hrow, Function.update_self]
    simp [hunbound, RuntimePrincipalRow.setContinuity, hlegacy, eq_comm (a := x)]
  · rw [Function.update_of_ne hj, mem_identityIds]
    cases hrow : db.principals.find? j <;> simp [hj]

/-- A change of principals that keeps their legacy identities. -/
theorem identityIds_modify {f : RuntimePrincipalRow → RuntimePrincipalRow}
    {hf : ∀ r, Keyed.key (f r) = Keyed.key r}
    (h : ∀ r, (f r).legacyRuntimePrincipalId = r.legacyRuntimePrincipalId) :
    Db.identityIds { db with principals := db.principals.modify k f hf } = db.identityIds := by
  funext j
  have hfind := Table.find?_modify db.principals k f hf j
  ext x
  rw [mem_identityIds, mem_identityIds]
  show (∃ row, (db.principals.modify k f hf).find? j = some row ∧ _) ↔ _
  rw [hfind]
  cases hrow : db.principals.find? j with
  | none => simp
  | some row =>
    by_cases hj : j = k <;> simp [hj, h]

theorem identityIds_initializeUsageLimits :
    (db.initializeUsageLimits values).identityIds = db.identityIds :=
  identityIds_modify fun r => by split <;> rfl

theorem identityIds_disablePrincipal {disabledAt : Option Utc} :
    (db.disablePrincipal k disabledAt).identityIds = db.identityIds :=
  identityIds_modify fun _ => rfl

end Identities

/-! ## Commits that keep them apart -/

/-- No two principals share an identity. -/
def Db.IdentitiesDisjoint (db : Db) : Prop :=
  Pairwise fun j k => Disjoint (db.identityIds j) (db.identityIds k)

/-- The request, committing on `db`, gives no identity to its principal that another one has:
    the new UUID is no legacy identity, the new legacy identity no UUID of another. -/
def Request.KeepsApart (r : Request) (db : Db) : Prop :=
  match r.command with
  | .createPrincipal _ => db.claimed r.env.principalId.str = false
  | .bindIdentityContinuity c => ∀ row ∈ db.principals, row.principalId ≠ c.principalId →
      row.principalId.str ≠ strip c.legacyRuntimePrincipalId
  | _ => True

section Commits

variable {s : Service} {r : Request} {a : Answers} {db : Db} {reply : Reply} {change : Change}
  {records : List Record}

/-- The UUID of a new principal is apart from the other identities if it is no legacy one. -/
theorem disjoint_created {k : Uuid} :
    (∀ j ≠ k, Disjoint (db.identityIds j) {k.str}) ↔
      ∀ j ≠ k, ∀ row, db.principals.find? j = some row →
        row.legacyRuntimePrincipalId ≠ some k.str := by
  refine forall₂_congr fun j hj => ?_
  rw [Finset.disjoint_singleton_right, mem_identityIds]
  constructor
  · intro h row hrow hl
    exact h ⟨row, hrow, .inr hl⟩
  · rintro h ⟨row, hrow, hstr | hl⟩
    · exact hj (Uuid.str_injective hstr).symm
    · exact h row hrow hl

/-- A committed command keeps the identities of the principals disjoint exactly if it keeps
    them apart. -/
theorem Does.disjoint_iff (h : Does s r.env a db r.command reply change records)
    (hfound : ∀ c, r.command = .bindIdentityContinuity c → a.principal = db.getPrincipal c.principalId)
    (hdb : db.IdentitiesDisjoint) : (change.apply db).IdentitiesDisjoint ↔ r.KeepsApart db := by
  generalize hr : r.command = command at h
  unfold Request.KeepsApart
  rw [hr]
  cases h with
  | @created c principal credential row crow _ _ _ _ _ created_ok _ row_ok _ _ _ free _ =>
    obtain ⟨hid, hlegacy⟩ := create_ok created_ok
    obtain ⟨hrid, hrlegacy⟩ := ofPrincipal_ok row_ok
    have identified : row.principalId = r.env.principalId := hrid.trans hid
    have unclaimed : row.legacyRuntimePrincipalId = none := hrlegacy.trans hlegacy
    rw [← hrid] at free
    show Db.IdentitiesDisjoint (Db.insertCredential (db.insertPrincipal row) crow) ↔ _
    have hids : (Db.insertCredential (db.insertPrincipal row) crow).identityIds =
        Function.update db.identityIds row.principalId {row.principalId.str} :=
      identityIds_insertPrincipal free unclaimed
    rw [Db.IdentitiesDisjoint, hids, pairwise_disjoint_update hdb, disjoint_created, ← identified]
    constructor
    · intro hapart
      by_contra hclaimed
      obtain ⟨other, hmem, hl⟩ := claimed_iff.mp (by simpa using hclaimed)
      have hother := Table.mem_iff_find?.mp hmem
      refine hapart other.principalId (fun he => ?_) other hother hl
      rw [show Keyed.key other = row.principalId from he, free] at hother
      cases hother
    · intro hclaimed j _ other hother
      exact legacy_of_claimed_false hclaimed hother
  | @bound c principal dayEnd bound row record _ found _ unready _ _ _ bound_ok row_ok _ matched
      unclaimed =>
    obtain ⟨hid, hlegacy⟩ := bindIdentityContinuity_ok bound_ok
    obtain ⟨hrid, hrlegacy⟩ := ofPrincipal_ok row_ok
    obtain ⟨stored, hstored, hkey, rfl⟩ := getPrincipal_some ((hfound c hr).symm.trans found)
    have hk : row.principalId = c.principalId := (hrid.trans hid).trans hkey
    have hids : (db.bindIdentityContinuity row).identityIds =
        Function.update db.identityIds c.principalId
          {c.principalId.str, strip c.legacyRuntimePrincipalId} := by
      rw [← hk]
      exact identityIds_bindIdentityContinuity (hrid ▸ matched) (hrlegacy.trans hlegacy)
    show (db.bindIdentityContinuity row).IdentitiesDisjoint ↔ _
    rw [Db.IdentitiesDisjoint, hids, pairwise_disjoint_update hdb]
    constructor
    · intro hapart other hmem hne hstr
      refine Finset.disjoint_left.mp (hapart other.principalId hne) (?_ : other.principalId.str ∈ _) ?_
      · exact mem_identityIds.mpr ⟨other, Table.mem_iff_find?.mp hmem, .inl rfl⟩
      · rw [hstr]
        simp
    · intro hapart j hj
      rw [Finset.disjoint_right]
      intro x hx hmem
      obtain ⟨other, hother, hown⟩ := mem_identityIds.mp hmem
      obtain ⟨hin, rfl⟩ := Table.find?_some hother
      rcases Finset.mem_insert.mp hx with rfl | hx
      · -- the principal itself, which had its UUID before
        refine Finset.disjoint_left.mp (hdb hj) hmem ?_
        exact mem_identityIds.mpr ⟨stored, hstored, .inl rfl⟩
      · obtain rfl := Finset.mem_singleton.mp hx
        rcases hown with hstr | hl
        · exact hapart other hin hj hstr.symm
        · exact legacy_of_claimed_false unclaimed hother hl
  | @initialized c principal configured row _ _ _ _ _ _ _ _ _ =>
    refine iff_of_true ?_ trivial
    show (db.initializeUsageLimits row).IdentitiesDisjoint
    rw [Db.IdentitiesDisjoint, identityIds_initializeUsageLimits]
    exact hdb
  | issued => exact iff_of_true hdb trivial
  | revoked => exact iff_of_true hdb trivial
  | disabled =>
    refine iff_of_true ?_ trivial
    show (db.disablePrincipal _ _).IdentitiesDisjoint
    rw [Db.IdentitiesDisjoint, identityIds_disablePrincipal]
    exact hdb

end Commits

/-! ## Runs -/

/-- No two principals share an identity, so none share an invocation that
    `continuity_usage_total` counts, whatever the windows. -/
structure Db.IdentitiesApart (db : Db) : Prop where
  disjoint : ∀ j k p q, j ≠ k → db.getPrincipal j = some p → db.getPrincipal k = some q →
    Disjoint p.continuityIdentityIds q.continuityIdentityIds
  counted : ∀ j k p q, j ≠ k → db.getPrincipal j = some p → db.getPrincipal k = some q →
    ∀ start stop start' stop' row, row ∈ db.consumedRows p.continuityIdentityIds start stop →
      row ∉ db.consumedRows q.continuityIdentityIds start' stop'

/-- A commit keeps the identities apart. -/
def CommitsApart (requests : Tid → Request) (_ : List RunLabel) (c : RunConfig) (l : RunLabel)
    (_ : RunConfig) : Prop :=
  l = committed l.tid → (requests l.tid).KeepsApart c.world.db

/-- The step leads to a state whose identities are apart. -/
def ReachesApart (_ : List RunLabel) (_ : RunConfig) (_ : RunLabel) (c' : RunConfig) : Prop :=
  c'.world.db.IdentitiesApart

section Runs

variable {s : Service} {requests : Tid → Request} {db db₀ : Db} {tr : List RunLabel}
  {c c' : RunConfig} {l : RunLabel}

theorem runtimePrincipalId_of_mem {ids : Finset String} {start stop : Utc} {row : InvocationRow}
    (h : row ∈ db.consumedRows ids start stop) : row.runtimePrincipalId ∈ ids := by
  have hpred := (List.mem_filter.mp h).2
  simp only [Bool.and_eq_true, decide_eq_true_eq] at hpred
  exact hpred.1.1.1

theorem identitiesApart_iff : db.IdentitiesApart ↔ db.IdentitiesDisjoint := by
  constructor
  · intro h j k hjk
    cases hj : db.getPrincipal j with
    | none => simp [Db.identityIds, hj]
    | some p =>
      cases hk : db.getPrincipal k with
      | none => simp [Db.identityIds, hk]
      | some q => simpa [Db.identityIds, hj, hk] using h.disjoint j k p q hjk hj hk
  · intro h
    have hdisjoint : ∀ j k p q, j ≠ k → db.getPrincipal j = some p → db.getPrincipal k = some q →
        Disjoint p.continuityIdentityIds q.continuityIdentityIds := by
      intro j k p q hjk hj hk
      simpa [Db.identityIds, hj, hk] using h hjk
    refine ⟨hdisjoint, fun j k p q hjk hj hk start stop start' stop' row hrow hrow' => ?_⟩
    exact Finset.disjoint_left.mp (hdisjoint j k p q hjk hj hk) (runtimePrincipalId_of_mem hrow)
      (runtimePrincipalId_of_mem hrow')

theorem identitiesDisjoint_start (agents : Finset (Uuid × Uuid)) (invocations : List InvocationRow) :
    (Db.start agents invocations).IdentitiesDisjoint := by
  intro j k _
  simp [Db.identityIds, Db.getPrincipal, Db.start]

/-- One step: the identities stay disjoint exactly if a commit keeps them apart. -/
theorem step_disjoint_iff
    (h : Run database.exec ⟨World.ofDb db₀, fun i => s.handle (requests i)⟩ tr c)
    (hs : Step database.exec c l c') (hdb : c.world.db.IdentitiesDisjoint) :
    c'.world.db.IdentitiesDisjoint ↔ CommitsApart requests tr c l c' := by
  rcases (step_commits h hs).label_cases with
    ⟨hl, ⟨a, reply, change, records, hcommit⟩, hw⟩ | ⟨hl, hsame⟩
  · have hview : c'.world.db = (change.apply c.world.db).appendAudits records := by
      rw [hw, db_commit]
      exact hcommit.view
    have hread : ∀ d, (requests l.tid).command = .bindIdentityContinuity d →
        a.principal = c.world.db.getPrincipal d.principalId := by
      intro d hd
      have hr := hcommit.observed.read
      rw [hd] at hr
      exact hr
    have hiff : (change.apply c.world.db).IdentitiesDisjoint ↔
        (requests l.tid).KeepsApart c.world.db := Does.disjoint_iff hcommit.does hread hdb
    rw [hview]
    exact hiff.trans ⟨fun hk _ => hk, fun hk => hk hl⟩
  · rw [hsame]
    exact iff_of_true hdb fun he => absurd he (hl _)

/-- In a run from the empty store, all reached states keep the identities of any two principals
    apart exactly if all commits do. -/
theorem identities_apart_iff (s : Service) (requests : Tid → Request)
    (agents : Finset (Uuid × Uuid)) (invocations : List InvocationRow) (tr : List RunLabel)
    (c : RunConfig) :
    RunWhere database.exec ReachesApart []
        ⟨World.ofDb (Db.start agents invocations), fun i => s.handle (requests i)⟩ tr c ↔
      RunWhere database.exec (CommitsApart requests) []
        ⟨World.ofDb (Db.start agents invocations), fun i => s.handle (requests i)⟩ tr c := by
  constructor
  · intro h
    suffices hboth : RunWhere database.exec (CommitsApart requests) []
        ⟨World.ofDb (Db.start agents invocations), fun i => s.handle (requests i)⟩ tr c ∧
        c.world.db.IdentitiesDisjoint from hboth.1
    induction h with
    | nil => exact ⟨.nil, identitiesDisjoint_start agents invocations⟩
    | snoc init hs hreaches ih =>
      obtain ⟨hrun, hdb⟩ := ih
      have hnext := identitiesApart_iff.mp hreaches
      exact ⟨hrun.snoc hs ((step_disjoint_iff init.run hs hdb).mp hnext), hnext⟩
  · intro h
    suffices hboth : RunWhere database.exec ReachesApart []
        ⟨World.ofDb (Db.start agents invocations), fun i => s.handle (requests i)⟩ tr c ∧
        c.world.db.IdentitiesDisjoint from hboth.1
    induction h with
    | nil => exact ⟨.nil, identitiesDisjoint_start agents invocations⟩
    | snoc init hs hcommits ih =>
      obtain ⟨hrun, hdb⟩ := ih
      have hnext := (step_disjoint_iff init.run hs hdb).mpr hcommits
      exact ⟨hrun.snoc hs (identitiesApart_iff.mpr hnext), hnext⟩

end Runs

/-! ## A legacy identity that is the UUID of another principal -/

/-- The static configuration names principal 1 by its UUID. -/
def namingSettings : Settings.RuntimeAuthenticationSettings where
  principals := [{
    principalId := (1 : Uuid).str
    tenantId := 5
    agentId := 6
    credential := "fedcba9876543210fedcba9876543210"
    usageLimit := 10
    perInvocationAllowance := 1
    principalId_stripped := by decide +kernel
    principalId_length := by decide +kernel
    credential_length := by decide +kernel
    usageLimit_pos := by decide
    perInvocationAllowance_pos := by decide
    allowance_fits_limit := by decide }]
  principalIds_unique := by decide
  credentials_unique := by decide
  bindings_unique := by decide

/-- Principals 1 and 2 are created, then 2 is bound to the UUID of 1. -/
def namingRequests : Tid → Request
  | 0 => ⟨.createPrincipal ⟨manager, 5, 6, 10, 1, none, none⟩,
      { envAt 1 11 with principalId := 1 }⟩
  | 1 => ⟨.createPrincipal ⟨manager, 5, 6, 10, 1, none, none⟩,
      { envAt 2 12 with principalId := 2 }⟩
  | _ => ⟨.bindIdentityContinuity ⟨manager, 2, (1 : Uuid).str⟩,
      { envAt 3 0 with legacyConfigurations := some namingSettings }⟩

/-- An invocation of principal 1. -/
def invocationOfOne : InvocationRow := ⟨(1 : Uuid).str, 5, 6, 0, some 7⟩

/-- The usage that is counted for a stored principal on the first day. -/
def usageOf (db : Db) (principalId : Uuid) : Option Int :=
  (db.getPrincipal principalId).map fun p =>
    db.consumedTotalUnits p.continuityIdentityIds 0 86400000000

/-- One after another, all three commands succeed, and then the invocation of principal 1
    is counted for principal 2 as well. -/
theorem invocation_counted_twice : ∃ tr c p q,
    Run database.exec ⟨World.ofDb (Db.start {(5, 6)} [invocationOfOne]),
      fun i => exampleService.handle (namingRequests i)⟩ tr c ∧
    c.world.db.getPrincipal 1 = some p ∧ c.world.db.getPrincipal 2 = some q ∧
    ¬Disjoint p.continuityIdentityIds q.continuityIdentityIds ∧
    usageOf c.world.db 1 = some 7 ∧ usageOf c.world.db 2 = some 7 := by
  obtain ⟨tr, c, hrun, ht⟩ := schedule_any database.exec
    ⟨World.ofDb (Db.start {(5, 6)} [invocationOfOne]),
      fun i => exampleService.handle (namingRequests i)⟩
    (steps 0 7 ++ steps 1 7 ++ steps 2 10)
    (fun (_, c) => usageOf c.world.db 1 = some 7 && usageOf c.world.db 2 = some 7 &&
      !decide (Disjoint (c.world.db.identityIds 1) (c.world.db.identityIds 2)))
    (by decide +kernel)
  simp only [Bool.and_eq_true, decide_eq_true_eq, Bool.not_eq_true', decide_eq_false_iff_not] at ht
  obtain ⟨⟨h₁, h₂⟩, hids⟩ := ht
  obtain ⟨p, hp, _⟩ := Option.map_eq_some_iff.mp h₁
  obtain ⟨q, hq, _⟩ := Option.map_eq_some_iff.mp h₂
  refine ⟨tr, c, p, q, hrun, hp, hq, ?_, h₁, h₂⟩
  simpa [Db.identityIds, hp, hq] using hids

end Valor.RuntimeIdentity
