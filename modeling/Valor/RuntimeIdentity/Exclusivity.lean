/-
  Claims are exclusive and permanent.

  In every run a legacy identity is bound to at most one principal, and what is bound stays as
  it is. Among claims there is no deadlock. Of those that compete for one legacy identity, or
  for one principal, one commits, and the others raise the conflict, exactly if they name one
  principal, or the legacy identity is stripped as they name it (`claims_exclusive`).
-/
import Valor.RuntimeIdentity.Claims
import Valor.RuntimeIdentity.Lifecycle

namespace Valor.RuntimeIdentity

open Python Postgres ManagementAudit Prog Interleave ReadCommitted

/-! ## Any commands -/

/-- No legacy identity is bound to two principals, and no principal to two. -/
structure Db.Exclusive (db : Db) : Prop where
  legacy : ∀ r ∈ db.principals, ∀ r' ∈ db.principals, ∀ l, r.legacyRuntimePrincipalId = some l →
    r'.legacyRuntimePrincipalId = some l → r.principalId = r'.principalId
  principal : ∀ r ∈ db.principals, ∀ r' ∈ db.principals, r.principalId = r'.principalId →
    r.legacyRuntimePrincipalId = r'.legacyRuntimePrincipalId

/-- A committed legacy identity and its time of binding are the same in a later database. -/
def ContinuityKept (db db' : Db) : Prop :=
  ∀ k row, db.principals.find? k = some row → row.legacyRuntimePrincipalId.isSome →
    ∃ row', db'.principals.find? k = some row' ∧
      row'.legacyRuntimePrincipalId = row.legacyRuntimePrincipalId ∧
      row'.identityContinuityBoundAt = row.identityContinuityBoundAt

section Rows

variable {db : Db} {r values : RuntimePrincipalRow} {k : Uuid}

theorem exclusive_of_legacy (h : ∀ r ∈ db.principals, ∀ r' ∈ db.principals, ∀ l,
    r.legacyRuntimePrincipalId = some l → r'.legacyRuntimePrincipalId = some l →
      r.principalId = r'.principalId) : db.Exclusive :=
  ⟨h, fun r hr r' hr' hid => by rw [Table.eq_of_key hr hr' hid]⟩

/-- A row after the UPDATE is as it was, or is the one that is bound. -/
theorem mem_bindIdentityContinuity (h : r ∈ (db.bindIdentityContinuity values).principals) :
    r ∈ db.principals ∨ (r.principalId = values.principalId ∧
      r.legacyRuntimePrincipalId = values.legacyRuntimePrincipalId) := by
  obtain ⟨q, hq, rfl⟩ := (Table.mem_modify fun r => by split <;> rfl).mp h
  by_cases hk : Keyed.key q = values.principalId
  · rw [if_pos hk]
    by_cases hu : q.unbound = true
    · rw [if_pos hu]
      exact .inr ⟨hk, rfl⟩
    · rw [if_neg hu]
      exact .inl hq
  · rw [if_neg hk]
    exact .inl hq

theorem exclusive_bindIdentityContinuity {l : String} (h : db.Exclusive)
    (hlegacy : values.legacyRuntimePrincipalId = some l) (hfree : db.claimed l = false) :
    (db.bindIdentityContinuity values).Exclusive := by
  have hnone : ∀ r ∈ db.principals, r.legacyRuntimePrincipalId ≠ some l := by
    intro r hr hl
    have htrue := claimed_iff.mpr ⟨r, hr, hl⟩
    rw [hfree] at htrue
    cases htrue
  refine exclusive_of_legacy fun r hr r' hr' x hx hx' => ?_
  rcases mem_bindIdentityContinuity hr with hr | ⟨hid, hl⟩ <;>
    rcases mem_bindIdentityContinuity hr' with hr' | ⟨hid', hl'⟩
  · exact h.legacy r hr r' hr' x hx hx'
  · obtain rfl : x = l := Option.some.inj (hx'.symm.trans (hl'.trans hlegacy))
    exact absurd hx (hnone r hr)
  · obtain rfl : x = l := Option.some.inj (hx.symm.trans (hl.trans hlegacy))
    exact absurd hx' (hnone r' hr')
  · exact hid.trans hid'.symm

/-- A change of principals that keeps their legacy identities. -/
theorem exclusive_modify {f : RuntimePrincipalRow → RuntimePrincipalRow}
    {hf : ∀ r, Keyed.key (f r) = Keyed.key r} (h : db.Exclusive)
    (hlegacy : ∀ r, (f r).legacyRuntimePrincipalId = r.legacyRuntimePrincipalId) :
    ({ db with principals := db.principals.modify k f hf } : Db).Exclusive := by
  have hold : ∀ r ∈ db.principals.modify k f hf, ∃ q ∈ db.principals, q.principalId = r.principalId ∧
      q.legacyRuntimePrincipalId = r.legacyRuntimePrincipalId := by
    intro r hr
    obtain ⟨q, hq, rfl⟩ := (Table.mem_modify hf).mp hr
    refine ⟨q, hq, ?_⟩
    split
    · exact ⟨(hf q).symm, (hlegacy q).symm⟩
    · exact ⟨rfl, rfl⟩
  refine exclusive_of_legacy fun r hr r' hr' x hx hx' => ?_
  obtain ⟨q, hq, hid, hl⟩ := hold r hr
  obtain ⟨q', hq', hid', hl'⟩ := hold r' hr'
  rw [← hid, ← hid']
  exact h.legacy q hq q' hq' x (hl.trans hx) (hl'.trans hx')

theorem Does.exclusive {s : Service} {env : Env} {a : Answers} {command : Command} {reply : Reply}
    {change : Change} {records : List Record} (hdoes : Does s env a db command reply change records)
    (h : db.Exclusive) : (change.apply db).Exclusive := by
  cases hdoes with
  | @created _ _ _ row _ _ _ _ _ _ created_ok _ row_ok =>
    have hnone : row.legacyRuntimePrincipalId = none := (ofPrincipal_ok row_ok).2.trans (create_ok created_ok).2
    refine exclusive_of_legacy fun r hr r' hr' x hx hx' => ?_
    rcases Table.mem_insert.mp hr with hr | ⟨rfl, _⟩
    · rcases Table.mem_insert.mp hr' with hr' | ⟨rfl, _⟩
      · exact h.legacy r hr r' hr' x hx hx'
      · rw [hnone] at hx'
        cases hx'
    · rw [hnone] at hx
      cases hx
  | bound _ _ _ _ _ _ _ bound_ok row_ok _ _ unclaimed =>
    exact exclusive_bindIdentityContinuity h
      ((ofPrincipal_ok row_ok).2.trans (bindIdentityContinuity_ok bound_ok).2) unclaimed
  | initialized => exact exclusive_modify h fun r => by split <;> rfl
  | issued => exact ⟨h.legacy, h.principal⟩
  | revoked => exact ⟨h.legacy, h.principal⟩
  | disabled => exact exclusive_modify h fun _ => rfl

end Rows

section AnyRuns

variable {s : Service} {requests : Tid → Request} {db₀ : Db} {tr tr' : List RunLabel} {c c' : RunConfig}

theorem Later.continuityKept {db db' : Db} (h : Later db db') : ContinuityKept db db' := by
  intro k row hrow hsome
  obtain ⟨row', hrow', hlater⟩ := h.principals k row hrow
  exact ⟨row', hrow', hlater.continuity hsome⟩

theorem run_exclusive (h : Run database.exec ⟨World.ofDb db₀, fun i => s.handle (requests i)⟩ tr c)
    (h₀ : db₀.Exclusive) : c.world.db.Exclusive :=
  run_preserves (fun _ _ _ _ _ _ hdoes h => Does.exclusive hdoes h)
    (fun _ _ h => ⟨h.legacy, h.principal⟩) h₀ h

theorem run_continuityKept
    (h : Run database.exec ⟨World.ofDb db₀, fun i => s.handle (requests i)⟩ tr c)
    (h' : Run database.exec c tr' c') : ContinuityKept c.world.db c'.world.db := by
  suffices hlater : Later c.world.db c'.world.db from hlater.continuityKept
  induction h' with
  | nil => exact .refl _
  | snoc init hs ih =>
    exact ih.trans ((step_commits (h.append init) hs).rel .refl fun hmet => hmet.disciplined.grows)

end AnyRuns

/-! ## Claims -/

/-- A run of claims. -/
abbrev ClaimRun (fails : Choice → Bool) (s : Service) (claims : Tid → ContinuityClaim) (db₀ : Db)
    (tr : List RunLabel) (c : RunConfig) : Prop :=
  Run (faulty fails).exec ⟨World.ofDb db₀, fun i => s.handle (claims i).request⟩ tr c

/-- What the claims that have committed have done. -/
structure Claimed (claims : Tid → ContinuityClaim) (db₀ : Db) (tr : List RunLabel) (db : Db) : Prop where
  binds : Binds db₀ db
  origin : ∀ row ∈ db.principals, row.unbound = false → row ∈ db₀.principals ∨
    ∃ j, committed j ∈ tr ∧ row.principalId = (claims j).principalId ∧
      row.legacyRuntimePrincipalId = some (claims j).stored
  done : ∀ j, committed j ∈ tr → ∃ row ∈ db.principals, row.principalId = (claims j).principalId ∧
    row.legacyRuntimePrincipalId = some (claims j).stored
  once : ∀ i j, committed i ∈ tr → committed j ∈ tr → (claims i).Competes (claims j) → i = j

section ClaimRuns

variable {fails : Choice → Bool} {s : Service} {claims : Tid → ContinuityClaim} {db₀ : Db}
  {tr : List RunLabel} {c c' : RunConfig} {l : RunLabel} {gate : Lock} {X : Set String} {i : Tid}

theorem claim_follows (hx : ∀ i, (claims i).Enters gate X) (i : Tid) :
    Follows (faulty fails) (gated gate X) db₀ ((claims i).CommitsAt gate X i) (Climbs fails i) i
      ((claims i).Ended fails s db₀ gate X) (s.handle (claims i).request) (World.ofDb db₀, []) :=
  follows_map (fun _ _ _ h => h) (fun _ _ _ h => h) (bindIdentityContinuity_follows (hx i) (knows_start db₀))

theorem enters_nothing (gate : Lock) (x : ContinuityClaim) : x.Enters gate ∅ := .inr (.inr (Set.notMem_empty _))

theorem claim_step (hx : ∀ i, (claims i).Enters gate X) (h : ClaimRun fails s claims db₀ tr c)
    (hs : Step (faulty fails).exec c l c') :
    CommitsOnly (fun w => (claims l.tid).CommitsAt gate X l.tid (w, tr)) l.tid l.event.op
      l.event.answer c.world c'.world :=
  run_step (D := faulty fails) (C := fun i => (claims i).CommitsAt gate X i) (B := fun i => Climbs fails i)
    (P := fun i => (claims i).Ended fails s db₀ gate X) gated_lawful (fun _ _ => stmt_within)
    (fun _ _ => ContinuityClaim.CommitsAt.disciplined) (fun _ _ _ _ _ h hbinds => h.later hbinds)
    (fun i => claim_follows hx i) h hs

theorem claim_climbs (h : ClaimRun fails s claims db₀ tr c) (hs : Step (faulty fails).exec c l c') :
    Climbs fails l.tid l.event.op (c.world, tr) :=
  run_before (D := faulty fails) (C := fun i => (claims i).CommitsAt (.legacyIdentity "") ∅ i)
    (B := fun i => Climbs fails i) (P := fun i => (claims i).Ended fails s db₀ (.legacyIdentity "") ∅)
    gated_lawful (fun _ _ => stmt_within) (fun _ _ => ContinuityClaim.CommitsAt.disciplined)
    (fun _ _ _ _ _ h hbinds => h.later hbinds) (fun i => claim_follows (fun _ => enters_nothing _ _) i) h hs

theorem claim_ended (hx : ∀ i, (claims i).Enters gate X) (h : ClaimRun fails s claims db₀ tr c) (i : Tid) :
    (∀ reply, c.prog i = .ret reply → committed i ∈ tr) ∧
      ∀ e, c.prog i = .raise e → committed i ∉ tr ∧ ((claims i).Watched s db₀ gate X →
        (faulty fails).MayFail ∨ (claims i).Lost c.world.db e) := by
  obtain ⟨hret, hraise⟩ := run_returned (D := faulty fails) (i := i)
    (C := fun i => (claims i).CommitsAt gate X i) (B := fun i => Climbs fails i)
    (P := fun i => (claims i).Ended fails s db₀ gate X) gated_lawful (fun _ _ => stmt_within)
    (fun _ _ => ContinuityClaim.CommitsAt.disciplined) (fun _ _ _ _ _ h hbinds => h.later hbinds)
    (fun i => claim_follows hx i) h
  refine ⟨fun reply hreply => mem_own.mp (hret reply hreply), fun e he => ?_⟩
  obtain ⟨hcommit, hlost⟩ := hraise e he
  exact ⟨fun hmem => hcommit (mem_own.mpr hmem), hlost⟩

theorem Claimed.step (h : Claimed claims db₀ tr c.world.db)
    (hs : CommitsOnly (fun w => (claims l.tid).CommitsAt gate X l.tid (w, tr)) l.tid l.event.op
      l.event.answer c.world c'.world) : Claimed claims db₀ (tr ++ [l]) c'.world.db := by
  rcases hs.label_cases with ⟨hl, ⟨_, row, record, hclaim⟩, hw⟩ | ⟨hl, hsame⟩
  · have hview : c'.world.db = (c.world.db.bindIdentityContinuity row).appendAudit record := by
      rw [hw, db_commit]
      exact hclaim.view
    have hmem : ∀ {i}, committed i ∈ tr ++ [l] → committed i ∈ tr ∨ i = l.tid := by
      intro i hi
      rcases List.mem_append.mp hi with hi | hi
      · exact .inl hi
      · rw [hl, List.mem_singleton] at hi
        exact .inr (committed_inj.mp hi)
    have hgrown : Binds c.world.db c'.world.db := by
      rw [hw, db_commit]
      exact hclaim.binds
    -- the row that has been bound
    obtain ⟨old, hold, hunbound⟩ := (Option.any_eq_true ..).mp hclaim.matched
    have hunbound : old.unbound = true := hunbound
    have hmine : old.setContinuity row ∈ c'.world.db.principals ∧
        (old.setContinuity row).principalId = (claims l.tid).principalId := by
      have hkey : old.principalId = (claims l.tid).principalId := (Table.find?_some hold).2
      refine ⟨?_, hkey⟩
      rw [hview]
      refine (Table.mem_modify fun r => by split <;> rfl).mpr ⟨old, (Table.find?_some hold).1, ?_⟩
      rw [if_pos (show Keyed.key old = row.principalId from hkey.trans hclaim.principal.symm), if_pos hunbound]
    have hfresh : ∀ j, committed j ∈ tr → ¬(claims l.tid).Competes (claims j) := by
      rintro j hj (hid | hstored)
      · obtain ⟨q, hq, hqid, hql⟩ := h.done j hj
        have hfind : c.world.db.principals.find? q.principalId = some q := Table.mem_iff_find?.mp hq
        rw [hqid, ← hid, hold] at hfind
        obtain rfl := Option.some.inj hfind
        exact Bool.noConfusion (hunbound.symm.trans (unbound_of_legacy hql))
      · obtain ⟨q, hq, _, hql⟩ := h.done j hj
        have hclaimed : c.world.db.claimed (claims l.tid).stored = true :=
          claimed_iff.mpr ⟨q, hq, hstored ▸ hql⟩
        exact Bool.noConfusion (hclaimed.symm.trans hclaim.unclaimed)
    refine ⟨h.binds.trans hgrown, fun r hr hbound => ?_, fun j hj => ?_, fun i j hi hj hcompetes => ?_⟩
    · rw [hview] at hr
      rcases mem_bindIdentityContinuity hr with hr | ⟨hid, hlegacy⟩
      · exact (h.origin r hr hbound).imp_right fun ⟨j, hj, hrest⟩ => ⟨j, List.mem_append_left _ hj, hrest⟩
      · refine .inr ⟨l.tid, ?_, hid.trans hclaim.principal, hlegacy.trans hclaim.legacy⟩
        rw [← hl]
        simp
    · rcases hmem hj with hj | rfl
      · obtain ⟨q, hq, hqid, hql⟩ := h.done j hj
        exact ⟨q, hgrown.bound_mem hq (unbound_of_legacy hql), hqid, hql⟩
      · exact ⟨_, hmine.1, hmine.2, hclaim.legacy⟩
    · rcases hmem hi with hi | rfl <;> rcases hmem hj with hj | hj
      · exact h.once i j hi hj hcompetes
      · subst hj
        exact absurd (hcompetes.imp Eq.symm Eq.symm) (hfresh i hi)
      · exact absurd hcompetes (hfresh j hj)
      · exact hj.symm
  · have hold : ∀ {i}, committed i ∈ tr ++ [l] → committed i ∈ tr := by
      intro i hi
      rcases List.mem_append.mp hi with hi | hi
      · exact hi
      · exact absurd (List.mem_singleton.mp hi).symm (hl i)
    rw [hsame]
    exact ⟨h.binds, fun r hr hbound => (h.origin r hr hbound).imp_right fun ⟨j, hj, hrest⟩ =>
      ⟨j, List.mem_append_left _ hj, hrest⟩, fun j hj => h.done j (hold hj),
      fun i j hi hj => h.once i j (hold hi) (hold hj)⟩

theorem run_claimed (h : ClaimRun fails s claims db₀ tr c) : Claimed claims db₀ tr c.world.db := by
  induction h with
  | nil => exact ⟨.refl _, fun row hrow _ => .inl hrow, by simp, by simp⟩
  | snoc init hs ih =>
    exact ih.step (claim_step (fun i => enters_nothing (.legacyIdentity "") (claims i)) init hs)

/-! ### No deadlock -/

theorem step_faulty (hs : Step available.exec c l c') : Step database.exec c l c' := by
  cases hs with
  | @mk i op k ch r w' hprog hexec =>
    refine .mk hprog (?_ : database.exec ⟨false⟩ i op c.world = some (r, w'))
    cases op <;> exact hexec

theorem run_faulty (h : ClaimRun (fun _ => false) s claims db₀ tr c) :
    ClaimRun Choice.fails s claims db₀ tr c := by
  induction h with
  | nil => exact .nil _
  | snoc _ hs ih => exact ih.snoc (step_faulty hs)

/-- A thread that could only wait can always fail. -/
theorem failing_step {op : Op Sql} {k : Except Error (op.Res Sql.Res) → Program Reply}
    (hprog : c.prog i = .call op k) : ∃ r c', Step database.exec c ⟨i, ⟨op, r⟩⟩ c' := by
  cases op with
  | sql q =>
    have hx : database.exec ⟨true⟩ i (.sql q) c.world = some (_, _) := rfl
    exact ⟨_, _, .mk hprog hx⟩
  | begin =>
    have hx : database.exec ⟨true⟩ i .begin c.world = some (_, _) := rfl
    exact ⟨_, _, .mk hprog hx⟩
  | commit =>
    have hx : database.exec ⟨true⟩ i .commit c.world = some (_, _) := rfl
    exact ⟨_, _, .mk hprog hx⟩
  | rollback =>
    have hx : database.exec ⟨true⟩ i .rollback c.world = some (_, _) := rfl
    exact ⟨_, _, .mk hprog hx⟩

theorem claim_ranked (h : ClaimRun (fun _ => false) s claims db₀ tr c) : Ranked available rank c := by
  refine ⟨fun i op k ch l l' hprog hl hfree hl' => ?_, fun i hfinished l => ?_⟩
  · obtain ⟨r, c', hs⟩ := failing_step hprog
    exact claim_climbs (run_faulty h) hs ch l hl hfree l' hl'
  · have hpath : Path (s.handle (claims i).request) (own i tr) (c.prog i) := run_path h i
    refine unlocked_of_last h (fun e he => ?_) l
    unfold Service.handle ContinuityClaim.request Service.bindIdentityContinuity Service.requireManager
      at hpath
    simp only [bind_eq, raiseWhen] at hpath
    split at hpath
    · obtain ⟨hnil, _⟩ := path_raise hpath
      rw [hnil] at he
      cases he
    · obtain ⟨evs, r, hown⟩ := Path.wrapped_last hpath hfinished
      rw [hown, List.getLast?_append] at he
      obtain rfl := Option.some.inj he
      rfl

theorem rank_le (l : Lock) : rank l ≤ 2 := by
  cases l <;> simp [rank]

/-- A claim that is not done can take a step, or waits for one that can. -/
theorem claim_progress (h : ClaimRun (fun _ => false) s claims db₀ tr c) (hi : ¬(c.prog i).Finished) :
    ∃ j, Relation.ReflTransGen (Waits available c) i j ∧ Enabled available c j :=
  progress_of_ranked (claim_ranked h) rank_le ⟨false⟩ hi

end ClaimRuns

/-! ## Competition -/

/-- Claims that all name one legacy identity, or all one principal, were safe to bind at first
    and have no other competitor. -/
structure Contest (s : Service) (db₀ : Db) (claims : Tid → ContinuityClaim) (S : Set Tid) : Prop where
  safe : ∀ i ∈ S, (claims i).Safe s db₀
  shared : (∀ i ∈ S, ∀ j ∈ S, (claims i).legacyId = (claims j).legacyId) ∨
    ∀ i ∈ S, ∀ j ∈ S, (claims i).principalId = (claims j).principalId
  unopposed : ∀ i ∈ S, ∀ j, (claims i).Competes (claims j) → j ∈ S

/-- One of the claims succeeds, and every other raises the conflict and commits nothing. -/
structure OneWinner (S : Set Tid) (tr : List RunLabel) (c : RunConfig) : Prop where
  one : ∀ i ∈ S, ∀ j ∈ S, committed i ∈ tr → committed j ∈ tr → i = j
  returned : ∀ i ∈ S, ∀ reply, c.prog i = .ret reply → committed i ∈ tr
  raised : ∀ i ∈ S, ∀ e, c.prog i = .raise e → e = .runtimeIdentityContinuityConflict ∧
    committed i ∉ tr ∧ ∃ j ∈ S, committed j ∈ tr
  settled : S.Nonempty → (∀ i ∈ S, (c.prog i).Finished) → ∃ w ∈ S, (∃ reply, c.prog w = .ret reply) ∧
    ∀ j ∈ S, j ≠ w → c.prog j = .raise .runtimeIdentityContinuityConflict ∧ committed j ∉ tr

section Competition

variable {s : Service} {claims : Tid → ContinuityClaim} {db₀ : Db} {S : Set Tid} {tr : List RunLabel}
  {c : RunConfig} {i j : Tid} {e : Error}

/-- The last field follows from the others. -/
theorem OneWinner.of_raised (one : ∀ i ∈ S, ∀ j ∈ S, committed i ∈ tr → committed j ∈ tr → i = j)
    (returned : ∀ i ∈ S, ∀ reply, c.prog i = .ret reply → committed i ∈ tr)
    (raised : ∀ i ∈ S, ∀ e, c.prog i = .raise e → e = .runtimeIdentityContinuityConflict ∧
      committed i ∉ tr ∧ ∃ j ∈ S, committed j ∈ tr) : OneWinner S tr c := by
  refine ⟨one, returned, raised, fun ⟨i, hi⟩ hfinished => ?_⟩
  have hwinner : ∃ w ∈ S, committed w ∈ tr := by
    rcases hfinished i hi with ⟨reply, hreply⟩ | ⟨e, he⟩
    · exact ⟨i, hi, returned i hi reply hreply⟩
    · exact (raised i hi e he).2.2
  obtain ⟨w, hw, hcommit⟩ := hwinner
  refine ⟨w, hw, ?_, fun j hj hne => ?_⟩
  · rcases hfinished w hw with hret | ⟨e, he⟩
    · exact hret
    · exact absurd hcommit (raised w hw e he).2.1
  · rcases hfinished j hj with ⟨reply, hreply⟩ | ⟨e, he⟩
    · exact absurd (one j hj w hw (returned j hj reply hreply) hcommit) hne
    · obtain ⟨rfl, hnot, _⟩ := raised j hj e he
      exact ⟨he, hnot⟩

theorem available_never_fails : ¬available.MayFail := by
  rintro ⟨_, h⟩
  cases h

/-- What was safe to bind at first: its principal was not bound and its legacy identity not
    claimed. -/
theorem ContinuityClaim.Safe.fresh {x : ContinuityClaim} (h : x.Safe s db₀) {row : RuntimePrincipalRow}
    (hrow : row ∈ db₀.principals) (hbound : row.unbound = false) :
    row.principalId ≠ x.principalId ∧ row.legacyRuntimePrincipalId ≠ some x.stored := by
  obtain ⟨reply, change, records, h⟩ := h
  unfold ContinuityClaim.request at h
  cases h with
  | bound _ found _ unready _ _ _ _ _ _ _ unclaimed =>
    refine ⟨fun hid => ?_, fun hlegacy => ?_⟩
    · obtain ⟨row', hrow', _, rfl⟩ := getPrincipal_some found
      rw [show x.command.principalId = row.principalId from hid.symm, show
        db₀.principals.find? row.principalId = some row from Table.mem_iff_find?.mp hrow] at hrow'
      obtain rfl := Option.some.inj hrow'
      rw [unbound_principalFromRow, hbound] at unready
      cases unready
    · exact Bool.noConfusion ((claimed_iff.mpr ⟨row, hrow, hlegacy⟩).symm.trans unclaimed)

/-- What is in the way of a claim that was safe at first is another that has committed. -/
theorem taken_by_claim {x : ContinuityClaim} {row : RuntimePrincipalRow}
    (h : ClaimRun (fun _ => false) s claims db₀ tr c) (hsafe : x.Safe s db₀)
    (hrow : row ∈ c.world.db.principals) (hbound : row.unbound = false)
    (htaken : row.principalId = x.principalId ∨ row.legacyRuntimePrincipalId = some x.stored) :
    ∃ j, committed j ∈ tr ∧ row.principalId = (claims j).principalId ∧
      row.legacyRuntimePrincipalId = some (claims j).stored := by
  refine ((run_claimed h).origin row hrow hbound).resolve_left fun hold => ?_
  obtain ⟨hid, hlegacy⟩ := hsafe.fresh hold hbound
  exact htaken.elim hid hlegacy

/-- The lock that all competitors take. -/
theorem Contest.gate (h : Contest s db₀ claims S) : ∃ gate X, (∀ i, (claims i).Enters gate X) ∧
    ∀ i ∈ S, (claims i).Watched s db₀ gate X := by
  rcases S.eq_empty_or_nonempty with rfl | ⟨m, hm⟩
  · exact ⟨.legacyIdentity "", ∅, fun _ => enters_nothing _ _, fun i hi => absurd hi (Set.notMem_empty i)⟩
  have hgate : ∃ gate : Lock, ∀ i ∈ S, gate = .legacyIdentity (claims i).legacyId ∨
      gate = .principal (claims i).principalId := by
    rcases h.shared with hlegacy | hprincipal
    · exact ⟨.legacyIdentity (claims m).legacyId, fun i hi => .inl (by rw [hlegacy m hm i hi])⟩
    · exact ⟨.principal (claims m).principalId, fun i hi => .inr (by rw [hprincipal m hm i hi])⟩
  obtain ⟨gate, hgate⟩ := hgate
  refine ⟨gate, {y | ∃ i ∈ S, (claims i).stored = y}, fun i => ?_, fun i hi =>
    ⟨hgate i hi, ⟨i, hi, rfl⟩, h.safe i hi⟩⟩
  by_cases hi : i ∈ S
  · exact (hgate i hi).imp_right .inl
  · refine .inr (.inr ?_)
    rintro ⟨j, hj, hstored⟩
    exact hi (h.unopposed j hj i (.inr hstored))

/-- What a competitor that raises has found in its way. -/
theorem Contest.lost (h : Contest s db₀ claims S) (hrun : ClaimRun (fun _ => false) s claims db₀ tr c)
    (hi : i ∈ S) (he : c.prog i = .raise e) : committed i ∉ tr ∧ (claims i).Lost c.world.db e := by
  obtain ⟨gate, X, hx, hwatched⟩ := h.gate
  obtain ⟨hnot, hlost⟩ := (claim_ended hx hrun i).2 e he
  exact ⟨hnot, (hlost (hwatched i hi)).resolve_left available_never_fails⟩

theorem Contest.returned (h : Contest s db₀ claims S) (hrun : ClaimRun (fun _ => false) s claims db₀ tr c)
    {reply : Reply} (hret : c.prog i = .ret reply) : committed i ∈ tr := by
  obtain ⟨gate, X, hx, _⟩ := h.gate
  exact (claim_ended hx hrun i).1 reply hret

theorem Contest.one (h : Contest s db₀ claims S) (hrun : ClaimRun (fun _ => false) s claims db₀ tr c) :
    ∀ i ∈ S, ∀ j ∈ S, committed i ∈ tr → committed j ∈ tr → i = j := by
  intro i hi j hj hci hcj
  refine (run_claimed hrun).once i j hci hcj ?_
  rcases h.shared with hlegacy | hprincipal
  · exact .inr (congrArg strip (hlegacy i hi j hj))
  · exact .inl (hprincipal i hi j hj)

/-- The competitors name one principal, or their legacy identities stripped. -/
def Plain (claims : Tid → ContinuityClaim) (S : Set Tid) : Prop :=
  (∀ i ∈ S, ∀ j ∈ S, (claims i).principalId = (claims j).principalId) ∨
    ∀ i ∈ S, (claims i).stored = (claims i).legacyId

theorem Contest.oneWinner (h : Contest s db₀ claims S) (hplain : Plain claims S)
    (hrun : ClaimRun (fun _ => false) s claims db₀ tr c) : OneWinner S tr c := by
  refine .of_raised (h.one hrun) (fun i _ reply hret => h.returned hrun hret) fun i hi e he => ?_
  obtain ⟨hnot, hlost⟩ := h.lost hrun hi he
  cases hlost with
  | @conflict row stored bound taken =>
    refine ⟨rfl, hnot, ?_⟩
    have htaken : row.principalId = (claims i).principalId ∨
        row.legacyRuntimePrincipalId = some (claims i).stored := by
      refine taken.imp_right fun hlegacy => ?_
      have hstripped : (claims i).stored = (claims i).legacyId :=
        stripped_of_claimed (claimed_iff.mpr ⟨row, stored, hlegacy⟩)
      rw [hstripped]
      exact hlegacy
    obtain ⟨j, hj, hid, hlegacy⟩ := taken_by_claim hrun (h.safe i hi) stored bound htaken
    refine ⟨j, h.unopposed i hi j ?_, hj⟩
    exact htaken.imp (fun hp => hp.symm.trans hid) fun hl => Option.some.inj (hl.symm.trans hlegacy)
  | @index row stored other taken ne =>
    obtain ⟨j, hj, hid, hlegacy⟩ :=
      taken_by_claim hrun (h.safe i hi) stored (unbound_of_legacy taken) (.inr taken)
    have hin : j ∈ S := h.unopposed i hi j (.inr (Option.some.inj (taken.symm.trans hlegacy)))
    rcases hplain with hprincipal | hstripped
    · exact absurd (hid.trans (hprincipal j hin i hi)) other
    · exact absurd (hstripped i hi) ne

/-- Two claims of one legacy identity that is not stripped, one after the other. -/
theorem Contest.not_oneWinner (h : Contest s db₀ claims S) (hi : i ∈ S) (hj : j ∈ S)
    (hprincipal : (claims i).principalId ≠ (claims j).principalId)
    (hstored : ∀ m ∈ S, (claims m).stored ≠ (claims m).legacyId) :
    ∃ tr c, ClaimRun (fun _ => false) s claims db₀ tr c ∧ ¬OneWinner S tr c := by
  obtain ⟨tr₁, c₁, hrun₁, htids₁, _, hfinished₁, halone⟩ := finish_alone available ⟨false⟩
    ⟨World.ofDb db₀, fun i => s.handle (claims i).request⟩ i (fun l k hl => by cases hl)
  have hfree : ∀ l k, c₁.world.owner l = some k → k = j := by
    intro l k hl
    obtain rfl := halone l k hl
    exact absurd hl ((claim_ranked hrun₁).unlocked k hfinished₁ l)
  obtain ⟨tr₂, c₂, hrun₂, htids₂, hothers, hfinished₂, _⟩ := finish_alone available ⟨false⟩ c₁ j hfree
  have hrun : ClaimRun (fun _ => false) s claims db₀ (tr₁ ++ tr₂) c₂ := hrun₁.append hrun₂
  have hne : i ≠ j := fun he => hprincipal (by rw [he])
  refine ⟨tr₁ ++ tr₂, c₂, hrun, fun hwinner => ?_⟩
  -- neither of the two has raised: only they have run, and neither is in the way of the other
  have hcommitted : ∀ m ∈ S, m = i ∨ m = j → (c₂.prog m).Finished → committed m ∈ tr₁ ++ tr₂ := by
    rintro m hm hor (⟨reply, hret⟩ | ⟨e, he⟩)
    · exact hwinner.returned m hm reply hret
    · obtain ⟨rfl, hnot, _⟩ := hwinner.raised m hm e he
      obtain ⟨_, hlost⟩ := h.lost hrun hm he
      cases hlost with
      | @conflict row stored bound taken =>
        rcases taken with hid | hlegacy
        · obtain ⟨k, hk, hid', _⟩ := taken_by_claim hrun (h.safe m hm) stored bound (.inl hid)
          have hkid : (claims k).principalId = (claims m).principalId := hid'.symm.trans hid
          have hran : k = i ∨ k = j :=
            (List.mem_append.mp hk).imp (htids₁ _) (htids₂ _)
          rcases hor with rfl | rfl <;> rcases hran with rfl | rfl
          · exact absurd hk hnot
          · exact absurd hkid.symm hprincipal
          · exact absurd hkid hprincipal
          · exact absurd hk hnot
        · exact absurd (stripped_of_claimed (claimed_iff.mpr ⟨row, stored, hlegacy⟩)) (hstored m hm)
  refine hne (hwinner.one i hi j hj (hcommitted i hi (.inl rfl) ?_) (hcommitted j hj (.inr rfl) hfinished₂))
  rw [hothers i hne]
  exact hfinished₁

end Competition

/-- In every run a legacy identity is bound to one principal and what is bound stays. Among
    claims nothing but a commit changes the database, and there is no deadlock; of those that
    compete one wins, and the others raise the conflict, exactly if they are plain. -/
theorem claims_exclusive (s : Service) (db₀ : Db) (h₀ : db₀.Exclusive) :
    (∀ (requests : Tid → Request) tr c,
      Run database.exec ⟨World.ofDb db₀, fun i => s.handle (requests i)⟩ tr c →
      c.world.db.Exclusive ∧
        ∀ tr' c', Run database.exec c tr' c' → ContinuityKept c.world.db c'.world.db) ∧
    ∀ claims : Tid → ContinuityClaim,
      (∀ tr c, ClaimRun (fun _ => false) s claims db₀ tr c →
        (∀ l c', Step available.exec c l c' → l = committed l.tid ∨ c'.world.db = c.world.db) ∧
        ∀ i, ¬(c.prog i).Finished →
          ∃ j, Relation.ReflTransGen (Waits available c) i j ∧ Enabled available c j) ∧
      ∀ S, Contest s db₀ claims S →
        ((∀ tr c, ClaimRun (fun _ => false) s claims db₀ tr c → OneWinner S tr c) ↔ Plain claims S) := by
  refine ⟨fun requests tr c h => ⟨run_exclusive h h₀, fun tr' c' h' => run_continuityKept h h'⟩,
    fun claims => ⟨fun tr c h => ⟨fun l c' hs => ?_, fun i hi => claim_progress h hi⟩,
      fun S hcontest => ⟨fun hall => ?_, fun hplain tr c h => hcontest.oneWinner hplain h⟩⟩⟩
  · exact (claim_step (fun i => enters_nothing (.legacyIdentity "") (claims i)) h hs).label_cases.imp
      (fun hl => hl.1) fun hsame => hsame.2
  · by_contra hnot
    obtain ⟨hprincipal, hstored⟩ := not_or.mp hnot
    push Not at hprincipal hstored
    obtain ⟨i, hi, j, hj, hne⟩ := hprincipal
    obtain ⟨m, hm, hunstripped⟩ := hstored
    have hlegacy := hcontest.shared.resolve_right fun hall => hne (hall i hi j hj)
    have hall' : ∀ k ∈ S, (claims k).stored ≠ (claims k).legacyId := by
      intro k hk
      rw [ContinuityClaim.stored, hlegacy k hk m hm]
      exact hunstripped
    obtain ⟨tr, c, hrun, hlose⟩ := hcontest.not_oneWinner hi hj hne hall'
    exact hlose (hall tr c hrun)

/-! ## Two principals and one static identity -/

def limitedRow (principalId : Uuid) : RuntimePrincipalRow :=
  { principalRow principalId with
    dailyUsageLimitUnits := some 12
    perInvocationAllowanceUnits := some 5
    limits_together := rfl
    limits_positive := rfl }

/-- Principals 1 and 2 with credentials 11 and 12. -/
def twoPrincipals : Db where
  principals := (Table.empty.insert (limitedRow 1)).insert (limitedRow 2)
  credentials := (Table.empty.insert (credentialRow 11 1)).insert (credentialRow 12 2)
  agents := {(5, 6)}
  invocations := []
  audits := []

theorem exclusive_twoPrincipals : twoPrincipals.Exclusive := by
  have hnone : ∀ r ∈ twoPrincipals.principals.rows, r.legacyRuntimePrincipalId = none := by decide +kernel
  refine exclusive_of_legacy fun r hr r' _ l hl _ => ?_
  rw [hnone r hr] at hl
  cases hl

def legacySettings (legacyId : String) (hstripped : trim legacyId = legacyId)
    (hlength : 1 ≤ len legacyId ∧ len legacyId ≤ 255) : Settings.RuntimeAuthenticationSettings where
  principals := [⟨legacyId, 5, 6, "00112233445566778899aabbccddeeff", 12, 5, hstripped, hlength,
    by decide +kernel, by decide, by decide, by decide⟩]
  principalIds_unique := by simp
  credentials_unique := by simp
  bindings_unique := by simp

/-- Threads 0 and 1 claim the identity for principals 1 and 2. -/
def claimsOf (legacyId : String) (settings : Settings.RuntimeAuthenticationSettings) : Tid → ContinuityClaim
  | 0 => ⟨⟨manager, 1, legacyId⟩, { envAt 1 0 with legacyConfigurations := some settings }⟩
  | 1 => ⟨⟨manager, 2, legacyId⟩, { envAt 2 0 with legacyConfigurations := some settings }⟩
  | _ => ⟨⟨manager, 3, "other"⟩, envAt 3 0⟩

def plainClaims : Tid → ContinuityClaim :=
  claimsOf "abc" (legacySettings "abc" (by decide +kernel) (by decide +kernel))

/-- A unit separator is not white space to pydantic, but `str.strip` removes it. -/
def separatedClaims : Tid → ContinuityClaim :=
  claimsOf "\x1fabc" (legacySettings "\x1fabc" (by decide +kernel) (by decide +kernel))

theorem contest_claimsOf {legacyId : String} {settings : Settings.RuntimeAuthenticationSettings}
    (h₀ : (claimsOf legacyId settings 0).Safe exampleService twoPrincipals)
    (h₁ : (claimsOf legacyId settings 1).Safe exampleService twoPrincipals)
    (hother : strip legacyId ≠ strip "other") :
    Contest exampleService twoPrincipals (claimsOf legacyId settings) {0, 1} := by
  refine ⟨?_, .inl ?_, fun i hi j hcompetes => ?_⟩
  · rintro i (rfl | rfl)
    · exact h₀
    · exact h₁
  · rintro i (rfl | rfl) j (rfl | rfl) <;> rfl
  · match j with
    | 0 => exact .inl rfl
    | 1 => exact .inr rfl
    | n + 2 =>
      rcases hi with rfl | rfl <;> rcases hcompetes with hid | hstored
      · exact absurd hid (by decide : (1 : Uuid) ≠ 3)
      · exact absurd hstored hother
      · exact absurd hid (by decide : (2 : Uuid) ≠ 3)
      · exact absurd hstored hother

theorem contest_plainClaims : Contest exampleService twoPrincipals plainClaims {0, 1} :=
  contest_claimsOf
    ⟨_, _, _, .bound rfl rfl rfl rfl rfl rfl (by decide +kernel) rfl rfl rfl (by decide +kernel)
      (by decide +kernel)⟩
    ⟨_, _, _, .bound rfl rfl rfl rfl rfl rfl (by decide +kernel) rfl rfl rfl (by decide +kernel)
      (by decide +kernel)⟩ (by decide +kernel)

theorem contest_separatedClaims : Contest exampleService twoPrincipals separatedClaims {0, 1} :=
  contest_claimsOf
    ⟨_, _, _, .bound rfl rfl rfl rfl rfl rfl (by decide +kernel) rfl rfl rfl (by decide +kernel)
      (by decide +kernel)⟩
    ⟨_, _, _, .bound rfl rfl rfl rfl rfl rfl (by decide +kernel) rfl rfl rfl (by decide +kernel)
      (by decide +kernel)⟩ (by decide +kernel)

/-- The thread has returned or raised. -/
def finished (i : Tid) (c : RunConfig) : Bool :=
  match c.prog i with
  | .call _ _ => false
  | _ => true

theorem finished_of_test {i : Tid} {c : RunConfig} (h : finished i c = true) : (c.prog i).Finished := by
  unfold finished at h
  split at h
  · cases h
  · next hnot =>
    cases hprog : c.prog i with
    | ret a => exact finished_ret
    | raise e => exact finished_raise
    | call op k => exact absurd hprog (hnot op k)

theorem claims_exclusive_plain : ∃ tr c,
    ClaimRun (fun _ => false) exampleService plainClaims twoPrincipals tr c ∧
    ∃ w ∈ ({0, 1} : Set Tid), (∃ reply, c.prog w = .ret reply) ∧ ∀ j ∈ ({0, 1} : Set Tid), j ≠ w →
      c.prog j = .raise .runtimeIdentityContinuityConflict ∧ committed j ∉ tr := by
  obtain ⟨tr, c, hrun, ht⟩ := schedule_any available.exec
    ⟨World.ofDb twoPrincipals, fun i => exampleService.handle (plainClaims i).request⟩
    (steps 0 10 ++ steps 1 4) (fun (_, c) => finished 0 c && finished 1 c) (by decide +kernel)
  simp only [Bool.and_eq_true] at ht
  obtain ⟨_, hclaims⟩ := claims_exclusive exampleService twoPrincipals exclusive_twoPrincipals
  have hwinner := ((hclaims plainClaims).2 {0, 1} contest_plainClaims).mpr (.inr (by
    rintro i (rfl | rfl) <;> decide +kernel)) tr c hrun
  refine ⟨tr, c, hrun, hwinner.settled ⟨0, .inl rfl⟩ ?_⟩
  rintro i (rfl | rfl)
  · exact finished_of_test ht.1
  · exact finished_of_test ht.2

def refused (i : Tid) (c : RunConfig) : Bool :=
  match c.prog i with
  | .raise .database => true
  | _ => false

theorem refused_of_test {i : Tid} {c : RunConfig} (h : refused i c = true) :
    c.prog i = .raise .database := by
  unfold refused at h
  split at h
  · assumption
  · cases h

/-- The second claim of an identity that is not stripped ends with a database error. -/
theorem separated_claim_fails : Contest exampleService twoPrincipals separatedClaims {0, 1} ∧
    ∃ tr c, ClaimRun (fun _ => false) exampleService separatedClaims twoPrincipals tr c ∧
      committed 0 ∈ tr ∧ c.prog 1 = .raise .database := by
  refine ⟨contest_separatedClaims, ?_⟩
  obtain ⟨tr, c, hrun, ht⟩ := schedule_any available.exec
    ⟨World.ofDb twoPrincipals, fun i => exampleService.handle (separatedClaims i).request⟩
    (steps 0 10 ++ steps 1 8) (fun t => t.1.any (isCommit 0) && refused 1 t.2) (by decide +kernel)
  simp only [Bool.and_eq_true, List.any_eq_true] at ht
  obtain ⟨⟨l, hl, hcommit⟩, hraised⟩ := ht
  exact ⟨tr, c, hrun, eq_committed hcommit ▸ hl, refused_of_test hraised⟩

end Valor.RuntimeIdentity
