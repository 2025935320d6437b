/-
  The control plane: commands that set the same permission at once.

  Each command reads the clock before its transaction begins, and its upsert may run after
  that of a command that has read a later time. The row then has a creation, or an update, that
  is later than the command's time: the constructor raises on the first, and the second is
  lost. Where each upsert runs only after commits of commands that have read no later
  time, no command raises and the row never goes back in time (`puts_in_order`).
-/
import Valor.ControlPlane.Invocations
import Valor.Lib.Quiet
import Valor.Lib.Waiting

namespace Valor.ControlPlane

open Python Postgres ManagementAudit IdentityTenancy AssetRegistry PolicyRisk RuntimeGateway
  Prog Interleave ReadCommitted

/-- What a command sets the permission to, and for whom. -/
structure Put where
  env : PermissionEnv
  principalId : Uuid
  effect : PolicyEffect

def Put.request (subject : Subject) (put : Put) : Request :=
  .setPermission put.env put.principalId subject put.effect

/-- The database, where it does not fail. -/
def available : Database Db Lock Sql Sql.Res Error Choice := { database with fails := fun _ => false }

/-- Thread `i` has read the clock. -/
def clockRead (i : Tid) (now : Utc) : Label := ⟨i, ⟨.sql .clock, .ok now⟩⟩

/-- The clock does not go back; the times in the row at the start have been read before. -/
def ClockForward (subject : Subject) (db₀ : Db) (tr : List Label) (l : Label) : Prop :=
  ∀ i now, l = clockRead i now →
    (∀ row, db₀.permissions.find? subject = some row → row.updatedAt.instant ≤ now.instant) ∧
      ∀ j earlier, clockRead j earlier ∈ tr → earlier.instant ≤ now.instant

/-- At an upsert, no command has committed that has read the clock later. -/
def InOrder (tr : List Label) (l : Label) : Prop :=
  ∀ i p r now, l = ⟨i, ⟨.sql (.permissionsSet p), r⟩⟩ → clockRead i now ∈ tr →
    ∀ j time, committed j ∈ tr → clockRead j time ∈ tr → time.instant ≤ now.instant

/-! ## One command -/

section Command

variable {s : Service} {subject : Subject} {put : Put}

/-- The answers of an admission that passes; of other operations any value will do. -/
def Expected (subject : Subject) : (op : Op Sql) → op.Res Sql.Res → Prop
  | .sql (.tenantExists _), found => found = true
  | .sql (.getAgent _), found => ∃ agent, found = some agent ∧ agent.tenantId = subject.tenantId
  | .sql (.getModel _), found => ∃ model, found = some model ∧ model.tenantId = subject.tenantId
  | _, _ => True

/-- The operations of a command: it writes nothing before its upsert. -/
def Before (subject : Subject) (put : Put) : Op Sql → List Event → Prop
  | .sql (.tenantExists tenantId), evs => tenantId = subject.tenantId ∧ ∀ e ∈ evs, reads e.op = true
  | .sql (.getAgent agentId), evs => agentId = subject.agentId ∧ ∀ e ∈ evs, reads e.op = true
  | .sql (.getModel modelId), evs => modelId = subject.modelId ∧ ∀ e ∈ evs, reads e.op = true
  | .sql .clock, _ => True
  | .sql (.getEffective subject'), evs => subject' = subject ∧ ∀ e ∈ evs, reads e.op = true
  | .sql (.permissionsSet p), evs => (∃ now : Utc, ⟨.sql .clock, .ok now⟩ ∈ evs ∧
      AgentModelPermission.new put.env.permissionId subject.tenantId subject.agentId subject.modelId
        put.effect (.aware now) (.aware now) = .ok p) ∧ ∀ e ∈ evs, reads e.op = true
  | .sql (.auditsAppend _), _ => True
  | .commit, _ => True
  | .rollback, _ => True
  | _, _ => False

/-- What a command has done when it returns. -/
def Done (reply : Reply) (evs : List Event) : Prop :=
  ∃ before proposed effective record, evs = before ++ [⟨.sql (.permissionsSet proposed), .ok effective⟩] ++
    [⟨.sql (.auditsAppend record), .ok ()⟩] ++ [⟨.commit, .ok ()⟩] ++ [⟨.rollback, .ok ()⟩] ∧
    (∀ e ∈ before, reads e.op = true) ∧ reply = .permission effective

theorem new_now (id tenantId agentId modelId : Uuid) (effect : PolicyEffect) (now : Utc) :
    ∃ p, AgentModelPermission.new id tenantId agentId modelId effect (.aware now) (.aware now) = .ok p := by
  have hnot : ¬now.toAware < now.toAware := Int.lt_irrefl _
  refine ⟨⟨id, tenantId, agentId, modelId, effect, now, now, Int.le_refl _⟩, ?_⟩
  unfold AgentModelPermission.new
  refine Except.bind_eq_ok (a := now.toAware) rfl (Except.bind_eq_ok (a := now.toAware) rfl ?_)
  rw [dif_neg hnot]
  rfl

theorem permissionFingerprint_hex (sha256 : Sha256) (p : AgentModelPermission) :
    isHexDigest (permissionFingerprint sha256 p) = true :=
  (sha256 _).property

theorem permissionRecord_exists (sha256 : Sha256) (env : PermissionEnv) (principalId : Uuid) (now : Utc)
    (previous : Option AgentModelPermission) (effective : AgentModelPermission) :
    ∃ record, permissionRecord sha256 env principalId.str now previous effective = .ok record := by
  refine Record.exists_succeeded env.auditId _ _ _ _ _ ?_ (fun f hf => ?_)
    (permissionFingerprint_hex sha256 effective)
  · rw [Uuid.strip_str]
    exact principalId.str_ne_empty
  · obtain ⟨p, _, rfl⟩ := Option.map_eq_some_iff.mp hf
    exact permissionFingerprint_hex sha256 p

variable {α : Type} {P : Op Sql → List Event → Prop} {A : (op : Op Sql) → op.Res Sql.Res → Prop}
  {Q : α → List Event → Prop} {evs : List Event}

theorem quiet_session {q : Sql} {f : q.Res → Program α} (hq : P (.sql q) evs)
    (hlast : ∀ a, P .rollback (evs ++ [⟨.sql q, .ok a⟩]))
    (hf : ∀ a, A (.sql q) a → Quiet P A Q (evs ++ [⟨.sql q, .ok a⟩, ⟨.rollback, .ok ()⟩]) (f a)) :
    Quiet P A Q evs ((session q).bind f) := by
  refine .call hq fun a ha => .call (hlast a) fun u _ => ?_
  rw [List.append_assoc]
  exact hf a ha

theorem quiet_orMissing {β : Type} {x : Option β} {b : β} {e : Error} {f : β → Program α} (hx : x = some b)
    (hf : Quiet P A Q evs (f b)) : Quiet P A Q evs ((orMissing x e).bind f) := by
  rw [hx]
  exact hf

/-- A command has twelve operations, and raises nothing if they answer as expected. -/
theorem put_quiet : Quiet (fun op evs => evs.length < 12 ∧ Before subject put op evs) (Expected subject)
    Done [] (s.program (put.request subject)) := by
  show Quiet _ _ _ _ ((setPermission s.sha256 put.env ⟨subject, put.effect, put.principalId.str⟩).bind
    fun p => .ret (Reply.permission p))
  simp only [setPermission, admitPermission, bind_eq, bind_assoc]
  refine quiet_session (by simp [Before, reads]) (by simp [Before]) fun found hfound => ?_
  refine quiet_raiseWhen (not_not.mpr hfound) ?_
  refine quiet_session (by simp [Before, reads]) (by simp [Before]) fun found' hfound' => ?_
  obtain ⟨agent, rfl, hagent⟩ := hfound'
  refine quiet_orMissing (b := agent) (by simp [hagent]) ?_
  refine quiet_session (by simp [Before, reads]) (by simp [Before]) fun found'' hfound'' => ?_
  obtain ⟨model, rfl, hmodel⟩ := hfound''
  refine quiet_orMissing (b := model) (by simp [hmodel]) ?_
  refine quiet_perform (by simp [Before]) fun now _ => ?_
  obtain ⟨proposed, hproposed⟩ := new_now put.env.permissionId subject.tenantId subject.agentId
    subject.modelId put.effect now
  refine quiet_lift hproposed ?_
  refine Quiet.bind (R := fun p => Done (.permission p)) (Quiet.andFinally ?_) fun p evs h => .ret h
  simp only [setEffective, bind_eq]
  refine quiet_perform (by simp [Before, reads]) fun previous _ => ?_
  refine quiet_perform ⟨by simp, ⟨now, by simp, hproposed⟩, by simp [reads]⟩ fun effective _ => ?_
  obtain ⟨record, hrecord⟩ :=
    permissionRecord_exists s.sha256 put.env put.principalId now previous effective
  refine quiet_lift hrecord ?_
  refine quiet_perform (by simp [Before]) fun _ _ => ?_
  refine quiet_perform (by simp [Before]) fun _ _ => .ret ⟨by simp [Before], fun _ _ => ?_⟩
  exact ⟨_, proposed, effective, record, rfl, by simp [reads], rfl⟩

end Command

/-! ## The statements of a command -/

section Statements

variable {subject : Subject} {db : Db}

theorem Admitted.findAgent (h : Admitted subject db) :
    ∃ a, db.agents.find? subject.agentId = some a ∧ a.tenantId = subject.tenantId := by
  obtain ⟨a, ha, hid, htenant⟩ := h.agent
  exact ⟨a, hid ▸ Table.mem_iff_find?.mp ha, htenant⟩

theorem Admitted.findModel (h : Admitted subject db) :
    ∃ m, db.models.find? subject.modelId = some m ∧ m.tenantId = subject.tenantId := by
  obtain ⟨m, hm, hid, htenant⟩ := h.model
  exact ⟨m, hid ▸ Table.mem_iff_find?.mp hm, htenant⟩

theorem Admitted.getAgent (h : Admitted subject db) :
    ∃ agent, db.getAgent subject.agentId = some agent ∧ agent.tenantId = subject.tenantId := by
  obtain ⟨a, ha, htenant⟩ := h.findAgent
  exact ⟨⟨a.id, a.tenantId⟩, by rw [Db.getAgent, ha]; rfl, htenant⟩

theorem Admitted.getModel (h : Admitted subject db) :
    ∃ model, db.getModel subject.modelId = some model ∧ model.tenantId = subject.tenantId := by
  obtain ⟨m, hm, htenant⟩ := h.findModel
  exact ⟨⟨m.id, m.tenantId, m.provider, m.providerModelReference⟩, by rw [Db.getModel, hm]; rfl,
    htenant⟩

/-- A row loads if its update does not precede its creation. -/
theorem permissionFromRow_of {row : PermissionRow} (h : row.createdAt.instant ≤ row.updatedAt.instant) :
    ∃ p, permissionFromRow row = .ok p := by
  have hnot : ¬row.updatedAt.toAware < row.createdAt.toAware := by
    show ¬row.updatedAt.toAware.instant < row.createdAt.toAware.instant
    rw [Utc.instant_toAware, Utc.instant_toAware]
    omega
  unfold permissionFromRow AgentModelPermission.new
  rw [requireAware, requireAware]
  exact ⟨_, dif_neg hnot⟩

theorem permissionFromRow_ok {row : PermissionRow} {p : AgentModelPermission}
    (h : permissionFromRow row = .ok p) : row.createdAt.instant ≤ row.updatedAt.instant := by
  by_contra hlt
  have hlt' : row.updatedAt.toAware < row.createdAt.toAware := by
    show row.updatedAt.toAware.instant < row.createdAt.toAware.instant
    rw [Utc.instant_toAware, Utc.instant_toAware]
    omega
  unfold permissionFromRow AgentModelPermission.new at h
  rw [requireAware, requireAware] at h
  cases (dif_pos hlt').symm.trans h

theorem getEffective_of (h : ∀ row, db.permissions.find? subject = some row →
    row.createdAt.instant ≤ row.updatedAt.instant) : ∃ p, db.getEffective subject = .ok p := by
  unfold Db.getEffective
  split
  · exact ⟨none, rfl⟩
  · next row hrow =>
    obtain ⟨p, hp⟩ := permissionFromRow_of (h row hrow)
    exact ⟨some p, by rw [hp]; rfl⟩

/-- The upsert raises nothing unless it finds a row that was created later. -/
theorem permissionsSet_of {id : Uuid} {effect : PolicyEffect} {now : Utc} {p : AgentModelPermission}
    (hp : AgentModelPermission.new id subject.tenantId subject.agentId subject.modelId effect
      (.aware now) (.aware now) = .ok p) (hadmitted : Admitted subject db)
    (hfound : ∀ row, db.permissions.find? subject = some row → row.createdAt.instant ≤ now.instant)
    (hfresh : db.permissions.find? subject = none → ∀ r ∈ db.permissions.rows, r.id ≠ id) :
    ∃ effective g, db.permissionsSet p = .ok (effective, g) := by
  obtain ⟨hsubject, hvalues⟩ := proposed_ok hp
  have hid : p.id = id := ((ofPermission_ok hvalues).1).symm
  have htenant : p.tenantId = subject.tenantId := congrArg Subject.tenantId hsubject
  have hagent : p.agentId = subject.agentId := congrArg Subject.agentId hsubject
  have hmodel : p.modelId = subject.modelId := congrArg Subject.modelId hsubject
  obtain ⟨a, ha, _⟩ := hadmitted.findAgent
  obtain ⟨m, hm, _⟩ := hadmitted.findModel
  unfold Db.permissionsSet
  rw [hvalues, hsubject]
  cases hrow : db.permissions.find? subject with
  | some row =>
    obtain ⟨effective, heffective⟩ := @permissionFromRow_of
      (row.set ⟨id, subject, effect, now, now⟩) (hfound row hrow)
    refine ⟨effective, fun db => db.updatePermission ⟨id, subject, effect, now, now⟩,
      Except.bind_eq_ok (a := ⟨id, subject, effect, now, now⟩) rfl ?_⟩
    dsimp only
    rw [heffective]
    rfl
  | none =>
    obtain ⟨effective, heffective⟩ := @permissionFromRow_of
      ⟨id, subject, effect, now, now⟩ (Int.le_refl _)
    refine ⟨effective, fun db => db.insertPermission ⟨id, subject, effect, now, now⟩,
      Except.bind_eq_ok (a := ⟨id, subject, effect, now, now⟩) rfl ?_⟩
    dsimp only
    refine Except.bind_eq_ok (constraint_of (by rw [hid]; exact hfresh hrow)) ?_
    refine Except.bind_eq_ok (constraint_of (by rw [htenant]; exact hadmitted.tenant)) ?_
    refine Except.bind_eq_ok (constraint_of ?_) (Except.bind_eq_ok (constraint_of ?_) ?_)
    · rw [hagent, ha]
      exact Option.some_ne_none a
    · rw [hmodel, hm]
      exact Option.some_ne_none m
    · rw [heffective]
      rfl

end Statements

/-! ## The upsert of a transaction -/

section Upsert

variable {D : Database Db Lock Sql Sql.Res Error Choice} {db₀ : Db} {i : Tid} {tr : List Label}
  {programs : Tid → Program Reply} {c : Config}
  {ok : List Label → Config → Label → Config → Prop}

/-- A transaction that has upserted goes back to a step that met the condition of the run, and
    has found there the row that is stored still. -/
theorem upsert_before (hD : ∀ ch i q, D.stmt ch i q = stmt ch q) {x y : List Event}
    {p effective : AgentModelPermission}
    (h : RunWhere D.exec ok [] ⟨World.ofDb db₀, programs⟩ tr c)
    (hown : own i tr = x ++ ⟨.sql (.permissionsSet p), .ok effective⟩ :: y)
    (hy : ∀ e ∈ y, e.op ≠ .commit ∧ e.op ≠ .rollback) :
    ∃ tr₁ tr₂ c₁ c₂, tr = tr₁ ++ ⟨i, ⟨.sql (.permissionsSet p), .ok effective⟩⟩ :: tr₂ ∧
      RunWhere D.exec ok [] ⟨World.ofDb db₀, programs⟩ tr₁ c₁ ∧ own i tr₁ = x ∧
      ok tr₁ c₁ ⟨i, ⟨.sql (.permissionsSet p), .ok effective⟩⟩ c₂ ∧
      c.world.db.permissions.find? p.subject = c₁.world.db.permissions.find? p.subject := by
  have hwithin : ∀ ch i q, (D.stmt ch i q).Within same := fun ch i q => hD ch i q ▸ stmt_within ch q
  obtain ⟨tr₁, tr₂, rfl, hown₁⟩ := own_split hown
  obtain ⟨c₁, c₂, hrun, hs, hok, hrest⟩ := h.at
  refine ⟨tr₁, tr₂, c₁, c₂, rfl, hrun, hown₁, hok, ?_⟩
  have hstmt : ∀ ch, D.stmt ch i (.permissionsSet p) = .change (fun _ db => db.permissionLocks p)
      fun _ db => db.permissionsSet p := fun ch => hD ch i _
  obtain ⟨_, hdb, howner⟩ := change_step hstmt hs
  have hlock := howner (.permission p.subject) mem_permissionLocks
  have hlater : ∀ e ∈ own i tr₂, e.op ≠ .commit ∧ e.op ≠ .rollback := by
    rw [own_append, own_cons_self, hown₁] at hown
    rwa [(List.cons.inj (List.append_cancel_left hown)).2]
  obtain ⟨_, hsame, _⟩ := kept_locked same_refl same_trans hwithin
    (run_protected hwithin (hrun.run.snoc hs)) hrest hlater hlock
  exact (show c.world.db.permissions.find? _ = c₂.world.db.permissions.find? _ from hsame).trans
    (by rw [hdb])

end Upsert

/-! ## Runs -/

/-- The commands, from the database `db₀`. -/
def putsFrom (s : Service) (subject : Subject) (puts : Tid → Put) (db₀ : Db) : Config :=
  ⟨World.ofDb db₀, fun i => s.program ((puts i).request subject)⟩

section Runs

variable {s : Service} {subject : Subject} {puts : Tid → Put} {db₀ : Db} {tr : List Label}
  {c c' : Config} {l : Label}

theorem available_step (hs : Step available.exec c l c') : Step database.exec c l c' := by
  cases hs with
  | @mk i op k ch r w' hprog hexec =>
    have hstmt : ∀ q, stmt { ch with fails := false } q = stmt ch q := fun q => by cases q <;> rfl
    suffices hlast : database.exec { ch with fails := false } i op c.world = some (r, w') from
      .mk hprog hlast
    rw [← hexec]
    cases op with
    | sql q => exact congrArg (World.perform c.world i) (hstmt q)
    | begin => rfl
    | commit => rfl
    | rollback => rfl

theorem available_run (h : Run available.exec c tr c') : Run database.exec c tr c' := by
  induction h with
  | nil => exact .nil _
  | snoc _ hs ih => exact ih.snoc (available_step hs)

/-- The row of the permission, where its update time comes from, and all other rows. -/
structure Rows (subject : Subject) (db₀ : Db) (tr : List Label) (db : Db) : Prop where
  others : ∀ k ≠ subject, db.permissions.find? k = db₀.permissions.find? k
  ordered : ∀ row, db.permissions.find? subject = some row → row.createdAt.instant ≤ row.updatedAt.instant
  written : ∀ row, db.permissions.find? subject = some row →
    db₀.permissions.find? subject = some row ∨
      ∃ j, committed j ∈ tr ∧ clockRead j row.updatedAt ∈ tr

/-- What a command that commits has done before its upsert (`x`) and after it (`y`), and the row
    that it leaves. -/
structure Upsert (subject : Subject) (db db' : Db) (x y : List Event) (now : Utc) (row : PermissionRow)
    (effective : AgentModelPermission) : Prop where
  read : ⟨.sql .clock, .ok now⟩ ∈ x
  reading : ∀ e ∈ x, reads e.op = true
  unended : ∀ e ∈ y, ∃ record, e = ⟨.sql (.auditsAppend record), .ok ()⟩
  stored : db'.permissions.find? subject = some row
  updated : row.updatedAt = now
  loads : permissionFromRow row = .ok effective
  others : ∀ k ≠ subject, db'.permissions.find? k = db.permissions.find? k

theorem put_commit {put : Put} {evs : List Event} {db db' : Db}
    (h : Commit s (put.request subject) evs db db') : ∃ x y now row proposed effective,
      evs = x ++ ⟨.sql (.permissionsSet proposed), .ok effective⟩ :: y ∧ proposed.subject = subject ∧
      Upsert subject db db' x y now row effective := by
  cases h with
  | @setPermission _ _ _ _ _ _ before now previous proposed effective record hevs hreads _ hmade _ _
      hstored _ =>
    refine ⟨before ++ [⟨.sql .clock, .ok now⟩, ⟨.sql (.getEffective subject), .ok previous⟩],
      [⟨.sql (.auditsAppend record), .ok ()⟩], now, _, proposed, effective, ?_, (proposed_ok hmade).1,
      by simp, ?_, by simp, (find?_upsertPermission _ subject).trans (if_pos rfl), ?_, hstored,
      fun k hk => (find?_upsertPermission _ k).trans (if_neg hk)⟩
    · rw [hevs, List.append_assoc]
      rfl
    · intro e he
      rcases List.mem_append.mp he with he | he
      · exact hreads e he
      · simp only [List.mem_cons, List.not_mem_nil, or_false] at he
        rcases he with rfl | rfl <;> rfl
    · cases db.permissions.find? subject <;> rfl

theorem rows_of_run (hordered : ∀ row, db₀.permissions.find? subject = some row →
    row.createdAt.instant ≤ row.updatedAt.instant)
    (h : Run database.exec (putsFrom s subject puts db₀) tr c) : Rows subject db₀ tr c.world.db := by
  induction h with
  | nil => exact ⟨fun _ _ => rfl, hordered, fun _ => .inl⟩
  | @snoc c c' tr l h hs ih =>
    have hrun : RunFrom s (fun i => (puts i).request subject) db₀ tr c := h
    obtain hdb | ⟨hl, hc⟩ := step_cases hrun hs
    · rw [hdb]
      refine ⟨ih.others, ih.ordered, fun row hrow => (ih.written row hrow).imp_right ?_⟩
      rintro ⟨j, hcommit, hread⟩
      exact ⟨j, List.mem_append_left _ hcommit, List.mem_append_left _ hread⟩
    · obtain ⟨x, y, now, row, _, _, hown, _, hc⟩ := put_commit hc
      refine ⟨fun k hk => (hc.others k hk).trans (ih.others k hk), fun row' hrow' => ?_,
        fun row' hrow' => .inr ⟨l.tid, ?_, ?_⟩⟩
      · rw [hc.stored] at hrow'
        cases hrow'
        exact permissionFromRow_ok hc.loads
      · rw [hl]
        exact List.mem_append_right _ (List.mem_singleton_self _)
      · rw [hc.stored] at hrow'
        cases hrow'
        rw [hc.updated]
        exact List.mem_append_left _ (mem_own.mp (hown ▸ List.mem_append_left _ hc.read))

/-- What the claim about a run in order needs of each of its steps. -/
def Orderly (subject : Subject) (db₀ : Db) (tr : List Label) (_ : Config) (l : Label) (_ : Config) :
    Prop :=
  ClockForward subject db₀ tr l ∧ InOrder tr l

/-- What the commands find at the start. -/
structure Prepared (subject : Subject) (puts : Tid → Put) (db₀ : Db) : Prop where
  admitted : Admitted subject db₀
  ordered : ∀ row, db₀.permissions.find? subject = some row →
    row.createdAt.instant ≤ row.updatedAt.instant
  fresh : ∀ i, ∀ r ∈ db₀.permissions.rows, r.id ≠ (puts i).env.permissionId

/-- The row at the start is not later than any reading of the clock. -/
theorem start_before_read (h : RunWhere available.exec (Orderly subject db₀) [] (putsFrom s subject puts db₀)
    tr c) {i : Tid} {now : Utc} (hread : clockRead i now ∈ tr) {row : PermissionRow}
    (hrow : db₀.permissions.find? subject = some row) : row.updatedAt.instant ≤ now.instant := by
  obtain ⟨tr₁, tr₂, rfl⟩ := List.append_of_mem hread
  obtain ⟨_, _, _, _, ⟨hclock, _⟩, _⟩ := h.at
  exact (hclock i now rfl).1 row hrow

/-- At an upsert the row is not later than the reading of its command. -/
theorem row_before_upsert
    (hordered : ∀ row, db₀.permissions.find? subject = some row →
      row.createdAt.instant ≤ row.updatedAt.instant)
    (h : RunWhere available.exec (Orderly subject db₀) [] (putsFrom s subject puts db₀) tr c) {i : Tid}
    {p : AgentModelPermission} {r : Except Error AgentModelPermission} {now : Utc}
    (horder : InOrder tr ⟨i, ⟨.sql (.permissionsSet p), r⟩⟩) (hread : clockRead i now ∈ tr)
    {row : PermissionRow} (hrow : c.world.db.permissions.find? subject = some row) :
    row.updatedAt.instant ≤ now.instant := by
  obtain hstart | ⟨j, hcommit, htime⟩ := (rows_of_run hordered (available_run h.run)).written row hrow
  · exact start_before_read h hread hstart
  · exact horder i p r now rfl hread j row.updatedAt hcommit htime

/-- In an orderly run every operation answers as expected. -/
theorem expected_answer (hprepared : Prepared subject puts db₀)
    (h : RunWhere available.exec (Orderly subject db₀) [] (putsFrom s subject puts db₀) tr c)
    (hs : Step available.exec c l c') (horderly : Orderly subject db₀ tr c l c')
    (hbefore : Before subject (puts l.tid) l.event.op (own l.tid tr)) :
    ∃ a, l.event.answer = .ok a ∧ Expected subject l.event.op a := by
  have hrun : RunFrom s (fun i => (puts i).request subject) db₀ tr c := available_run h.run
  have hrows := rows_of_run hprepared.ordered hrun
  have hlater : Later db₀ c.world.db := hrun.later
  have hadmitted := hprepared.admitted.later hlater
  have hview : (∀ e ∈ own l.tid tr, reads e.op = true) → c.world.view l.tid = c.world.db :=
    fun hreads => view_of_neutral hrun fun e he => neutral_of_reads l.tid (hreads e he)
  cases hs with
  | @mk i op k ch r w' hprog hexec =>
    cases op with
    | sql q =>
      have hperform : c.world.perform i (stmt ch q) = some (r, w') := hexec
      cases q with
      | tenantExists tenantId =>
        obtain ⟨rfl, hreads⟩ := hbefore
        cases hperform
        rw [hview hreads]
        exact ⟨_, rfl, Option.isSome_iff_ne_none.mpr hadmitted.tenant⟩
      | getAgent agentId =>
        obtain ⟨rfl, hreads⟩ := hbefore
        cases hperform
        rw [hview hreads]
        exact ⟨_, rfl, hadmitted.getAgent⟩
      | getModel modelId =>
        obtain ⟨rfl, hreads⟩ := hbefore
        cases hperform
        rw [hview hreads]
        exact ⟨_, rfl, hadmitted.getModel⟩
      | clock =>
        cases hperform
        exact ⟨_, rfl, trivial⟩
      | getEffective subject' =>
        obtain ⟨rfl, hreads⟩ := hbefore
        cases hperform
        rw [hview hreads]
        obtain ⟨p, hp⟩ := getEffective_of hrows.ordered
        exact ⟨p, hp, trivial⟩
      | permissionsSet p =>
        obtain ⟨⟨now, hread, hp⟩, hreads⟩ := hbefore
        have hfound : ∀ row, c.world.db.permissions.find? subject = some row →
            row.createdAt.instant ≤ now.instant := fun row hrow =>
          (hrows.ordered row hrow).trans
            (row_before_upsert hprepared.ordered h horderly.2 (mem_own.mp hread) hrow)
        have hfresh : c.world.db.permissions.find? subject = none →
            ∀ row ∈ c.world.db.permissions.rows, row.id ≠ (puts i).env.permissionId := by
          intro hnone row hmem
          have hfind := Table.mem_iff_find?.mp (Table.mem_rows.mp hmem)
          have hne : Keyed.key row ≠ subject := fun heq => by simp [← heq, hfind] at hnone
          rw [hrows.others _ hne] at hfind
          exact hprepared.fresh i row (Table.mem_rows.mpr (Table.mem_iff_find?.mpr hfind))
        obtain ⟨effective, g, hset⟩ := permissionsSet_of hp hadmitted hfound hfresh
        have hstatement : c.world.statement i (fun _ db => db.permissionLocks p)
            (fun _ db => db.permissionsSet p) = some (r, w') := hexec
        obtain ⟨_, _, ⟨a, f, _, rfl, _⟩ | ⟨e, he, _, _⟩⟩ := statement_cases hstatement
        · exact ⟨a, rfl, trivial⟩
        · rw [hview hreads, hset] at he
          cases he
      | auditsAppend record =>
        have hstatement : c.world.statement i (fun _ _ => [])
            (fun _ _ => .ok ((), fun db => db.appendAudit record)) = some (r, w') := hexec
        obtain ⟨_, _, ⟨a, f, _, rfl, _⟩ | ⟨e, he, _, _⟩⟩ := statement_cases hstatement
        · exact ⟨a, rfl, trivial⟩
        · cases he
      | _ => exact hbefore.elim
    | begin => exact hbefore.elim
    | commit => cases hexec; exact ⟨(), rfl, trivial⟩
    | rollback => cases hexec; exact ⟨(), rfl, trivial⟩

/-- The commands stay quiet in an orderly run. -/
theorem puts_quiet (hprepared : Prepared subject puts db₀)
    (h : RunWhere available.exec (Orderly subject db₀) [] (putsFrom s subject puts db₀) tr c) (i : Tid) :
    Quiet (fun op evs => evs.length < 12 ∧ Before subject (puts i) op evs) (Expected subject) Done
      (own i tr) (c.prog i) :=
  RunWhere.quiet (A := fun _ => Expected subject) (fun _ => put_quiet)
    (fun _ _ _ _ h hs horderly hP => expected_answer hprepared h hs horderly hP.2) h i

theorem puts_bounded (hprepared : Prepared subject puts db₀)
    (h : RunWhere available.exec (Orderly subject db₀) [] (putsFrom s subject puts db₀) tr c) (i : Tid) :
    (own i tr).length ≤ 12 := by
  induction h with
  | nil => simp
  | @snoc tr c l c' h hs _ ih =>
    have hlt := (Quiet.step (puts_quiet hprepared h) hs).1
    obtain ⟨j, e⟩ := l
    by_cases hj : i = j
    · subst hj
      rw [own_snoc_self, List.length_append]
      exact hlt
    · rwa [own_snoc_of_ne hj]

/-- A command that has returned has committed, and returns what it has stored. -/
theorem put_returned (hprepared : Prepared subject puts db₀)
    (h : RunWhere available.exec (Orderly subject db₀) [] (putsFrom s subject puts db₀) tr c) {i : Tid}
    {reply : Reply} (hret : c.prog i = .ret reply) :
    ∃ tr₁ tr₂ c₁ c₂ row effective, tr = tr₁ ++ committed i :: tr₂ ∧
      Run available.exec (putsFrom s subject puts db₀) tr₁ c₁ ∧
      Step available.exec c₁ (committed i) c₂ ∧
      c₂.world.db.permissions.find? subject = some row ∧ permissionFromRow row = .ok effective ∧
      reply = .permission effective := by
  have hquiet := puts_quiet hprepared h i
  rw [hret] at hquiet
  obtain ⟨before, proposed, effective, record, hown, hreads, rfl⟩ : Done reply (own i tr) := by
    cases hquiet with
    | ret hdone => exact hdone
  rw [List.append_assoc] at hown
  obtain ⟨tr₁, tr₂, rfl, hown₁⟩ := own_split hown
  obtain ⟨c₁, c₂, hrun, hs, _, _⟩ := h.at
  have hrequests : RunFrom s (fun i => (puts i).request subject) db₀ tr₁ c₁ := available_run hrun.run
  have hcommits := step_commits hrequests (available_step hs)
  obtain ⟨hcommit, hdb⟩ : Commit s ((puts i).request subject) (own i tr₁) c₁.world.db
      (c₁.world.view i) ∧ c₂.world = c₁.world.commit i := hcommits
  obtain ⟨x, y, now, row, proposed', effective', hown', _, hput⟩ := put_commit hcommit
  refine ⟨tr₁, tr₂, c₁, c₂, row, effective', rfl, hrun.run, hs, ?_, hput.loads, ?_⟩
  · rw [hdb, db_commit]
    exact hput.stored
  · have hset : ⟨.sql (.permissionsSet proposed'), .ok effective'⟩ ∈ own i tr₁ := by simp [hown']
    rw [hown₁, List.append_assoc, List.mem_append, List.mem_append, List.mem_singleton,
      List.mem_singleton] at hset
    rcases hset with hread | heq | heq
    · exact nomatch hreads _ hread
    · cases heq
      rfl
    · cases heq

/-- At a commit the row is not later than the reading of its command. -/
theorem put_forward (hprepared : Prepared subject puts db₀)
    (h : RunWhere available.exec (Orderly subject db₀) [] (putsFrom s subject puts db₀) tr c)
    (hs : Step available.exec c l c') {row : PermissionRow}
    (hrow : c.world.db.permissions.find? subject = some row) :
    ∃ row', c'.world.db.permissions.find? subject = some row' ∧
      row.updatedAt.instant ≤ row'.updatedAt.instant := by
  have hrequests : RunFrom s (fun i => (puts i).request subject) db₀ tr c := available_run h.run
  obtain hdb | ⟨_, hc⟩ := step_cases hrequests (available_step hs)
  · exact ⟨row, by rw [hdb]; exact hrow, Int.le_refl _⟩
  · obtain ⟨x, y, now, row', proposed, effective, hown, hsubject, hput⟩ := put_commit hc
    obtain ⟨tr₁, tr₂, c₁, c₂, rfl, hrun, hown₁, ⟨_, horder⟩, hsame⟩ :=
      upsert_before (fun _ _ _ => rfl) h hown fun e he => by
        obtain ⟨record, rfl⟩ := hput.unended e he
        simp
    rw [hsubject] at hsame
    refine ⟨row', hput.stored, ?_⟩
    rw [hput.updated]
    exact row_before_upsert hprepared.ordered hrun horder (mem_own.mp (hown₁ ▸ hput.read))
      (hsame ▸ hrow)

/-- Reading takes no lock. -/
theorem owner_of_reads {ch : Choice} {i : Tid} {op : Op Sql} {w w' : World Db Lock}
    {r : Except Error (op.Res Sql.Res)} (hop : reads op = true)
    (h : available.exec ch i op w = some (r, w')) {k : Lock} (hk : w'.owner k = some i) :
    w.owner k = some i := by
  cases op with
  | sql q =>
    -- A write is excluded, and a query leaves the world.
    cases q <;> first
      | exact Bool.noConfusion hop
      | (cases h; exact hk)
  | begin => cases hop
  | commit => cases hop
  | rollback =>
    rw [(exec_rollback h).2, World.rollback] at hk
    dsimp only at hk
    split at hk
    · cases hk
    · exact hk

/-- A thread that has only read has no lock. -/
theorem unlocked_of_reads (h : Run available.exec (putsFrom s subject puts db₀) tr c) {i : Tid}
    (hreads : ∀ e ∈ own i tr, reads e.op = true) (k : Lock) : c.world.owner k ≠ some i := by
  induction h with
  | nil => simp [putsFrom, World.ofDb]
  | @snoc c c' tr l h hs ih =>
    have hold := ih fun e he => hreads e (by rw [own_append]; exact List.mem_append_left _ he)
    cases hs with
    | @mk j op k' ch r w' hprog hexec =>
      by_cases hj : i = j
      · subst hj
        have hop : reads op = true := hreads ⟨op, r⟩ (by rw [own_snoc_self]; simp)
        exact fun hk => hold (owner_of_reads hop hexec hk)
      · exact fun hk => hold (((exec_apart hj hexec).owner k).mp hk)

/-- Only upserts need locks, and their commands have none before. -/
theorem puts_ranked (hprepared : Prepared subject puts db₀)
    (h : RunWhere available.exec (Orderly subject db₀) [] (putsFrom s subject puts db₀) tr c) :
    Ranked available (fun _ => 0) c := by
  refine ⟨fun i op k ch l l' hprog hneeds _ howner => ?_, fun i hfinished l => ?_⟩
  · have hquiet := puts_quiet hprepared h i
    rw [hprog] at hquiet
    cases hquiet with
    | call hbefore _ =>
      have hreads : ∀ e ∈ own i tr, reads e.op = true := by
        cases op with
        | sql q =>
          cases q with
          | permissionsSet p => exact hbefore.2.2
          | auditsAppend record => cases hneeds
          | tenantsAdd t => exact hbefore.2.elim
          | agentsAdd a => exact hbefore.2.elim
          | modelsAdd m => exact hbefore.2.elim
          | decisionsAdd d => exact hbefore.2.elim
          | invocationsAdd x => exact hbefore.2.elim
          | _ => cases hneeds
        | _ => cases hneeds
      exact absurd howner (unlocked_of_reads h.run hreads l')
  · refine unlocked_of_last h.run (fun e he => ?_) l
    have hquiet := puts_quiet hprepared h i
    rcases hfinished with ⟨reply, hret⟩ | ⟨e', hraise⟩
    · rw [hret] at hquiet
      cases hquiet with
      | ret hdone =>
        obtain ⟨before, proposed, effective, record, hown, _⟩ := hdone
        rw [hown, List.getLast?_append] at he
        cases he
        rfl
    · rw [hraise] at hquiet
      cases hquiet

/-- Every command commits and returns what it has stored, and the row does not go back in time:
    no command raises, each has at most twelve operations and none is stuck, whoever waits. -/
structure Served (s : Service) (subject : Subject) (puts : Tid → Put) (db₀ : Db) (tr : List Label)
    (c : Config) : Prop where
  raises : ∀ i e, c.prog i ≠ .raise e
  returns : ∀ i reply, c.prog i = .ret reply → ∃ tr₁ tr₂ c₁ c₂ row effective,
    tr = tr₁ ++ committed i :: tr₂ ∧ Run available.exec (putsFrom s subject puts db₀) tr₁ c₁ ∧
    Step available.exec c₁ (committed i) c₂ ∧ c₂.world.db.permissions.find? subject = some row ∧
    permissionFromRow row = .ok effective ∧ reply = .permission effective
  bounded : ∀ i, (own i tr).length ≤ 12
  progress : ∀ i, ¬(c.prog i).Finished →
    ∃ j, Relation.ReflTransGen (Waits available c) i j ∧ Enabled available c j
  ordered : ∀ row, c.world.db.permissions.find? subject = some row →
    row.createdAt.instant ≤ row.updatedAt.instant
  forward : ∀ l c' row, Step available.exec c l c' →
    c.world.db.permissions.find? subject = some row →
    ∃ row', c'.world.db.permissions.find? subject = some row' ∧
      row.updatedAt.instant ≤ row'.updatedAt.instant

/-- Where upserts are in the order of the clock, every command is served. -/
theorem puts_in_order (s : Service) (subject : Subject) (puts : Tid → Put) (db₀ : Db) (tr : List Label)
    (c : Config) (hprepared : Prepared subject puts db₀)
    (h : RunWhere available.exec (Orderly subject db₀) [] (putsFrom s subject puts db₀) tr c) :
    Served s subject puts db₀ tr c where
  raises i e hraise := by
    have hquiet := puts_quiet hprepared h i
    rw [hraise] at hquiet
    cases hquiet
  returns _ _ hret := put_returned hprepared h hret
  bounded := puts_bounded hprepared h
  progress _ hi := progress_of_ranked (puts_ranked hprepared h) (fun _ => Nat.le_refl 0)
    ⟨false, 0, .error .database⟩ hi
  ordered := (rows_of_run hprepared.ordered (available_run h.run)).ordered
  forward _ _ _ hs hrow := put_forward hprepared h hs hrow

end Runs

/-! ## Two commands -/

def exampleSubject : Subject := ⟨1, 2, 3⟩

/-- Tenant 1 with Agent 2 and Model 3. -/
def exampleAssets : Db :=
  ((Db.empty.insertTenant ⟨1, "t", "t", 0⟩).insertAgent
    ⟨2, 1, "a", "a", 0⟩).insertModel ⟨3, 1, "m", "m", "openai", "m", 0⟩

theorem exampleAssets_admitted : Admitted exampleSubject exampleAssets :=
  ⟨by decide, ⟨_, List.mem_singleton_self _, rfl, rfl⟩, _, List.mem_singleton_self _, rfl, rfl⟩

def exampleControlPlane : Service where
  casefold := id
  sha256 _ := zeroDigest
  settings := ⟨⟨[], List.nodup_nil⟩, ⟨[], List.nodup_nil, List.nodup_nil⟩⟩

/-- Thread 0 allows, and every other thread denies. -/
def examplePuts : Tid → Put
  | 0 => ⟨⟨10, 20⟩, 9, .allow⟩
  | _ => ⟨⟨11, 21⟩, 9, .deny⟩

/-- `n` operations of thread `i`, at the time `now`. -/
def turns (i : Tid) (n : Nat) (now : Utc) : List (Tid × Choice) :=
  List.replicate n (i, ⟨false, now, .error .database⟩)

/-- What the threads have read from the clock. -/
def readings (tr : List Label) : List (Tid × Utc) :=
  tr.filterMap fun
    | ⟨i, ⟨.sql .clock, .ok now⟩⟩ => some (i, now)
    | _ => none

theorem mem_readings {tr : List Label} {i : Tid} {now : Utc} (h : clockRead i now ∈ tr) :
    (i, now) ∈ readings tr :=
  List.mem_filterMap.mpr ⟨_, h, rfl⟩

/-- `ClockForward`, where nothing is stored at the start. -/
def clockForward (tr : List Label) (l : Label) : Bool :=
  match l with
  | ⟨_, ⟨.sql .clock, .ok now⟩⟩ => (readings tr).all (·.2.instant ≤ now.instant)
  | _ => true

/-- `InOrder`. -/
def inOrder (tr : List Label) (l : Label) : Bool :=
  match l with
  | ⟨i, ⟨.sql (.permissionsSet _), _⟩⟩ => (readings tr).all fun r => (readings tr).all fun r' =>
      !(r.1 == i) || !(tr.any (isCommit r'.1)) || r'.2.instant ≤ r.2.instant
  | _ => true

theorem clockForward_sound {subject : Subject} {db₀ : Db} {tr : List Label} {l : Label}
    (hstart : ∀ row, db₀.permissions.find? subject = some row → row.updatedAt.instant = 0)
    (h : clockForward tr l = true) : ClockForward subject db₀ tr l := by
  rintro i now rfl
  refine ⟨fun row hrow => (hstart row hrow).trans_le now.range.1, fun j earlier hread => ?_⟩
  simpa using List.all_eq_true.mp h _ (mem_readings hread)

theorem inOrder_sound {tr : List Label} {l : Label} (h : inOrder tr l = true) : InOrder tr l := by
  rintro i p r now rfl hread j time hcommit htime
  have hor := List.all_eq_true.mp (List.all_eq_true.mp h _ (mem_readings hread)) _
    (mem_readings htime)
  have hany : tr.any (isCommit j) = true := List.any_eq_true.mpr ⟨_, hcommit, by simp [isCommit, committed]⟩
  simpa [hany] using hor

theorem exampleAssets_prepared : Prepared exampleSubject examplePuts exampleAssets :=
  ⟨exampleAssets_admitted, fun _ h => (nomatch h), fun _ _ h => (nomatch h)⟩

theorem forward_of_test (tr : List Label) (_ : Config) (l : Label) (_ : Config)
    (h : clockForward tr l = true) : ClockForward exampleSubject exampleAssets tr l :=
  clockForward_sound (fun _ h => nomatch h) h

theorem orderly_of_test (tr : List Label) (c : Config) (l : Label) (c' : Config)
    (h : (clockForward tr l && inOrder tr l) = true) : Orderly exampleSubject exampleAssets tr c l c' :=
  ⟨forward_of_test tr c l c' (Bool.and_eq_true_iff.mp h).1, inOrder_sound (Bool.and_eq_true_iff.mp h).2⟩

/-- The thread has returned a permission. -/
def permits (i : Tid) (c : Config) : Bool :=
  match c.prog i with
  | .ret (.permission _) => true
  | _ => false

theorem puts_in_order_two : ∃ tr c, committed 0 ∈ tr ∧ committed 1 ∈ tr ∧ permits 0 c ∧ permits 1 c ∧
    Served exampleControlPlane exampleSubject examplePuts exampleAssets tr c := by
  obtain ⟨tr, c, hrun, ht⟩ : ∃ tr c, RunWhere available.exec (Orderly exampleSubject exampleAssets) []
      (putsFrom exampleControlPlane exampleSubject examplePuts exampleAssets) tr c ∧
      (tr.any (isCommit 0) && tr.any (isCommit 1) && permits 0 c && permits 1 c) = true :=
    scheduleWhere_any orderly_of_test [] _
      (turns 0 8 10 ++ turns 1 8 20 ++ turns 0 4 20 ++
        turns 1 4 20)
      (fun (tr, c) => tr.any (isCommit 0) && tr.any (isCommit 1) && permits 0 c && permits 1 c)
      (by decide +kernel)
  simp only [Bool.and_eq_true, List.any_eq_true] at ht
  obtain ⟨⟨⟨⟨l₀, hl₀, h₀⟩, l₁, hl₁, h₁⟩, hr₀⟩, hr₁⟩ := ht
  exact ⟨tr, c, eq_committed h₀ ▸ hl₀, eq_committed h₁ ▸ hl₁, hr₀, hr₁,
    puts_in_order _ _ _ _ _ _ exampleAssets_prepared hrun⟩

/-- The same, with a permission. -/
def examplePermission : Db :=
  exampleAssets.upsertPermission ⟨12, exampleSubject, .deny, 0, 0⟩

theorem examplePermission_prepared : Prepared exampleSubject examplePuts examplePermission := by
  refine ⟨exampleAssets_admitted.later (later_upsertPermission _), fun row h => ?_, fun i row h => ?_⟩
  · cases h
    decide
  · obtain rfl := List.mem_singleton.mp h
    match i with
    | 0 => decide
    | _ + 1 =>
      show (12 : Uuid) ≠ 11
      decide

/-- The thread has raised what the constructor raises. -/
def refusedUpdate (i : Tid) (c : Config) : Bool :=
  match c.prog i with
  | .raise (.valueError message) => message == "Permission update cannot precede creation."
  | _ => false

theorem refusedUpdate_iff {i : Tid} {c : Config} (h : refusedUpdate i c = true) :
    c.prog i = .raise (.valueError "Permission update cannot precede creation.") := by
  unfold refusedUpdate at h
  split at h
  · next message hprog => rw [hprog, eq_of_beq h]
  · cases h

/-- The update time of the permission is `n`. -/
def updatedAt (n : Int) (db : Db) : Bool :=
  (db.permissions.find? exampleSubject).any (·.updatedAt.instant = n)

/-- Thread 0 reads the clock first and upserts last. Where thread 1 has created the permission
    in between, thread 0 raises; where it has updated it, the row goes back in time. -/
theorem puts_out_of_order :
    (Prepared exampleSubject examplePuts exampleAssets ∧ ∃ tr c, RunWhere available.exec
      (fun tr _ l _ => ClockForward exampleSubject exampleAssets tr l) []
      (putsFrom exampleControlPlane exampleSubject examplePuts exampleAssets) tr c ∧
      c.prog 0 = .raise (.valueError "Permission update cannot precede creation.")) ∧
    (Prepared exampleSubject examplePuts examplePermission ∧ ∃ tr c c', RunWhere available.exec
      (fun tr _ l _ => ClockForward exampleSubject examplePermission tr l) []
      (putsFrom exampleControlPlane exampleSubject examplePuts examplePermission) tr c ∧
      Step available.exec c (committed 0) c' ∧ updatedAt 20 c.world.db ∧ updatedAt 10 c'.world.db) := by
  refine ⟨⟨exampleAssets_prepared, ?_⟩, examplePermission_prepared, ?_⟩
  · obtain ⟨tr, c, hrun, ht⟩ : ∃ tr c, RunWhere available.exec
        (fun tr _ l _ => ClockForward exampleSubject exampleAssets tr l) []
        (putsFrom exampleControlPlane exampleSubject examplePuts exampleAssets) tr c ∧
        refusedUpdate 0 c = true :=
      scheduleWhere_any forward_of_test [] _
        (turns 0 7 10 ++ turns 1 12 20 ++ turns 0 3 20)
        (fun (_, c) => refusedUpdate 0 c) (by decide +kernel)
    exact ⟨tr, c, hrun, refusedUpdate_iff ht⟩
  · obtain ⟨tr, c, hrun, ht⟩ : ∃ tr c, RunWhere available.exec
        (fun tr _ l _ => ClockForward exampleSubject examplePermission tr l) []
        (putsFrom exampleControlPlane exampleSubject examplePuts examplePermission) tr c ∧
        (atCommit 0 c && updatedAt 20 c.world.db && updatedAt 10 (c.world.view 0)) = true := by
      have hforward : ∀ (tr : List Label) (_ : Config) (l : Label) (_ : Config),
          clockForward tr l = true → ClockForward exampleSubject examplePermission tr l := by
        refine fun tr _ l _ h => clockForward_sound (fun row hrow => ?_) h
        cases hrow
        rfl
      exact scheduleWhere_any hforward [] _
        (turns 0 7 10 ++ turns 1 12 20 ++ turns 0 3 20)
        (fun (_, c) => atCommit 0 c && updatedAt 20 c.world.db && updatedAt 10 (c.world.view 0))
        (by decide +kernel)
    simp only [Bool.and_eq_true] at ht
    obtain ⟨⟨hat, hold⟩, hnew⟩ := ht
    obtain ⟨prog, hstep⟩ := commit_step available ⟨false, 0, .error .database⟩ rfl hat
    exact ⟨tr, c, _, hrun, hstep, hold, hnew⟩

end Valor.ControlPlane
