/-
  The control plane: the audit records of a permission.

  A command reads the permission before it upserts it, and takes the before fingerprint from
  what it has read. Where another command commits in between, the record leaves that
  command's out. The records chain up where each upsert finds the effect that its command has
  read (`permission_records_chain`).
-/
import Valor.ControlPlane.PermissionOrder

namespace Valor.ControlPlane

open Python Postgres ManagementAudit IdentityTenancy AssetRegistry PolicyRisk RuntimeGateway
  Prog Interleave ReadCommitted

/-! ## Chains -/

/-- Each record takes up where the one before it has left off, from `before` to `after`. -/
def Chain : Option String → List Record → Option String → Prop
  | before, [], after => before = after
  | before, record :: records, after =>
      record.beforeFingerprint = before ∧ Chain record.afterFingerprint records after

instance Chain.decidable : (before : Option String) → (records : List Record) →
    (after : Option String) → Decidable (Chain before records after)
  | before, [], after => inferInstanceAs (Decidable (before = after))
  | before, record :: records, after =>
      have := Chain.decidable record.afterFingerprint records after
      inferInstanceAs (Decidable (record.beforeFingerprint = before ∧ _))

theorem Chain.snoc {before after : Option String} {records : List Record} {record : Record}
    (h : Chain before records after) (hrecord : record.beforeFingerprint = after) :
    Chain before (records ++ [record]) record.afterFingerprint := by
  induction records generalizing before with
  | nil => exact ⟨hrecord.trans h.symm, rfl⟩
  | cons r records ih => exact ⟨h.1, ih h.2⟩

/-! ## The records of a permission -/

/-- The audit records of the permission, in the order of their commits. -/
def permissionRecords (db : Db) (permissionId : Uuid) : List Record :=
  db.audits.filter fun record => record.About .agentModelPermissionSet permissionId

def effectFingerprint (sha256 : Sha256) (subject : Subject) (effect : PolicyEffect) : String :=
  agentModelPermissionFingerprint sha256 subject.tenantId subject.agentId subject.modelId effect.value

/-- The fingerprint of a stored row. -/
def PermissionRow.fingerprint (sha256 : Sha256) (row : PermissionRow) : String :=
  effectFingerprint sha256 row.subject row.effect

/-- The records of every stored permission chain up to its row, and there are no others. -/
structure Audited (sha256 : Sha256) (db : Db) : Prop where
  unique : ∀ r ∈ db.permissions, ∀ r' ∈ db.permissions, r.id = r'.id → r = r'
  known : ∀ record ∈ db.audits, record.action = .agentModelPermissionSet →
    ∃ r ∈ db.permissions, r.id = record.resourceId
  chained : ∀ r ∈ db.permissions,
    Chain none (permissionRecords db r.id) (some (r.fingerprint sha256))

theorem Audited.empty (sha256 : Sha256) : Audited sha256 Db.empty :=
  ⟨fun r hr => absurd hr (Table.not_mem_empty r), fun _ h => (nomatch h),
    fun r hr => absurd hr (Table.not_mem_empty r)⟩

theorem permissionFromRow_eq {row : PermissionRow} {p : AgentModelPermission}
    (h : permissionFromRow row = .ok p) : p.id = row.id ∧ p.subject = row.subject ∧ p.effect = row.effect := by
  obtain ⟨_, _, h⟩ := Except.bind_ok_cases h
  obtain ⟨_, _, h⟩ := Except.bind_ok_cases h
  split at h
  · cases h
  · cases h
    exact ⟨rfl, rfl, rfl⟩

/-- What was read of a permission is fingerprinted by its effect. -/
theorem fingerprint_read (sha256 : Sha256) {subject : Subject} {previous : Option AgentModelPermission}
    (h : ∀ p ∈ previous, p.subject = subject) :
    previous.map (permissionFingerprint sha256) =
      (previous.map (·.effect)).map (effectFingerprint sha256 subject) := by
  cases previous with
  | none => rfl
  | some p =>
    rw [← h p rfl]
    rfl

section Append

variable {sha256 : Sha256} {db : Db} {record : Record} {id : Uuid}

theorem permissionRecords_upsert (values : PermissionRow) (h : record.action = .agentModelPermissionSet) :
    permissionRecords ((db.upsertPermission values).appendAudit record) id =
      permissionRecords db id ++ if record.resourceId = id then [record] else [] := by
  have hone : [record].filter (fun r => r.About .agentModelPermissionSet id) =
      if record.resourceId = id then [record] else [] := by
    by_cases hid : record.resourceId = id <;> simp [Record.About, h, hid]
  rw [← hone]
  exact List.filter_append ..

theorem mem_upsertPermission {values r : PermissionRow} : r ∈ (db.upsertPermission values).permissions ↔
    r = (db.permissions.find? values.subject).elim values (·.set values) ∨
      (r ∈ db.permissions ∧ r.subject ≠ values.subject) := by
  have hsubject : ((db.permissions.find? values.subject).elim values (·.set values)).subject =
      values.subject := by
    cases hfound : db.permissions.find? values.subject with
    | none => rfl
    | some row => exact (Table.find?_some hfound).2
  rw [Table.mem_iff_find?, Table.mem_iff_find?]
  show (db.upsertPermission values).permissions.find? r.subject = some r ↔ _ ∨
    (db.permissions.find? r.subject = some r ∧ _)
  rw [find?_upsertPermission]
  by_cases hr : r.subject = values.subject
  · rw [if_pos hr, hr]
    simp [eq_comm]
  · rw [if_neg hr]
    have hne : r ≠ (db.permissions.find? values.subject).elim values (·.set values) := fun heq =>
      hr (heq ▸ hsubject)
    simp [hr, hne]

/-- A record that takes up the effect of the row that its upsert has found. -/
theorem Audited.upsert {values : PermissionRow} (h : Audited sha256 db)
    (hfresh : db.permissions.find? values.subject = none → ∀ r ∈ db.permissions, r.id ≠ values.id)
    (haction : record.action = .agentModelPermissionSet)
    (hresource : record.resourceId =
      ((db.permissions.find? values.subject).elim values (·.set values)).id)
    (hbefore : record.beforeFingerprint =
      (db.permissions.find? values.subject).map (·.fingerprint sha256))
    (hafter : record.afterFingerprint = some
      (((db.permissions.find? values.subject).elim values (·.set values)).fingerprint sha256)) :
    Audited sha256 ((db.upsertPermission values).appendAudit record) := by
  have hother : ∀ r ∈ db.permissions, r.subject ≠ values.subject → r.id ≠ record.resourceId := by
    intro r hr hne
    rw [hresource]
    cases hfound : db.permissions.find? values.subject with
    | none => exact hfresh hfound r hr
    | some row =>
      obtain ⟨hrow, hkey⟩ := Table.find?_some hfound
      exact fun hid => hne (h.unique r hr row hrow hid ▸ hkey)
  refine ⟨fun r hr r' hr' hid => ?_, fun record' hrecord' haction' => ?_, fun r hr => ?_⟩
  · obtain rfl | ⟨hr, hne⟩ := mem_upsertPermission.mp hr <;>
      obtain rfl | ⟨hr', hne'⟩ := mem_upsertPermission.mp hr'
    · rfl
    · exact absurd (hresource.trans hid).symm (hother r' hr' hne')
    · exact absurd (hid.trans hresource.symm) (hother r hr hne)
    · exact h.unique r hr r' hr' hid
  · rcases List.mem_append.mp hrecord' with hold | hnew
    · obtain ⟨r, hr, hid⟩ := h.known record' hold haction'
      obtain ⟨r', hr', hid', _⟩ := (later_upsertPermission values).permissions r.subject r
        (Table.mem_iff_find?.mp hr)
      exact ⟨r', (Table.find?_some hr').1, hid'.trans hid⟩
    · obtain rfl := List.mem_singleton.mp hnew
      exact ⟨_, mem_upsertPermission.mpr (.inl rfl), hresource.symm⟩
  · rw [permissionRecords_upsert values haction]
    obtain rfl | ⟨hr, hne⟩ := mem_upsertPermission.mp hr
    · rw [← hresource, if_pos rfl, ← hafter]
      refine Chain.snoc ?_ hbefore
      rw [hresource]
      cases hfound : db.permissions.find? values.subject with
      | none =>
        have hnone : permissionRecords db values.id = [] := by
          refine List.filter_eq_nil_iff.mpr fun record' hrecord' habout => ?_
          obtain ⟨haction', hid'⟩ := of_decide_eq_true habout
          obtain ⟨r, hr, hid⟩ := h.known record' hrecord' haction'
          exact hfresh hfound r hr (hid.trans hid')
        show Chain none (permissionRecords db values.id) none
        rw [hnone]
        rfl
      | some row => exact h.chained row (Table.find?_some hfound).1
    · rw [if_neg fun heq => hother r hr hne heq.symm, List.append_nil]
      exact h.chained r hr

end Append

/-! ## Runs -/

/-- An upsert finds the effect that its command has read. -/
def Unchanged (tr : List Label) (c : Config) (l : Label) (_ : Config) : Prop :=
  ∀ i p effective previous, l = ⟨i, ⟨.sql (.permissionsSet p), .ok effective⟩⟩ →
    ⟨i, ⟨.sql (.getEffective p.subject), .ok previous⟩⟩ ∈ tr →
    previous.map (·.effect) = (c.world.db.permissions.find? p.subject).map (·.effect)

section Runs

variable {s : Service} {requests : Tid → Request} {tr : List Label} {c : Config}

/-- A commit keeps the records chained, where the upsert found what its command had read. -/
theorem Audited.commit {r : Request} {evs : List Event} {db db' : Db} (h : Audited s.sha256 db)
    (hread : ∀ x p previous effective y, evs = x ++ ⟨.sql (.permissionsSet p), .ok effective⟩ :: y →
      (∀ e ∈ y, e.op ≠ .commit ∧ e.op ≠ .rollback) →
      ⟨.sql (.getEffective p.subject), .ok previous⟩ ∈ x →
      previous.map (·.effect) = (db.permissions.find? p.subject).map (·.effect))
    (hc : Commit s r evs db db') : Audited s.sha256 db' := by
  cases hc with
  | createTenant | registerAgent | registerModel | decide | conclude =>
    exact ⟨h.unique, h.known, h.chained⟩
  | @setPermission env principalId subject effect _ _ before now previous proposed effective record
      hevs _ hfound hmade _ hfresh hstored hrecord =>
    obtain ⟨hproposed, _⟩ := proposed_ok hmade
    obtain ⟨_, haction, _, hresource, _, hbefore, hafter⟩ := Record.new_ok hrecord
    obtain ⟨hid, hsubject, heffect⟩ := permissionFromRow_eq hstored
    have hprevious := hread (before ++ [⟨.sql .clock, .ok now⟩, ⟨.sql (.getEffective subject), .ok previous⟩])
      proposed previous effective [⟨.sql (.auditsAppend record), .ok ()⟩]
      (by rw [hevs, List.append_assoc]; rfl) (by simp) (by simp [hproposed])
    rw [hproposed] at hprevious
    refine h.upsert hfresh haction (hresource.trans hid) ?_ (hafter.trans ?_)
    · rw [hbefore, fingerprint_read s.sha256 hfound, hprevious, Option.map_map]
      refine Option.map_congr fun row hrow => ?_
      obtain rfl : row.subject = subject := (Table.find?_some hrow).2
      rfl
    · show some (effectFingerprint s.sha256 effective.subject effective.effect) = _
      rw [hsubject, heffect]
      rfl

/-- From the empty database, whatever requests are interleaved: where every upsert finds the
    effect that its command has read, the records of each permission chain up to its row. -/
theorem permission_records_chain (s : Service) (requests : Tid → Request) (tr : List Label) (c : Config)
    (h : RunWhere database.exec Unchanged [] ⟨World.ofDb Db.empty, fun i => s.program (requests i)⟩ tr c) :
    Audited s.sha256 c.world.db := by
  induction h with
  | nil => exact .empty _
  | @snoc tr c l c' h hs _ ih =>
    obtain hdb | ⟨_, hc⟩ := step_cases h.run hs
    · rw [hdb]
      exact ih
    · refine ih.commit (fun x p previous effective y hown hy hread => ?_) hc
      obtain ⟨tr₁, tr₂, c₁, c₂, _, _, hown₁, hunchanged, hsame⟩ :=
        upsert_before (fun _ _ _ => rfl) h hown hy
      rw [hsame]
      exact hunchanged l.tid p effective previous rfl (mem_own.mp (hown₁ ▸ hread))

end Runs

/-! ## Two commands -/

/-- A tenant with an Agent and a Model, and then commands for their permission. -/
def exampleRequests : Tid → Request
  | 0 => .createTenant ⟨1, 0⟩ "Tenant"
  | 1 => .registerAgent ⟨2, 0⟩ ⟨1, "Agent"⟩
  | 2 => .registerModel ⟨3, 0⟩ ⟨1, "Model", .openai, "gpt"⟩
  | i + 3 => (examplePuts i).request exampleSubject

/-- `Unchanged`. -/
def unchanged (tr : List Label) (c : Config) (l : Label) : Bool :=
  match l with
  | ⟨i, ⟨.sql (.permissionsSet p), .ok _⟩⟩ => tr.all fun
    | ⟨j, ⟨.sql (.getEffective subject), .ok previous⟩⟩ => !(j == i) || !(subject == p.subject) ||
        previous.map (·.effect) == (c.world.db.permissions.find? p.subject).map (·.effect)
    | _ => true
  | _ => true

theorem unchanged_sound (tr : List Label) (c : Config) (l : Label) (c' : Config)
    (h : unchanged tr c l = true) : Unchanged tr c l c' := by
  rintro i p effective previous rfl hread
  simpa using List.all_eq_true.mp h _ hread

/-- The assets are registered, and both commands have read the clock. -/
def exampleTurns : List (Tid × Choice) :=
  turns 0 3 0 ++ turns 1 5 0 ++ turns 2 5 0 ++
    turns 3 7 10 ++ turns 4 7 20

theorem permission_records_chain_two : ∃ (tr : List Label) (c : Config), committed 3 ∈ tr ∧ committed 4 ∈ tr ∧
    Audited exampleControlPlane.sha256 c.world.db := by
  obtain ⟨tr, c, hrun, ht⟩ : ∃ tr c, RunWhere database.exec Unchanged []
      ⟨World.ofDb Db.empty, fun i => exampleControlPlane.program (exampleRequests i)⟩ tr c ∧
      (tr.any (isCommit 3) && tr.any (isCommit 4)) = true :=
    scheduleWhere_any unchanged_sound [] _
      (exampleTurns ++ turns 3 5 20 ++ turns 4 5 20)
      (fun (tr, _) => tr.any (isCommit 3) && tr.any (isCommit 4)) (by decide +kernel)
  simp only [Bool.and_eq_true, List.any_eq_true] at ht
  obtain ⟨⟨l₃, hl₃, h₃⟩, l₄, hl₄, h₄⟩ := ht
  exact ⟨tr, c, eq_committed h₃ ▸ hl₃, eq_committed h₄ ▸ hl₄,
    permission_records_chain _ _ _ _ hrun⟩

/-- The records of the permission do not chain up to its row. -/
def unchained (sha256 : Sha256) (db : Db) : Bool :=
  db.permissions.rows.any fun row =>
    !decide (Chain none (permissionRecords db row.id) (some (row.fingerprint sha256)))

/-- Both commands read that there is no permission. The second one updates what the first has
    created, and its record says that there was nothing before. -/
theorem permission_records_unchained : ∃ (tr : List Label) (c : Config), Run database.exec
    ⟨World.ofDb Db.empty, fun i => exampleControlPlane.program (exampleRequests i)⟩ tr c ∧
    committed 3 ∈ tr ∧ committed 4 ∈ tr ∧ ∃ row ∈ c.world.db.permissions,
      ¬Chain none (permissionRecords c.world.db row.id)
        (some (row.fingerprint exampleControlPlane.sha256)) := by
  obtain ⟨tr, c, hrun, ht⟩ := schedule_any database.exec
    ⟨World.ofDb Db.empty, fun i => exampleControlPlane.program (exampleRequests i)⟩
    (exampleTurns ++ turns 3 1 20 ++ turns 4 1 20 ++
      turns 3 4 20 ++ turns 4 4 20)
    (fun (tr, c) => tr.any (isCommit 3) && tr.any (isCommit 4) &&
      unchained exampleControlPlane.sha256 c.world.db) (by decide +kernel)
  simp only [Bool.and_eq_true, List.any_eq_true] at ht
  obtain ⟨⟨⟨l₃, hl₃, h₃⟩, l₄, hl₄, h₄⟩, hun⟩ := ht
  obtain ⟨row, hrow, hchain⟩ := List.any_eq_true.mp hun
  exact ⟨tr, c, hrun, eq_committed h₃ ▸ hl₃, eq_committed h₄ ▸ hl₄, row, hrow, by simpa using hchain⟩

end Valor.ControlPlane
