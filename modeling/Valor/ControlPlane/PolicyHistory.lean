/-
  The control plane: decisions, told from the history of the permission.

  The history of a subject are the commands for it that have committed, in their order. The
  stored permission has the effect of the last one, and the id and creation of the first
  (`Stored`). A decision is made of the permission as it was read, so it is told from the
  history at that moment (`default_deny`).
-/
import Valor.ControlPlane.PermissionAudit

namespace Valor.ControlPlane

open Python Postgres ManagementAudit IdentityTenancy AssetRegistry PolicyRisk RuntimeGateway
  Prog Interleave ReadCommitted

/-! ## Histories -/

/-- A command that has committed: the id it would create, and the effect it sets. -/
structure CommittedPut where
  tid : Tid
  permissionId : Uuid
  effect : PolicyEffect
  deriving DecidableEq

/-- The command for the subject that the operation commits. -/
def putOf (requests : Tid → Request) (subject : Subject) (l : Label) : Option CommittedPut :=
  match requests l.tid with
  | .setPermission env _ subject' effect =>
      if subject' = subject ∧ isCommit l.tid l then some ⟨l.tid, env.permissionId, effect⟩ else none
  | _ => none

/-- The commands for the subject that have committed. -/
def history (requests : Tid → Request) (subject : Subject) (tr : List Label) : List CommittedPut :=
  tr.filterMap (putOf requests subject)

section History

variable {requests : Tid → Request} {subject : Subject} {tr : List Label} {l : Label}

theorem history_snoc : history requests subject (tr ++ [l]) =
    history requests subject tr ++ (putOf requests subject l).toList := by
  rw [history, List.filterMap_append]
  congr 1

/-- Only commits of commands for the subject count. -/
theorem putOf_eq_none (h : ∀ env principalId effect,
    requests l.tid = .setPermission env principalId subject effect → l ≠ committed l.tid) :
    putOf requests subject l = none := by
  unfold putOf
  split
  · next env principalId subject' effect hrequest =>
    refine if_neg fun ⟨hsubject, hcommit⟩ => ?_
    subst hsubject
    exact h env principalId effect hrequest (eq_committed hcommit)
  · rfl

theorem putOf_committed {i : Tid} {env : PermissionEnv} {principalId : Uuid} {effect : PolicyEffect}
    (h : requests i = .setPermission env principalId subject effect) :
    putOf requests subject (committed i) = some ⟨i, env.permissionId, effect⟩ := by
  have hrequest : requests (committed i : Label).tid = .setPermission env principalId subject effect := h
  unfold putOf
  rw [hrequest]
  exact if_pos ⟨rfl, by simp [isCommit, committed]⟩

end History

/-! ## The stored permission -/

/-- The permission of every subject is what its history says. -/
structure Stored (requests : Tid → Request) (tr : List Label) (db : Db) : Prop where
  effect : ∀ subject, (db.permissions.find? subject).map (·.effect) =
    (history requests subject tr).getLast?.map (·.effect)
  id : ∀ subject, (db.permissions.find? subject).map (·.id) =
    (history requests subject tr).head?.map (·.permissionId)
  created : ∀ subject row put, db.permissions.find? subject = some row →
    (history requests subject tr).head? = some put → clockRead put.tid row.createdAt ∈ tr

section Stored

variable {s : Service} {requests : Tid → Request} {tr : List Label} {db db' : Db} {l : Label}

/-- A step that changes no permission. -/
theorem Stored.next (h : Stored requests tr db) (hdb : db'.permissions = db.permissions)
    (hl : ∀ subject, putOf requests subject l = none) : Stored requests (tr ++ [l]) db' := by
  have hsame : ∀ subject, history requests subject (tr ++ [l]) = history requests subject tr :=
    fun subject => by simp [history_snoc, hl]
  refine ⟨fun subject => ?_, fun subject => ?_, fun subject row put hrow hput => ?_⟩
  · rw [hdb, hsame]
    exact h.effect subject
  · rw [hdb, hsame]
    exact h.id subject
  · rw [hdb] at hrow
    rw [hsame] at hput
    exact List.mem_append_left _ (h.created subject row put hrow hput)

/-- A command commits: the permission of its subject keeps id and creation, if it is there. -/
theorem Stored.put {i : Tid} {env : PermissionEnv} {principalId : Uuid} {subject : Subject}
    {effect : PolicyEffect} {now : Utc} (h : Stored requests tr db)
    (hrequest : requests i = .setPermission env principalId subject effect)
    (hread : clockRead i now ∈ tr) :
    Stored requests (tr ++ [committed i])
      (db.upsertPermission ⟨env.permissionId, subject, effect, now, now⟩) := by
  have hother : ∀ k, k ≠ subject → putOf requests k (committed i) = none := fun k hk =>
    putOf_eq_none fun env' principalId' effect' hrequest' => by
      rw [show (committed i : Label).tid = i from rfl, hrequest] at hrequest'
      cases hrequest'
      exact absurd rfl hk
  have hempty : db.permissions.find? subject = none → history requests subject tr = [] := fun hnone => by
    have hid := h.id subject
    rw [hnone] at hid
    exact List.head?_eq_none_iff.mp (Option.map_eq_none_iff.mp hid.symm)
  refine ⟨fun k => ?_, fun k => ?_, fun k row put hrow hput => ?_⟩ <;>
    by_cases hk : k = subject
  · subst hk
    rw [find?_upsertPermission, if_pos rfl, history_snoc, putOf_committed hrequest]
    cases db.permissions.find? k <;> simp [PermissionRow.set]
  · rw [find?_upsertPermission, if_neg hk, history_snoc, hother k hk]
    simpa using h.effect k
  · subst hk
    rw [find?_upsertPermission, if_pos rfl, history_snoc, putOf_committed hrequest]
    cases hfound : db.permissions.find? k with
    | none => simp [hempty hfound]
    | some row =>
      have hid := h.id k
      rw [hfound] at hid
      obtain ⟨put, hput, hid'⟩ := Option.map_eq_some_iff.mp hid.symm
      rw [List.head?_append, hput]
      exact congrArg some hid'.symm
  · rw [find?_upsertPermission, if_neg hk, history_snoc, hother k hk]
    simpa using h.id k
  · subst hk
    rw [find?_upsertPermission, if_pos rfl] at hrow
    rw [history_snoc, putOf_committed hrequest] at hput
    refine List.mem_append_left _ ?_
    cases hfound : db.permissions.find? k with
    | none =>
      rw [hempty hfound] at hput
      rw [hfound] at hrow
      cases hput
      cases hrow
      exact hread
    | some old =>
      have hid := h.id k
      rw [hfound] at hid
      obtain ⟨first, hfirst, _⟩ := Option.map_eq_some_iff.mp hid.symm
      rw [List.head?_append, hfirst] at hput
      rw [hfound] at hrow
      cases hput
      cases hrow
      exact h.created k old put hfound hfirst
  · rw [find?_upsertPermission, if_neg hk] at hrow
    rw [history_snoc, hother k hk, Option.toList_none, List.append_nil] at hput
    exact List.mem_append_left _ (h.created k row put hrow hput)

theorem stored_of_run {c : Config} (h : RunFrom s requests Db.empty tr c) :
    Stored requests tr c.world.db := by
  unfold RunFrom at h
  induction h with
  | nil => exact ⟨fun _ => rfl, fun _ => rfl, fun _ _ _ h => nomatch h⟩
  | @snoc c c' tr l h hs ih =>
    obtain ⟨hl, hc, hdb⟩ | ⟨hl, hdb⟩ := (step_commits h hs).label_cases
    · rw [hdb, db_commit]
      have hc : Commit s (requests l.tid) (own l.tid tr) c.world.db (c.world.view l.tid) := hc
      generalize c.world.view l.tid = db' at hc ⊢
      generalize hrequest : requests l.tid = request at hc
      have hnone : ∀ subject, (∀ env principalId effect,
          request ≠ .setPermission env principalId subject effect) →
          putOf requests subject l = none := fun subject hne =>
        putOf_eq_none fun env principalId effect heq => absurd (hrequest ▸ heq) (hne env principalId effect)
      generalize hown : own l.tid tr = evs at hc
      cases hc with
      | createTenant | registerAgent | registerModel | decide | conclude =>
        exact ih.next rfl fun subject => hnone subject fun _ _ _ heq => nomatch heq
      | @setPermission env principalId subject effect _ _ before now previous proposed effective record
          hevs _ _ _ _ _ _ _ =>
        have hread : clockRead l.tid now ∈ tr := mem_own.mp (by rw [hown, hevs]; simp)
        have hput := ih.put hrequest hread
        rw [hl]
        exact ⟨hput.effect, hput.id, hput.created⟩
    · exact ih.next (congrArg Db.permissions hdb) fun _ => putOf_eq_none fun _ _ _ _ => hl _

end Stored

/-! ## Decisions -/

/-- The request has read the permission when the trace was `tr₁`, and decided by the history. -/
structure DecidedBy (requests : Tid → Request) (tr : List Label) (d : DecisionRow) (i : Tid)
    (tr₁ : List Label) (permission : Option AgentModelPermission) : Prop where
  request : ∃ env decisionEnv command, requests i = .createInvocation env decisionEnv command ∧
    d.id = decisionEnv.decisionId ∧ d.invocationId = env.invocationId ∧ d.subject = subjectOf command
  reading : ∃ tr₂, tr = tr₁ ++ ⟨i, ⟨.sql (.getEffective d.subject), .ok permission⟩⟩ :: tr₂
  allows : d.effect = .allow ↔
    ∃ put, (history requests d.subject tr₁).getLast? = some put ∧ put.effect = .allow
  permissionId : d.permissionId = (history requests d.subject tr₁).head?.map (·.permissionId)

theorem getEffective_row {db : Db} {subject : Subject} {found : Option AgentModelPermission}
    (h : db.getEffective subject = .ok found) :
    found.map (·.id) = (db.permissions.find? subject).map (·.id) ∧
      found.map (·.effect) = (db.permissions.find? subject).map (·.effect) := by
  unfold Db.getEffective at h
  split at h
  · next hnone =>
    cases h
    rw [hnone]
    exact ⟨rfl, rfl⟩
  · next row hrow =>
    cases hp : permissionFromRow row with
    | error e =>
      rw [hp] at h
      cases h
    | ok p =>
      rw [hp] at h
      cases h
      obtain ⟨hid, _, heffect⟩ := permissionFromRow_eq hp
      rw [hrow]
      exact ⟨congrArg some hid, congrArg some heffect⟩

/-- What the adapter returns to the handler is of the decision that it has committed. -/
theorem decide_returns {settings : RuntimeSettings} {env : DecisionEnv}
    {invocationId tenantId agentId modelId : Uuid} {evs : List Event} {decision : RuntimePolicyDecision}
    (h : Path (port settings env (.decide invocationId tenantId agentId modelId)) evs (.ret decision)) :
    ∃ d : PolicyDecision, ⟨.sql (.decisionsAdd d), .ok ()⟩ ∈ evs ∧ ⟨.commit, .ok ()⟩ ∈ evs ∧
      d.subject = ⟨tenantId, agentId, modelId⟩ ∧
      decision = ⟨d.id, d.effect.value, d.permissionId⟩ := by
  obtain ⟨evs₁, evs₂, d, rfl, hd, hret⟩ := Path.bind_ret h
  cases (path_ret hret).2
  obtain ⟨evs₃, _, rfl, hbody⟩ := Path.andFinally_ret hd
  obtain ⟨permission, evs₄, rfl, hread⟩ := Path.perform_ret hbody
  obtain ⟨evs₅, evs₆, made, rfl, hmade, hmore⟩ := Path.bind_ret hread
  obtain ⟨_, evs₇, rfl, hadded⟩ := Path.perform_ret hmore
  obtain ⟨_, evs₈, rfl, hcommitted⟩ := Path.perform_ret hadded
  cases (path_ret hcommitted).2
  refine ⟨d, by simp, by simp, ?_, rfl⟩
  unfold orValueError lift at hmade
  split at hmade
  · next made' hof =>
    cases (path_ret hmade).2
    exact (ofPermission_made hof).2.2.1
  · cases (path_raise hmade).2

section Runs

variable {s : Service} {requests : Tid → Request} {tr : List Label} {c : Config}

theorem DecidedBy.next {d : DecisionRow} {i : Tid} {tr₁ : List Label}
    {permission : Option AgentModelPermission} (h : DecidedBy requests tr d i tr₁ permission) (l : Label) :
    DecidedBy requests (tr ++ [l]) d i tr₁ permission := by
  obtain ⟨tr₂, rfl⟩ := h.reading
  exact ⟨h.request, ⟨tr₂ ++ [l], by simp⟩, h.allows, h.permissionId⟩

/-- Every stored decision is told from the history at the moment of its reading. -/
theorem decided_of_run (h : RunFrom s requests Db.empty tr c) : ∀ d ∈ c.world.db.decisions,
    ∃ i tr₁ permission, DecidedBy requests tr d i tr₁ permission := by
  unfold RunFrom at h
  induction h with
  | nil => exact fun d hd => absurd hd (Table.not_mem_empty d)
  | @snoc c c' tr l h hs ih =>
    have hold : ∀ d ∈ c.world.db.decisions,
        ∃ i tr₁ permission, DecidedBy requests (tr ++ [l]) d i tr₁ permission := fun d hd => by
      obtain ⟨i, tr₁, permission, hd⟩ := ih d hd
      exact ⟨i, tr₁, permission, hd.next l⟩
    obtain hdb | ⟨_, hc⟩ := step_cases h hs
    · rw [hdb]
      exact hold
    · generalize hrequest : requests l.tid = request at hc
      generalize hown : own l.tid tr = evs at hc
      generalize c'.world.db = db' at hc ⊢
      cases hc with
      | createTenant | registerAgent | registerModel | setPermission | conclude => exact hold
      | @decide env decisionEnv command _ _ before permission decision row hevs hreading _ hmade hrow _ =>
        intro d hd
        rcases Table.mem_insert.mp hd with hd | ⟨rfl, _⟩
        · exact hold d hd
        · obtain ⟨hid, hinvocation, hsubject, hpermission, heffect⟩ := ofDecision_ok hrow
          obtain ⟨hid', hinvocation', hsubject', hpermission', heffect'⟩ := ofPermission_made hmade
          obtain ⟨tr₁, tr₂, c₁, _, rfl, hrun, _, hread⟩ := answered_query (fun _ => rfl) h
            (hown.trans hevs) fun e he => neutral_of_reads l.tid (hreading e he)
          have hstored := stored_of_run hrun
          obtain ⟨hids, heffects⟩ := getEffective_row hread
          have hd : d.subject = subjectOf command := hsubject.trans hsubject'
          refine ⟨l.tid, tr₁, permission, ⟨env, decisionEnv, command, hrequest, hid.trans hid',
            hinvocation.trans hinvocation', hd⟩, ⟨tr₂ ++ [l], by simp [hd]⟩, ?_, ?_⟩
          · rw [heffect, heffect', heffects, hd, hstored.effect]
            cases (history requests (subjectOf command) tr₁).getLast? <;> simp
          · rw [hpermission, hpermission', hids, hd, hstored.id]

theorem RunFrom.later_of {tr₁ tr₂ : List Label} {db₀ : Db} {c₁ : Config}
    (h₁ : RunFrom s requests db₀ tr₁ c₁) (h₂ : Run database.exec c₁ tr₂ c) :
    Later c₁.world.db c.world.db := by
  suffices RunFrom s requests db₀ (tr₁ ++ tr₂) c ∧ Later c₁.world.db c.world.db from this.2
  induction h₂ with
  | nil => exact ⟨(List.append_nil tr₁).symm ▸ h₁, .refl _⟩
  | @snoc c c' tr l _ hs ih =>
    have hrun := ih.1
    refine ⟨List.append_assoc .. ▸ Run.snoc hrun hs, ?_⟩
    obtain hdb | ⟨_, hc⟩ := step_cases hrun hs
    · rw [hdb]
      exact ih.2
    · exact ih.2.trans hc.later

/-- From the empty database, whatever requests are interleaved: a decision allows if and only if
    the last command for its subject that had committed when the permission was read did, and
    it names the permission that the first one has created, which keeps id and creation. The
    handler gets that effect. -/
theorem default_deny (s : Service) (requests : Tid → Request) (tr : List Label) (c : Config)
    (h : RunFrom s requests Db.empty tr c) :
    (∀ d ∈ c.world.db.decisions, ∃ i tr₁ permission, DecidedBy requests tr d i tr₁ permission) ∧
    Stored requests tr c.world.db ∧
    (∀ tr₁ tr₂ c₁ subject row, RunFrom s requests Db.empty tr₁ c₁ → Run database.exec c₁ tr₂ c →
      c₁.world.db.permissions.find? subject = some row →
      ∃ row', c.world.db.permissions.find? subject = some row' ∧ row'.id = row.id ∧
        row'.createdAt = row.createdAt) ∧
    ∀ env invocationId tenantId agentId modelId evs decision,
      Path (port s.settings env (.decide invocationId tenantId agentId modelId)) evs (.ret decision) →
      ∃ d : PolicyDecision, ⟨.sql (.decisionsAdd d), .ok ()⟩ ∈ evs ∧ ⟨.commit, .ok ()⟩ ∈ evs ∧
        d.subject = ⟨tenantId, agentId, modelId⟩ ∧
        decision = ⟨d.id, d.effect.value, d.permissionId⟩ :=
  ⟨decided_of_run h, stored_of_run h,
    fun _ _ _ subject row h₁ h₂ hrow => (h₁.later_of h₂).permissions subject row hrow,
    fun _ _ _ _ _ _ _ => decide_returns⟩

end Runs

/-! ## Two requests -/

def exampleCommand : CreateInvocationCommand := ⟨"caller", 1, 2, 3, "hello", 1000, 100⟩

/-- The assets, a command that allows, and requests for Invocations. -/
def exampleEvaluations : Tid → Request
  | 3 => (examplePuts 0).request exampleSubject
  | 4 => .createInvocation ⟨30, 40, 50⟩ ⟨60, 35⟩ exampleCommand
  | 5 => .createInvocation ⟨30, 40, 51⟩ ⟨61, 35⟩ exampleCommand
  | i => exampleRequests i

/-- The effect and the permission of the stored decision. -/
def decisionOf (decisionId : Uuid) (db : Db) : Option (PolicyEffect × Option Uuid) :=
  (db.decisions.find? decisionId).map fun d => (d.effect, d.permissionId)

/-- One request reads the permission before the command commits, and one after it. -/
theorem default_deny_two : ∃ (tr : List Label) (c : Config),
    decisionOf 60 c.world.db = some (.deny, none) ∧ decisionOf 61 c.world.db = some (.allow, some 10) ∧
    ∀ d ∈ c.world.db.decisions, ∃ i tr₁ permission, DecidedBy exampleEvaluations tr d i tr₁ permission := by
  obtain ⟨tr, c, hrun, ht⟩ := schedule_any database.exec
    ⟨World.ofDb Db.empty, fun i => exampleControlPlane.program (exampleEvaluations i)⟩
    (turns 0 3 0 ++ turns 1 5 0 ++ turns 2 5 0 ++
      turns 3 9 10 ++ turns 4 7 20 ++ turns 3 3 20 ++
      turns 4 3 20 ++ turns 5 10 20)
    (fun (_, c) => decide (decisionOf 60 c.world.db = some (.deny, none)) &&
      decide (decisionOf 61 c.world.db = some (.allow, some 10))) (by decide +kernel)
  simp only [Bool.and_eq_true, decide_eq_true_eq] at ht
  exact ⟨tr, c, ht.1, ht.2, (default_deny _ _ _ _ hrun).1⟩

end Valor.ControlPlane
