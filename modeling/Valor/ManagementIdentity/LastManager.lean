/-
  The guard of the last recoverable manager.
-/
import Valor.ManagementIdentity.Service

namespace Valor.ManagementIdentity

open Python ManagementAudit Prog Interleave ReadCommitted

/-! ## Who can still authenticate -/

def UsableCredential (c : ManagementCredentialRow) (at' : Utc) : Prop :=
  c.revokedAt = none ∧ ∀ e ∈ c.expiresAt, at'.instant < e.instant

def ActiveManager (p : ManagementPrincipalRow) : Prop :=
  p.disabledAt = none ∧ p.canManagePrincipals = true

/-- An active manager with a credential usable at `at'`. -/
def Recoverable (db : Db) (at' : Utc) (p : ManagementPrincipalRow) : Prop :=
  ActiveManager p ∧ ∃ c ∈ db.credentials, c.principalId = p.principalId ∧ UsableCredential c at'

def RecoverableManager (db : Db) (at' : Utc) : Prop := ∃ p ∈ db.principals, Recoverable db at' p

/-- A recoverable manager other than the principal `excluded`. -/
def OtherManager (db : Db) (at' : Utc) (excluded : Uuid) : Prop :=
  ∃ p ∈ db.principals, p.principalId ≠ excluded ∧ Recoverable db at' p

/-- A usable credential of the principal other than the credential `excluded`. -/
def OtherCredential (db : Db) (at' : Utc) (principalId excluded : Uuid) : Prop :=
  ∃ c ∈ db.credentials, c.principalId = principalId ∧ c.credentialId ≠ excluded ∧
    UsableCredential c at'

theorem recoverableRow_iff {db : Db} {now : Utc} {p : ManagementPrincipalRow} :
    db.recoverableRow now p = true ↔ Recoverable db now p := by
  simp only [Db.recoverableRow, Recoverable, ActiveManager, UsableCredential, Bool.and_eq_true,
    Option.isNone_iff_eq_none, List.any_eq_true, decide_eq_true_eq, Option.all_eq_true,
    Option.mem_def, Table.mem_rows, and_assoc]

/-- What `has_recoverable_manager` looks at: the first row it gets. -/
theorem hasRecoverableManager_iff {db : Db} {now : Utc} {order : db.principals.RowOrder}
    {excluded : Uuid} : db.hasRecoverableManager now order (some excluded) = true ↔
      ∃ p ∈ order.rows.find? (·.principalId ≠ excluded), Recoverable db now p := by
  simp only [Db.hasRecoverableManager, Option.any_eq_true, recoverableRow_iff, Option.mem_def]

theorem find?_other {db : Db} {order : db.principals.RowOrder} {excluded : Uuid}
    {p : ManagementPrincipalRow} (h : order.rows.find? (·.principalId ≠ excluded) = some p) :
    p ∈ db.principals ∧ p.principalId ≠ excluded :=
  ⟨(order.mem p).mp (List.mem_of_find?_eq_some h), by simpa using List.find?_some h⟩

/-- A positive answer is right. -/
theorem otherManager_of_has {db : Db} {now : Utc} {order : db.principals.RowOrder} {excluded : Uuid}
    (h : db.hasRecoverableManager now order (some excluded) = true) :
    OtherManager db now excluded := by
  obtain ⟨p, hp, hr⟩ := hasRecoverableManager_iff.mp h
  obtain ⟨hmem, hne⟩ := find?_other hp
  exact ⟨p, hmem, hne, hr⟩

theorem isUsableAt_credentialFromRow {c : ManagementCredentialRow} {at' : Utc} :
    (credentialFromRow c).isUsableAt at' = true ↔ UsableCredential c at' := by
  cases hr : c.revokedAt <;> cases he : c.expiresAt <;>
    simp [Credential.isUsableAt, credentialFromRow, UsableCredential, hr, he, Aware.lt_iff]

/-! ## One transaction alone -/

/-- An operation of a transaction that runs alone and whose statements do not fail. -/
def alone (sqlNow : Utc) (order : (db : Db) → db.principals.RowOrder) (op : Op Sql)
    (w : World Db Lock) : Except Error (op.Res Sql.Res) × World Db Lock :=
  ((database fun _ => sqlNow).exec ⟨false, order⟩ 0 op w).getD (.error .database, w)

section Alone

variable {sqlNow : Utc} {order : (db : Db) → db.principals.RowOrder} {w : World Db Lock} {db : Db}

/-- The lock is free when nobody else runs, and taking it changes nothing that is read. -/
theorem alone_lockManagementState (sqlNow : Utc) (order : (db : Db) → db.principals.RowOrder)
    (db : Db) : ∃ w',
      alone sqlNow order (.sql .lockManagementState) (World.ofDb db) = (.ok (), w') ∧
        w'.view 0 = db := by
  refine ⟨_, rfl, ?_⟩
  simp [World.view, World.ofDb, Txn.idle, World.write]

theorem alone_principalsGet (hw : w.view 0 = db) (principalId : Uuid) :
    alone sqlNow order (.sql (.principalsGet principalId)) w =
      (.ok (db.getPrincipal principalId), w) := by
  subst hw
  rfl

theorem alone_credentialsGet (hw : w.view 0 = db) (credentialId : Uuid) :
    alone sqlNow order (.sql (.credentialsGet credentialId)) w =
      (.ok (db.getCredential credentialId), w) := by
  subst hw
  rfl

theorem alone_hasRecoverableManager (hw : w.view 0 = db) (excluded : Option Uuid) :
    alone sqlNow order (.sql (.hasRecoverableManager excluded)) w =
      (.ok (db.hasRecoverableManager sqlNow (order db) excluded), w) := by
  subst hw
  rfl

theorem alone_listForPrincipal (hw : w.view 0 = db) (principalId : Uuid) :
    alone sqlNow order (.sql (.listForPrincipal principalId)) w =
      (.ok (db.listForPrincipal principalId), w) := by
  subst hw
  rfl

theorem alone_error {op : Op Sql} {e : Error} (h : (alone sqlNow order op w).1 = .error e) :
    e = .database := by
  unfold alone at h
  cases hx : (database fun _ => sqlNow).exec ⟨false, order⟩ 0 op w with
  | none =>
    rw [hx] at h
    cases h
    rfl
  | some rw' =>
    obtain ⟨r, w'⟩ := rw'
    rw [hx] at h
    obtain rfl : r = .error e := h
    exact exec_error (P := (· = .database)) rfl (fun ch i q => stmt_errors sqlNow ch i q) hx

end Alone

/-! ## After the guard -/

/-- An exception that is not the guard's. -/
def NotConflict (e : Error) : Prop := e ≠ .lastPrincipalManagerConflict

theorem orValueError_notConflict {α : Type} (x : Except ValueError α) :
    (orValueError x).Raises NotConflict :=
  raises_lift (fun _ h => nomatch h) x

theorem orOverflow_notConflict {α : Type} (x : Except OverflowError α) :
    (orOverflow x).Raises NotConflict :=
  raises_lift (fun _ h => nomatch h) x

section Guard

variable (s : Service) (env : Env)

theorem auditPrincipal_notConflict (actorId : Uuid) (after : ManagementPrincipal)
    (before : Option ManagementPrincipal) (action : Action) :
    (s.auditPrincipal env actorId after before action).Raises NotConflict := by
  unfold Service.auditPrincipal
  exact Raises.bind (orValueError_notConflict _) fun _ => raises_perform _

theorem auditCredential_notConflict (actorId : Uuid) (after : ManagementCredential)
    (before : Option ManagementCredential) (action : Action) :
    (s.auditCredential env actorId after before action).Raises NotConflict := by
  unfold Service.auditCredential
  refine Raises.bind (orOverflow_notConflict _) fun _ => ?_
  refine Raises.bind (orOverflow_notConflict _) fun _ => ?_
  exact Raises.bind (orValueError_notConflict _) fun _ => raises_perform _

variable {sqlNow : Utc} {order : (db : Db) → db.principals.RowOrder} {db : Db}

theorem result_ne_conflict {α : Type} {p : Program α} (hp : p.Raises NotConflict)
    {w : World Db Lock} :
    (p.runState (alone sqlNow order) w).result ≠ .error .lastPrincipalManagerConflict := by
  intro h
  refine hp.result (fun op w e he => ?_) h rfl
  rw [alone_error he]
  exact fun h => nomatch h

/-- A guard that raises the conflict exactly when `c`, before a rest that never does. -/
theorem conflict_iff {α : Type} {c : Prop} [Decidable c] {rest : Unit → Program α}
    (hrest : ∀ u, (rest u).Raises NotConflict) {w : World Db Lock} :
    (((raiseWhen c .lastPrincipalManagerConflict).bind rest).runState (alone sqlNow order) w).result =
      .error .lastPrincipalManagerConflict ↔ c := by
  unfold raiseWhen
  by_cases hc : c
  · simp [hc]
  · simp only [hc, if_false, ret_bind, iff_false]
    exact result_ne_conflict (hrest ())

theorem getPrincipal_of_mem {p : ManagementPrincipalRow} (hp : p ∈ db.principals) :
    db.getPrincipal p.principalId = some (principalFromRow p (db.scopesOf p.principalId)) := by
  rw [Db.getPrincipal, show db.principals.find? p.principalId = some p from
    Table.mem_iff_find?.mp hp]
  rfl

theorem getCredential_of_mem {c : ManagementCredentialRow} (hc : c ∈ db.credentials) :
    db.getCredential c.credentialId = some (credentialFromRow c) := by
  rw [Db.getCredential, show db.credentials.find? c.credentialId = some c from
    Table.mem_iff_find?.mp hc]
  rfl

/-- `disable_principal` of an active manager alone: the conflict is the negative answer of
    `has_recoverable_manager`. -/
theorem disablePrincipal_result {command : DisablePrincipalCommand}
    (hactor : command.actor.canManagePrincipals) {p : ManagementPrincipalRow}
    (hp : p ∈ db.principals) (hid : p.principalId = command.principalId) (hm : ActiveManager p) :
    ((s.disablePrincipal env command).runState (alone sqlNow order) (World.ofDb db)).result =
      .error .lastPrincipalManagerConflict ↔
        db.hasRecoverableManager sqlNow (order db) (some p.principalId) = false := by
  obtain ⟨w, hlock, hw⟩ := alone_lockManagementState sqlNow order db
  set principal := principalFromRow p (db.scopesOf p.principalId) with hprincipal
  have hactive : principal.isActive = true := by
    simp [hprincipal, ManagementPrincipal.isActive, principalFromRow, hm.1]
  have hmanager : principal.canManagePrincipals = true := hm.2
  unfold Service.disablePrincipal Service.requireManager unitOfWork
  simp only [hactor, raiseWhen, Bool.not_true, Bool.false_eq_true, if_false, bind_eq, ret_bind]
  rw [runState_andFinally_result _ fun w => ⟨_, rfl⟩, sql, result_perform hlock, sql,
    result_perform ((alone_principalsGet hw _).trans (by rw [← hid, getPrincipal_of_mem hp]))]
  simp only [← hprincipal, hactive, hmanager, Bool.not_true, Bool.false_eq_true, if_false, if_true,
    ret_bind, Service.requireOtherManager, bind_eq, bind_assoc]
  rw [sql, result_perform (alone_hasRecoverableManager hw _), conflict_iff]
  · simp [principalFromRow]
  · intro _
    refine Raises.bind (orValueError_notConflict _) fun _ => ?_
    refine Raises.bind (raises_perform _) fun _ => ?_
    refine Raises.bind (auditPrincipal_notConflict ..) fun _ => ?_
    exact Raises.bind (raises_perform _) fun _ => .ret _

/-- The own credentials that `revoke_credential` counts. -/
theorem countP_usable_eq_zero (db : Db) (p c : Uuid) (now : Utc) :
    (db.listForPrincipal p).countP (fun item => item.credentialId ≠ c && item.isUsableAt now) = 0 ↔
      ¬OtherCredential db now p c := by
  simp only [List.countP_eq_zero, Db.listForPrincipal, OtherCredential, List.forall_mem_map,
    List.mem_filter, Bool.and_eq_true, isUsableAt_credentialFromRow, decide_eq_true_eq, not_exists,
    not_and, and_imp, Table.mem_rows]
  rfl

/-- `revoke_credential` of an unrevoked credential of an active manager alone: the
    conflict is the negative answer with no other usable credential of its own. -/
theorem revokeCredential_result {command : RevokeCredentialCommand}
    (hactor : command.actor.canManagePrincipals) {p : ManagementPrincipalRow}
    (hp : p ∈ db.principals) (hid : p.principalId = command.principalId) (hm : ActiveManager p)
    {c : ManagementCredentialRow} (hc : c ∈ db.credentials)
    (hcid : c.credentialId = command.credentialId) (hown : c.principalId = p.principalId)
    (hunrevoked : c.revokedAt = none) :
    ((s.revokeCredential env command).runState (alone sqlNow order) (World.ofDb db)).result =
      .error .lastPrincipalManagerConflict ↔
        db.hasRecoverableManager sqlNow (order db) (some p.principalId) = false ∧
          ¬OtherCredential db env.now p.principalId c.credentialId := by
  obtain ⟨w, hlock, hw⟩ := alone_lockManagementState sqlNow order db
  set principal := principalFromRow p (db.scopesOf p.principalId) with hprincipal
  have hactive : principal.isActive = true := by
    simp [hprincipal, ManagementPrincipal.isActive, principalFromRow, hm.1]
  have hmanager : principal.canManagePrincipals = true := hm.2
  have hrevoked : (credentialFromRow c).revokedAt.isSome = false := by
    simp [credentialFromRow, hunrevoked]
  have howner : ¬(credentialFromRow c).principalId ≠ principal.principalId := by
    simpa [credentialFromRow, hprincipal, principalFromRow] using hown
  unfold Service.revokeCredential Service.requireManager unitOfWork
  simp only [hactor, raiseWhen, Bool.not_true, Bool.false_eq_true, if_false, bind_eq, ret_bind]
  rw [runState_andFinally_result _ fun w => ⟨_, rfl⟩, sql, result_perform hlock, sql,
    result_perform ((alone_principalsGet hw _).trans (by rw [← hid, getPrincipal_of_mem hp])), sql,
    result_perform ((alone_credentialsGet hw _).trans (by rw [← hcid, getCredential_of_mem hc]))]
  simp only [← hprincipal, hactive, hmanager, hrevoked, howner, Bool.and_self,
    Bool.false_eq_true, if_false, if_true, ret_bind, Service.requireOtherUsable, bind_eq, bind_assoc]
  rw [sql, result_perform (alone_hasRecoverableManager hw _), sql,
    result_perform (alone_listForPrincipal hw _), conflict_iff]
  · have hcount := countP_usable_eq_zero db p.principalId c.credentialId env.now
    simp only [Bool.and_eq_true, Bool.not_eq_true', decide_eq_true_eq]
    exact and_congr_right fun _ => hcount
  · intro _
    refine Raises.bind (orValueError_notConflict _) fun _ => ?_
    refine Raises.bind (raises_perform _) fun _ => ?_
    refine Raises.bind (auditCredential_notConflict ..) fun _ => ?_
    exact Raises.bind (raises_perform _) fun _ => .ret _

/-- If another principal can still manage, so can the one whose row comes first. -/
def FirstRowDecides (db : Db) (now : Utc) (order : db.principals.RowOrder) (excluded : Uuid) : Prop :=
  OtherManager db now excluded →
    ∃ p ∈ order.rows.find? (·.principalId ≠ excluded), Recoverable db now p

theorem has_iff_otherManager {now : Utc} {order : db.principals.RowOrder} {excluded : Uuid} :
    (db.hasRecoverableManager now order (some excluded) = true ↔ OtherManager db now excluded) ↔
      FirstRowDecides db now order excluded := by
  refine ⟨fun h ho => hasRecoverableManager_iff.mp (h.mpr ho), fun h => ⟨otherManager_of_has, ?_⟩⟩
  exact fun ho => hasRecoverableManager_iff.mpr (h ho)

/-- The guard is exact just when the first row decides: `disable_principal` of an active
    manager raises the conflict iff no other manager is left, and `revoke_credential` of an
    unrevoked credential of one iff there is neither another manager nor another usable
    credential; the latter is exact as well whenever there is such a credential. -/
theorem lastManager_exact_iff {p : ManagementPrincipalRow} (hp : p ∈ db.principals)
    (hm : ActiveManager p) :
    (∀ command : DisablePrincipalCommand, command.actor.canManagePrincipals →
      p.principalId = command.principalId →
      ((((s.disablePrincipal env command).runState (alone sqlNow order) (World.ofDb db)).result =
          .error .lastPrincipalManagerConflict ↔ ¬OtherManager db sqlNow p.principalId) ↔
        FirstRowDecides db sqlNow (order db) p.principalId)) ∧
    (∀ command : RevokeCredentialCommand, command.actor.canManagePrincipals →
      p.principalId = command.principalId →
      ∀ c ∈ db.credentials, c.credentialId = command.credentialId →
      c.principalId = p.principalId → c.revokedAt = none →
      ((((s.revokeCredential env command).runState (alone sqlNow order) (World.ofDb db)).result =
          .error .lastPrincipalManagerConflict ↔ ¬(OtherManager db sqlNow p.principalId ∨
            OtherCredential db env.now p.principalId c.credentialId)) ↔
        FirstRowDecides db sqlNow (order db) p.principalId ∨
          OtherCredential db env.now p.principalId c.credentialId)) := by
  constructor
  · intro command hactor hid
    rw [disablePrincipal_result s env hactor hp hid hm, ← has_iff_otherManager]
    cases db.hasRecoverableManager sqlNow (order db) (some p.principalId) <;> simp
  · intro command hactor hid c hc hcid hown hunrevoked
    rw [revokeCredential_result s env hactor hp hid hm hc hcid hown hunrevoked,
      ← has_iff_otherManager]
    cases db.hasRecoverableManager sqlNow (order db) (some p.principalId) <;> simp <;> tauto

end Guard

/-! ## A non-manager whose row comes first -/

def epoch : Utc := 0

def principalRow (principalId : Uuid) (canManagePrincipals : Bool) : ManagementPrincipalRow :=
  ⟨principalId, "ops", canManagePrincipals, epoch, none, by rfl⟩

def credentialRow (credentialId principalId : Uuid) : ManagementCredentialRow where
  credentialId := credentialId
  principalId := principalId
  secretVerifier := zeros
  label := none
  createdAt := epoch
  expiresAt := none
  revokedAt := none
  label_canonical := canonicalLabel_none
  label_fits := labelFits_none
  verifier_hex := isHexDigest_zeros
  expires_later := by simp

/-- A manager 1, an ordinary principal 2 and a second manager 3, in this order. -/
def threePrincipals : Db where
  principals := ⟨[principalRow 1 true, principalRow 2 false, principalRow 3 true], by decide⟩
  scopes := .empty
  credentials := ⟨[credentialRow 11 1, credentialRow 13 3], by decide⟩
  tenants := ∅
  audits := []
  evidence := .empty

def tableOrder (db : Db) : db.principals.RowOrder := ⟨db.principals.rows, .refl _⟩

def exampleService : Service := ⟨"pepper", "token", fun _ _ => zeroDigest, fun _ => zeroDigest⟩

def exampleEnv : Env := ⟨epoch, 21, 22, 23, "secret"⟩

theorem otherManager_threePrincipals : OtherManager threePrincipals epoch 1 :=
  ⟨principalRow 3 true, by simp [threePrincipals, Table.mem_rows], by decide, ⟨rfl, rfl⟩,
    credentialRow 13 3, by simp [threePrincipals, Table.mem_rows], rfl, rfl, by simp [credentialRow]⟩

/-- Principal 1 cannot be disabled, although principal 3 is a manager with a usable
    credential: the first other row is that of principal 2. -/
theorem lastManager_refuses_with_other_manager :
    ¬((((exampleService.disablePrincipal exampleEnv ⟨⟨1, true⟩, 1⟩).runState
      (alone epoch tableOrder) (World.ofDb threePrincipals)).result =
        .error .lastPrincipalManagerConflict) ↔ ¬OtherManager threePrincipals epoch 1) := by
  intro h
  exact h.mp rfl otherManager_threePrincipals

theorem lastManager_exact_iff_threePrincipals :
    ((((exampleService.disablePrincipal exampleEnv ⟨⟨1, true⟩, 1⟩).runState
        (alone epoch tableOrder) (World.ofDb threePrincipals)).result =
        .error .lastPrincipalManagerConflict ↔ ¬OtherManager threePrincipals epoch 1) ↔
      FirstRowDecides threePrincipals epoch (tableOrder threePrincipals) 1) ∧
    ((((exampleService.revokeCredential exampleEnv ⟨⟨1, true⟩, 1, 11⟩).runState
        (alone epoch tableOrder) (World.ofDb threePrincipals)).result =
        .error .lastPrincipalManagerConflict ↔ ¬(OtherManager threePrincipals epoch 1 ∨
          OtherCredential threePrincipals epoch 1 11)) ↔
      FirstRowDecides threePrincipals epoch (tableOrder threePrincipals) 1 ∨
        OtherCredential threePrincipals epoch 1 11) := by
  have hp : principalRow 1 true ∈ threePrincipals.principals := by
    simp [threePrincipals, Table.mem_rows]
  have hc : credentialRow 11 1 ∈ threePrincipals.credentials := by
    simp [threePrincipals, Table.mem_rows]
  have hm : ActiveManager (principalRow 1 true) := ⟨rfl, rfl⟩
  exact ⟨(lastManager_exact_iff exampleService exampleEnv hp hm).1 ⟨⟨1, true⟩, 1⟩ rfl rfl,
    (lastManager_exact_iff exampleService exampleEnv hp hm).2 ⟨⟨1, true⟩, 1, 11⟩ rfl rfl _ hc rfl rfl rfl⟩

end Valor.ManagementIdentity
