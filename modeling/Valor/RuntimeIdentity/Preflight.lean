/-
  The preflight predicts the bind.

  Alone on a store, both commands compute a fixed answer from it (`Db.preflightAnswer`,
  `Db.bindAnswer`), and the answers differ in the order of the checks only: a bind succeeds
  exactly if the preflight says that it is safe (`preflight_predicts_bind`). One error differs
  as well. The bind locks the legacy identity before it looks for the principal, so an
  identity that is no text of the database fails there.
-/
import Valor.RuntimeIdentity.Exclusivity

namespace Valor.RuntimeIdentity

open Python Postgres ManagementAudit Prog Interleave ReadCommitted

/-- `preflight_identity_continuity`. -/
def Service.preflightIdentityContinuity (env : Env) (command : RuntimeIdentityContinuityCommand) :
    Program RuntimeIdentityContinuityPreflight := do
  requireManager command.actor
  unitOfWork do
    let found : Option RuntimePrincipal ← sql (Sql.principalsGet command.principalId)
    let principal ← requireActive found
    continuityPreflight env principal command.legacyRuntimePrincipalId

/-- What a program returns when no other transaction is open, and the store it leaves. -/
def alone {α : Type} (p : Program α) (db : Db) : Except Error α × Db :=
  let o := p.runState (database.alone ⟨false⟩ 0) (World.ofDb db)
  (o.result, o.state.db)

theorem alone_eq {α : Type} {p : Program α} {db db' : Db} {o : Except Error α}
    (h : Ends database ⟨false⟩ 0 p (World.ofDb db) o db') : alone p db = (o, db') :=
  Prod.ext h.1 h.2

/-! ## Answers -/

namespace Db

/-- The principal, which must be there and active. -/
def activePrincipal (db : Db) (principalId : Uuid) : Except Error RuntimePrincipal :=
  match db.getPrincipal principalId with
  | none => .error .runtimePrincipalNotFound
  | some principal => do
      constraint .runtimePrincipalNotFound (principal.isActive = true)
      return principal

/-- What `_continuity_preflight` answers. -/
def continuityPreflight (db : Db) (env : Env) (principal : RuntimePrincipal) (legacyId : String) :
    Except Error RuntimeIdentityContinuityPreflight := do
  let dayEnd ← env.now.midnight.addDay.mapError fun _ => Error.overflowError
  let legacyId ← column .database (text legacyId)
  return Service.preflightOf env principal legacyId
    (db.inspectInvocations legacyId principal.principalId.str principal.tenantId principal.agentId
      env.now.midnight dayEnd)
    (db.claimed legacyId) (db.hasPotentiallyUsable principal.principalId env.now)

/-- What the preflight answers. -/
def preflightAnswer (db : Db) (env : Env) (command : RuntimeIdentityContinuityCommand) :
    Except Error RuntimeIdentityContinuityPreflight := do
  constraint .runtimePrincipalManagementDenied (command.actor.canManagePrincipals = true)
  let principal ← db.activePrincipal command.principalId
  db.continuityPreflight env principal command.legacyRuntimePrincipalId

/-- The principal that passes the checks of the bind, or the error of the first that fails. -/
def bindAnswer (db : Db) (env : Env) (command : RuntimeIdentityContinuityCommand) :
    Except Error RuntimePrincipal := do
  constraint .runtimePrincipalManagementDenied (command.actor.canManagePrincipals = true)
  let legacyId ← column .database (text command.legacyRuntimePrincipalId)
  let principal ← db.activePrincipal command.principalId
  constraint .runtimeIdentityContinuityConflict (principal.identityContinuityReady = false)
  constraint .runtimeIdentityContinuityConflict (db.claimed legacyId = false)
  let preflight ← db.continuityPreflight env principal legacyId
  constraint (.invalidRuntimeIdentityCommand "Runtime identity continuity validation did not pass.")
    (preflight.safeToBind = true)
  return principal

end Db

section Answers

variable {db : Db} {env : Env} {c : RuntimeIdentityContinuityCommand} {p : RuntimePrincipal}
  {legacyId : String} {pf : RuntimeIdentityContinuityPreflight} {e : Error}

theorem activePrincipal_ok {k : Uuid} (h : db.activePrincipal k = .ok p) :
    db.getPrincipal k = some p ∧ p.isActive = true := by
  unfold Db.activePrincipal at h
  split at h
  · cases h
  · next q hq =>
    obtain ⟨_, hactive, hp⟩ := Except.bind_ok_cases h
    cases hp
    exact ⟨hq, constraint_ok hactive⟩

theorem activePrincipal_error {k : Uuid} (h : db.activePrincipal k = .error e) :
    e = .runtimePrincipalNotFound := by
  unfold Db.activePrincipal at h
  split at h
  · cases h
    rfl
  · rcases Except.bind_error_cases h with h | ⟨_, _, h⟩
    · exact constraint_error h
    · cases h

theorem continuityPreflight_ok :
    db.continuityPreflight env p legacyId = .ok pf ↔
      hasNul legacyId = false ∧ ∃ dayEnd, env.now.midnight.addDay = .ok dayEnd ∧
        pf = Service.preflightOf env p legacyId
          (db.inspectInvocations legacyId p.principalId.str p.tenantId p.agentId env.now.midnight
            dayEnd) (db.claimed legacyId) (db.hasPotentiallyUsable p.principalId env.now) := by
  constructor
  · intro h
    obtain ⟨dayEnd, hday, hinspect⟩ := Except.bind_ok_cases h
    obtain ⟨_, htext, hpf⟩ := Except.bind_ok_cases hinspect
    obtain ⟨hnul, rfl⟩ := text_ok (column_ok htext)
    cases hpf
    exact ⟨hnul, dayEnd, Except.mapError_eq_ok.mp hday, rfl⟩
  · rintro ⟨hnul, dayEnd, hday, rfl⟩
    refine Except.bind_eq_ok (Except.mapError_eq_ok.mpr hday) (Except.bind_eq_ok ?_ rfl)
    rw [text_of hnul]
    rfl

theorem continuityPreflight_error (h : db.continuityPreflight env p legacyId = .error e) :
    e = .overflowError ∨ e = .database := by
  rcases Except.bind_error_cases h with h | ⟨_, _, h⟩
  · left
    cases hday : env.now.midnight.addDay with
    | ok dayEnd =>
      rw [hday] at h
      cases h
    | error _ =>
      rw [hday] at h
      cases h
      rfl
  · rcases Except.bind_error_cases h with h | ⟨_, _, h⟩
    · exact .inr (column_error h)
    · cases h

theorem preflightAnswer_ok (h : db.preflightAnswer env c = .ok pf) :
    c.actor.canManagePrincipals = true ∧ ∃ p, db.activePrincipal c.principalId = .ok p ∧
      db.continuityPreflight env p c.legacyRuntimePrincipalId = .ok pf := by
  obtain ⟨_, hactor, h⟩ := Except.bind_ok_cases h
  obtain ⟨p, hp, h⟩ := Except.bind_ok_cases h
  exact ⟨constraint_ok hactor, p, hp, h⟩

/-- Only a preflight that finds the identity unclaimed and the principal unbound is safe. -/
theorem free_of_safe (h : db.continuityPreflight env p legacyId = .ok pf)
    (hsafe : pf.safeToBind = true) :
    db.claimed legacyId = false ∧ p.identityContinuityReady = false := by
  obtain ⟨_, _, _, rfl⟩ := continuityPreflight_ok.mp h
  simp only [Service.preflightOf, Bool.and_eq_true, Bool.not_eq_true'] at hsafe
  obtain ⟨⟨⟨⟨⟨_, hunclaimed⟩, hunbound⟩, _⟩, _⟩, _⟩ := hsafe
  exact ⟨hunclaimed, hunbound⟩

theorem bindAnswer_ok_iff : db.bindAnswer env c = .ok p ↔
    db.activePrincipal c.principalId = .ok p ∧
      ∃ pf, db.preflightAnswer env c = .ok pf ∧ pf.safeToBind = true := by
  constructor
  · intro h
    obtain ⟨_, hactor, h⟩ := Except.bind_ok_cases h
    obtain ⟨_, htext, h⟩ := Except.bind_ok_cases h
    rw [(text_ok (column_ok htext)).2] at h
    obtain ⟨q, hq, h⟩ := Except.bind_ok_cases h
    obtain ⟨_, _, h⟩ := Except.bind_ok_cases h
    obtain ⟨_, _, h⟩ := Except.bind_ok_cases h
    obtain ⟨pf, hpf, h⟩ := Except.bind_ok_cases h
    obtain ⟨_, hsafe, h⟩ := Except.bind_ok_cases h
    cases h
    exact ⟨hq, pf, Except.bind_eq_ok hactor (Except.bind_eq_ok hq hpf), constraint_ok hsafe⟩
  · rintro ⟨hp, pf, h, hsafe⟩
    obtain ⟨hactor, q, hq, hpf⟩ := preflightAnswer_ok h
    obtain rfl : q = p := Except.ok.inj (hq.symm.trans hp)
    obtain ⟨hunclaimed, hunbound⟩ := free_of_safe hpf hsafe
    have hnul := (continuityPreflight_ok.mp hpf).1
    refine Except.bind_eq_ok (constraint_of hactor) (Except.bind_eq_ok (a := c.legacyRuntimePrincipalId) ?_ ?_)
    · rw [text_of hnul]
      rfl
    refine Except.bind_eq_ok hp (Except.bind_eq_ok (constraint_of hunbound) ?_)
    refine Except.bind_eq_ok (constraint_of hunclaimed) (Except.bind_eq_ok hpf ?_)
    exact Except.bind_eq_ok (constraint_of hsafe) rfl

theorem preflightAnswer_notFound : db.preflightAnswer env c = .error .runtimePrincipalNotFound ↔
    c.actor.canManagePrincipals = true ∧
      db.activePrincipal c.principalId = .error .runtimePrincipalNotFound := by
  constructor
  · intro h
    rcases Except.bind_error_cases h with h | ⟨_, hactor, h⟩
    · cases constraint_error h
    refine ⟨constraint_ok hactor, ?_⟩
    rcases Except.bind_error_cases h with h | ⟨_, _, h⟩
    · exact h
    · rcases continuityPreflight_error h with he | he <;> cases he
  · rintro ⟨hactor, h⟩
    unfold Db.preflightAnswer
    rw [constraint_of hactor, h]
    rfl

/-- Both look for the principal in the same way, but the bind looks at the text before. -/
theorem bindAnswer_notFound_iff : db.bindAnswer env c = .error .runtimePrincipalNotFound ↔
    db.preflightAnswer env c = .error .runtimePrincipalNotFound ∧
      hasNul c.legacyRuntimePrincipalId = false := by
  rw [preflightAnswer_notFound]
  constructor
  · intro h
    rcases Except.bind_error_cases h with h | ⟨_, hactor, h⟩
    · cases constraint_error h
    rcases Except.bind_error_cases h with h | ⟨_, htext, h⟩
    · cases column_error h
    obtain ⟨hnul, heq⟩ := text_ok (column_ok htext)
    refine ⟨⟨constraint_ok hactor, ?_⟩, hnul⟩
    rcases Except.bind_error_cases h with h | ⟨_, _, h⟩
    · exact h
    rcases Except.bind_error_cases h with h | ⟨_, _, h⟩
    · cases constraint_error h
    rcases Except.bind_error_cases h with h | ⟨_, _, h⟩
    · cases constraint_error h
    rcases Except.bind_error_cases h with h | ⟨_, _, h⟩
    · rcases continuityPreflight_error h with he | he <;> cases he
    rcases Except.bind_error_cases h with h | ⟨_, _, h⟩
    · cases constraint_error h
    · cases h
  · rintro ⟨⟨hactor, h⟩, hnul⟩
    unfold Db.bindAnswer
    rw [constraint_of hactor, text_of hnul, h]
    rfl

end Answers

/-! ## The commands alone -/

section Alone

variable {s : Service} {db db' : Db} {env : Env} {c : RuntimeIdentityContinuityCommand}
  {p : RuntimePrincipal} {legacyId : String} {pf : RuntimeIdentityContinuityPreflight} {e : Error}
  {i : Tid} {w : World Db Lock} {ws : List (Db → Db)} {α : Type} {o : Except Error α}

theorem ends_requireActive {found : Option RuntimePrincipal} {k : RuntimePrincipal → Program α}
    {principalId : Uuid} (hfound : db.getPrincipal principalId = found)
    (hp : db.activePrincipal principalId = .ok p) (hk : Ends database ⟨false⟩ i (k p) w o db') :
    Ends database ⟨false⟩ i ((Service.requireActive found).bind k) w o db' := by
  obtain ⟨hsome, hactive⟩ := activePrincipal_ok hp
  rw [← hfound, hsome]
  simp only [Service.requireActive, bind_eq, bind_assoc]
  exact ends_raiseWhen (by simp [hactive]) hk

theorem ends_requireActive_error {found : Option RuntimePrincipal} {k : RuntimePrincipal → Program α}
    {principalId : Uuid} (hfound : db.getPrincipal principalId = found)
    (hp : db.activePrincipal principalId = .error e) (hw : Sole i db' ws w) :
    Ends database ⟨false⟩ i ((Service.requireActive found).bind k) w (.error e) db' := by
  obtain rfl := activePrincipal_error hp
  unfold Db.activePrincipal at hp
  rw [hfound] at hp
  cases found with
  | none => exact ends_raise hw
  | some q =>
    simp only [Service.requireActive, bind_eq, bind_assoc]
    refine ends_raiseWhen_raised ?_ hw
    by_contra hactive
    dsimp only at hp
    rw [constraint_of (by simpa using hactive)] at hp
    cases hp

theorem ends_continuityPreflight {k : RuntimeIdentityContinuityPreflight → Program α}
    (hw : Sole i db ws w)
    (h : (ws.foldl (fun d f => f d) db).continuityPreflight env p legacyId = .ok pf)
    (hk : Ends database ⟨false⟩ i (k pf) w o db') :
    Ends database ⟨false⟩ i ((Service.continuityPreflight env p legacyId).bind k) w o db' := by
  obtain ⟨hnul, dayEnd, hday, rfl⟩ := continuityPreflight_ok.mp h
  have htext : column Error.database (text legacyId) = .ok legacyId :=
    congrArg (column _) (text_of hnul)
  unfold Service.continuityPreflight
  simp only [bind_eq, bind_assoc]
  refine ends_lift hday
    (ends_query rfl (stmt_inspectInvocations ..) hw (Except.bind_eq_ok htext rfl) ?_)
  refine ends_query rfl rfl hw (Except.bind_eq_ok htext rfl) (ends_query rfl rfl hw rfl hk)

theorem ends_continuityPreflight_error {k : RuntimeIdentityContinuityPreflight → Program α}
    (hw : Sole i db ws w)
    (h : (ws.foldl (fun d f => f d) db).continuityPreflight env p legacyId = .error e) :
    Ends database ⟨false⟩ i ((Service.continuityPreflight env p legacyId).bind k) w (.error e) db := by
  unfold Db.continuityPreflight at h
  unfold Service.continuityPreflight
  simp only [bind_eq, bind_assoc]
  cases hday : env.now.midnight.addDay with
  | error x =>
    rw [hday] at h
    cases h
    exact ends_lift_error rfl hw
  | ok dayEnd =>
    rw [hday] at h
    rcases Except.bind_error_cases h with h | ⟨_, _, h⟩
    · cases h
    rcases Except.bind_error_cases h with h | ⟨_, _, h⟩
    · refine ends_lift rfl (ends_query_error rfl (stmt_inspectInvocations ..) hw ?_)
      rw [h]
      rfl
    · cases h

/-- The preflight returns its answer and changes nothing. -/
theorem preflight_alone : alone (Service.preflightIdentityContinuity env c) db =
    (db.preflightAnswer env c, db) := by
  refine alone_eq ?_
  have hw : Sole 0 db [] (World.ofDb db : World Db Lock) := sole_ofDb db
  unfold Service.preflightIdentityContinuity Service.requireManager Db.preflightAnswer
  by_cases hactor : c.actor.canManagePrincipals = true
  · rw [constraint_of hactor]
    refine ends_raiseWhen (by simp [hactor]) (ends_unitOfWork (ends_query rfl rfl hw rfl ?_))
    cases hp : db.activePrincipal c.principalId with
    | error e => exact ends_requireActive_error rfl hp hw
    | ok p =>
      refine ends_requireActive rfl hp ?_
      rw [← bind_ret (Service.continuityPreflight env p c.legacyRuntimePrincipalId)]
      show Ends _ _ _ _ _ (db.continuityPreflight env p c.legacyRuntimePrincipalId) db
      cases hpf : db.continuityPreflight env p c.legacyRuntimePrincipalId with
      | error e => exact ends_continuityPreflight_error hw hpf
      | ok pf => exact ends_continuityPreflight hw hpf (yields_ret hw)
  · rw [constraint, if_neg hactor]
    exact ends_raiseWhen_raised (by simpa using hactor) hw

/-- A bind that fails a check raises its error and changes nothing. -/
theorem bindIdentityContinuity_refused (h : db.bindAnswer env c = .error e) :
    alone (s.bindIdentityContinuity env c) db = (.error e, db) := by
  refine alone_eq ?_
  have hw : Sole 0 db [] (World.ofDb db : World Db Lock) := sole_ofDb db
  unfold Service.bindIdentityContinuity Service.requireManager
  rcases Except.bind_error_cases h with h | ⟨_, hactor, h⟩
  · obtain rfl := constraint_error h
    exact ends_raiseWhen_raised (by simpa using not_of_constraint h) hw
  refine ends_raiseWhen (by simp [constraint_ok hactor]) (ends_unitOfWork ?_)
  rcases Except.bind_error_cases h with h | ⟨_, htext, h⟩
  · refine ends_change_error rfl rfl hw fun _ => ?_
    rw [h]
    rfl
  obtain rfl := (text_ok (column_ok htext)).2
  refine ends_change (r := ()) (g := id) rfl rfl hw (fun _ => Except.bind_eq_ok htext rfl) fun w hw => ?_
  refine ends_change (g := id) rfl rfl hw (fun _ => rfl) fun w hw => ?_
  rcases Except.bind_error_cases h with h | ⟨p, hp, h⟩
  · exact ends_requireActive_error rfl h hw
  refine ends_requireActive rfl hp ?_
  rcases Except.bind_error_cases h with h | ⟨_, hunbound, h⟩
  · obtain rfl := constraint_error h
    exact ends_raiseWhen_raised (by simpa using not_of_constraint h) hw
  refine ends_raiseWhen (by simp [constraint_ok hunbound]) ?_
  refine ends_query rfl rfl hw (Except.bind_eq_ok htext rfl) ?_
  rcases Except.bind_error_cases h with h | ⟨_, hunclaimed, h⟩
  · obtain rfl := constraint_error h
    exact ends_raiseWhen_raised (by simpa using not_of_constraint h) hw
  refine ends_raiseWhen (by simpa using constraint_ok hunclaimed) ?_
  rcases Except.bind_error_cases h with h | ⟨pf, hpf, h⟩
  · exact ends_continuityPreflight_error hw h
  refine ends_continuityPreflight hw hpf ?_
  rcases Except.bind_error_cases h with h | ⟨_, _, h⟩
  · obtain rfl := constraint_error h
    exact ends_raiseWhen_raised (by simpa using not_of_constraint h) hw
  · cases h

end Alone

/-! ## Binds that succeed -/

/-- The limits are what their INTEGER columns hold. -/
def RuntimePrincipalRow.LimitsFit (row : RuntimePrincipalRow) : Prop :=
  (∀ n ∈ row.dailyUsageLimitUnits, FitsInteger n) ∧ ∀ n ∈ row.perInvocationAllowanceUnits, FitsInteger n

def Db.LimitsFit (db : Db) : Prop := ∀ row ∈ db.principals, row.LimitsFit

section Columns

variable {s : Service} {env : Env} {a : Answers} {db db₀ : Db} {row : RuntimePrincipalRow}
  {p : RuntimePrincipal} {command : Command} {reply : Reply} {change : Change}
  {records : List Record} {requests : Tid → Request} {tr : List RunLabel} {c : RunConfig}

theorem fits_of_mapM {x y : Option Int} (h : x.mapM integer = .ok y) : ∀ n ∈ x, FitsInteger n := by
  rintro n rfl
  obtain ⟨_, hn, _⟩ := Except.bind_ok_cases (x := integer n) (f := fun b => .ok (some b)) h
  exact (integer_ok hn).1

theorem limitsFit_ofPrincipal (h : RuntimePrincipalRow.ofPrincipal p = .ok row) : row.LimitsFit := by
  unfold RuntimePrincipalRow.ofPrincipal at h
  split at h
  · next hdaily hallowance _ _ =>
    cases h
    exact ⟨fits_of_mapM hdaily, fits_of_mapM hallowance⟩
  · cases h

theorem limitsFit_modify {k : Uuid} {f : RuntimePrincipalRow → RuntimePrincipalRow}
    {hf : ∀ r, Keyed.key (f r) = Keyed.key r} (h : db.LimitsFit)
    (hfits : ∀ r : RuntimePrincipalRow, r.LimitsFit → (f r).LimitsFit) :
    Db.LimitsFit { db with principals := db.principals.modify k f hf } := by
  intro r hr
  obtain ⟨q, hq, rfl⟩ := (Table.mem_modify hf).mp hr
  split
  · exact hfits q (h q hq)
  · exact h q hq

theorem Does.limitsFit (hdoes : Does s env a db command reply change records) (h : db.LimitsFit) :
    (change.apply db).LimitsFit := by
  cases hdoes with
  | created _ _ _ _ _ row_ok =>
    intro r hr
    rcases Table.mem_insert.mp hr with hr | ⟨rfl, _⟩
    · exact h r hr
    · exact limitsFit_ofPrincipal row_ok
  | bound =>
    refine limitsFit_modify h fun r hr => ?_
    split
    · exact hr
    · exact hr
  | initialized _ _ _ _ _ row_ok =>
    have hvalues := limitsFit_ofPrincipal row_ok
    refine limitsFit_modify h fun r hr => ?_
    split
    · exact hvalues
    · exact hr
  | issued => exact h
  | revoked => exact h
  | disabled => exact limitsFit_modify h fun _ hr => hr

/-- The limits fit in all states of a run. -/
theorem run_limitsFit (h : Run database.exec ⟨World.ofDb db₀, fun i => s.handle (requests i)⟩ tr c)
    (h₀ : db₀.LimitsFit) : c.world.db.LimitsFit :=
  run_preserves (fun _ _ _ _ _ _ hdoes h => Does.limitsFit hdoes h) (fun _ _ h => h) h₀ h

end Columns

section Binds

variable {s : Service} {db : Db} {env : Env} {c : RuntimeIdentityContinuityCommand}
  {p bound : RuntimePrincipal} {row values : RuntimePrincipalRow} {legacyId : String} {now : Utc}
  {pf : RuntimeIdentityContinuityPreflight}

theorem integer_of_fits {n : Int} (h : FitsInteger n) : integer n = .ok n := if_pos h

theorem mapM_integer {x : Option Int} (h : ∀ n ∈ x, FitsInteger n) : x.mapM integer = .ok x := by
  cases x with
  | none => rfl
  | some n =>
    show (integer n >>= fun n => .ok (some n)) = .ok (some n)
    exact Except.bind_eq_ok (integer_of_fits (h n rfl)) rfl

/-- A safe preflight has found the identity in the settings, which bound its length. -/
theorem legacyFits_of_safe (h : db.continuityPreflight env p legacyId = .ok pf)
    (hsafe : pf.safeToBind = true) : legacyFits (some legacyId) = true := by
  obtain ⟨_, _, _, rfl⟩ := continuityPreflight_ok.mp h
  simp only [Service.preflightOf, Bool.and_eq_true] at hsafe
  obtain ⟨legacy, hlegacy⟩ := Option.isSome_iff_exists.mp hsafe.1.1.1.1.1.1.1
  obtain ⟨settings, _, hget⟩ := Option.bind_eq_some_iff.mp hlegacy
  obtain ⟨value, hfound, _⟩ := Option.map_eq_some_iff.mp hget
  have hid : value.principalId = legacyId := by simpa using List.find?_some hfound
  have hlength := value.principalId_length
  rw [hid] at hlength
  have hne : legacyId ≠ "" := by
    rintro rfl
    exact absurd hlength.1 (by decide)
  simp [legacyFits, hne, hlength.2]

/-- The domain binds an active principal that has no legacy identity. -/
theorem exists_bound (hactive : p.isActive = true) (hunbound : p.identityContinuityReady = false)
    (hfits : legacyFits (some (strip legacyId)) = true) (at' : Aware) :
    ∃ bound, p.bindIdentityContinuity legacyId at' = .ok bound ∧
      bound.identityContinuityBoundAt = some at' := by
  unfold RuntimePrincipal.bindIdentityContinuity
  rw [if_neg (by simp [hactive]), if_neg (by simp [hunbound]), dif_neg (by simp [hfits])]
  exact ⟨_, rfl, rfl⟩

/-- What is bound to a stored principal can be stored. -/
theorem exists_values (hfits : row.LimitsFit)
    (hactive : (principalFromRow row).isActive = true) (hnul : hasNul (strip legacyId) = false)
    (h : (principalFromRow row).bindIdentityContinuity legacyId now.toAware = .ok bound) :
    ∃ values, RuntimePrincipalRow.ofPrincipal bound = .ok values ∧
      values.identityContinuityBoundAt = some now := by
  unfold RuntimePrincipal.bindIdentityContinuity at h
  split at h
  · cases h
  split at h
  · cases h
  split at h
  · cases h
  cases h
  have hnone : row.disabledAt = none := by simpa [isActive_principalFromRow] using hactive
  have hlegacy : (some (strip legacyId)).mapM text = .ok (some (strip legacyId)) :=
    Except.bind_eq_ok (text_of hnul) rfl
  have hnow : (some now.toAware).mapM timestamptz = .ok (some now) :=
    Except.bind_eq_ok (timestamptz_toAware now) rfl
  have hdisabled : (row.disabledAt.map Utc.toAware).mapM timestamptz = .ok none := by
    rw [hnone]
    rfl
  unfold RuntimePrincipalRow.ofPrincipal
  split
  · next boundAt _ _ _ _ _ hb =>
    refine ⟨_, rfl, ?_⟩
    exact Except.ok.inj (hb.symm.trans hnow)
  · next hnot =>
    exact (hnot _ _ _ _ _ _ (timestamptz_toAware row.createdAt) hdisabled
      (mapM_integer hfits.1) (mapM_integer hfits.2) hlegacy hnow).elim

theorem exists_principalRecord (s : Service) (env : Env) (auditActor : Uuid) (value : RuntimePrincipal)
    (before : Option RuntimePrincipal) (action : Action) :
    ∃ record, s.principalRecord env auditActor value before action = .ok record := by
  unfold Service.principalRecord
  refine Record.exists_succeeded env.auditId _ _ _ _ _ ?_ (fun f hf => ?_) (s.sha256 _).2
  · rw [Uuid.strip_str]
    exact auditActor.str_ne_empty
  · obtain ⟨q, _, rfl⟩ := Option.mem_map.mp hf
    exact (s.sha256 _).2

end Binds

/-- From `db` to `db'` the principal of the command gets its two continuity columns, and one
    audit record is appended. -/
structure BindsOnly (command : RuntimeIdentityContinuityCommand) (now : Utc) (db db' : Db) : Prop where
  bound : ∃ row values, db.principals.find? command.principalId = some row ∧
    values.legacyRuntimePrincipalId = some command.legacyRuntimePrincipalId ∧
    values.identityContinuityBoundAt = some now ∧
    db'.principals.find? command.principalId = some (row.setContinuity values)
  others : ∀ k ≠ command.principalId, db'.principals.find? k = db.principals.find? k
  credentials : db'.credentials = db.credentials
  agents : db'.agents = db.agents
  invocations : db'.invocations = db.invocations
  audits : ∃ record, db'.audits = db.audits ++ [record] ∧
    record.About .runtimePrincipalIdentityContinuityBound command.principalId

/-- In all stores that commands lead to, and with any ledger, no preflight is safe that names
    the principal of the command or its legacy identity. -/
def NeverSafeAgain (command : RuntimeIdentityContinuityCommand) (db : Db) : Prop :=
  ∀ (s : Service) (requests : Tid → Request) tr c,
    Run database.exec ⟨World.ofDb db, fun i => s.handle (requests i)⟩ tr c →
    ∀ invocations env (command' : RuntimeIdentityContinuityCommand) pf,
      (alone (Service.preflightIdentityContinuity env command')
        { c.world.db with invocations }).1 = .ok pf →
      command'.principalId = command.principalId ∨
        command'.legacyRuntimePrincipalId = command.legacyRuntimePrincipalId →
      pf.safeToBind = false

/-- The two commands on one store, each alone. -/
structure Predicts (s : Service) (env : Env) (command : RuntimeIdentityContinuityCommand)
    (db : Db) : Prop where
  safe_iff : (∃ bound, (alone (s.bindIdentityContinuity env command) db).1 = .ok bound) ↔
    ∃ pf, (alone (Service.preflightIdentityContinuity env command) db).1 = .ok pf ∧
      pf.safeToBind = true
  notFound_iff :
    (alone (s.bindIdentityContinuity env command) db).1 = .error .runtimePrincipalNotFound ↔
      (alone (Service.preflightIdentityContinuity env command) db).1 =
        .error .runtimePrincipalNotFound ∧ hasNul command.legacyRuntimePrincipalId = false
  unchanged : (alone (Service.preflightIdentityContinuity env command) db).2 = db
  binds : ∀ bound db', alone (s.bindIdentityContinuity env command) db = (.ok bound, db') →
    BindsOnly command env.now db db'
  taken : ∀ bound db', alone (s.bindIdentityContinuity env command) db = (.ok bound, db') →
    NeverSafeAgain command db'

section Predictions

variable {s : Service} {db db' : Db} {env : Env} {c : RuntimeIdentityContinuityCommand}
  {p : RuntimePrincipal} {pf : RuntimeIdentityContinuityPreflight}

/-- A bind whose checks all pass succeeds. -/
theorem bindIdentityContinuity_binds (hfits : db.LimitsFit)
    (hstripped : strip c.legacyRuntimePrincipalId = c.legacyRuntimePrincipalId)
    (h : db.bindAnswer env c = .ok p) :
    ∃ bound db', alone (s.bindIdentityContinuity env c) db = (.ok bound, db') ∧
      BindsOnly c env.now db db' := by
  obtain ⟨hp, pf, hanswer, hsafe⟩ := bindAnswer_ok_iff.mp h
  obtain ⟨hactor, q, hq, hpf⟩ := preflightAnswer_ok hanswer
  obtain rfl : q = p := Except.ok.inj (hq.symm.trans hp)
  obtain ⟨hunclaimed, hunbound⟩ := free_of_safe hpf hsafe
  obtain ⟨hfound, hactive⟩ := activePrincipal_ok hp
  obtain ⟨row, hrow, hid, rfl⟩ := getPrincipal_some hfound
  have hlength := legacyFits_of_safe hpf hsafe
  obtain ⟨hnul, dayEnd, hday, rfl⟩ := continuityPreflight_ok.mp hpf
  rw [← hstripped] at hlength
  obtain ⟨bound, hbound, hat⟩ := exists_bound hactive hunbound hlength env.now.toAware
  obtain ⟨hboundId, hboundLegacy⟩ := bindIdentityContinuity_ok hbound
  obtain ⟨values, hvalues, hvaluesAt⟩ := exists_values (hfits row (Table.find?_some hrow).1)
    hactive (by rwa [hstripped]) hbound
  obtain ⟨hvaluesId, hvaluesLegacy⟩ := ofPrincipal_ok hvalues
  obtain ⟨record, hrecord⟩ := exists_principalRecord s env c.actor.principalId bound
    (some (principalFromRow row)) .runtimePrincipalIdentityContinuityBound
  have hvaluesKey : values.principalId = c.principalId := hvaluesId.trans (hboundId.trans hid)
  have hrowUnbound : row.unbound = true := by
    rw [unbound_principalFromRow] at hunbound
    simpa using hunbound
  have hpid : (principalFromRow row).principalId = c.principalId := hid
  have hanswers : Request.answers ⟨.bindIdentityContinuity c, env⟩ db =
      ⟨some (principalFromRow row), none,
        db.hasPotentiallyUsable (principalFromRow row).principalId env.now⟩ := by
    rw [hpid, ← hfound]
    rfl
  have hmatched : db.matches bound.principalId (·.unbound) = true := by
    rw [hboundId, hpid, Db.matches, hrow]
    exact hrowUnbound
  have hstored : db.claimed (strip c.legacyRuntimePrincipalId) = false := by
    rw [hstripped]
    exact hunclaimed
  rw [hunclaimed] at hsafe
  have hdoes := Does.bound (s := s)
    (a := Request.answers ⟨.bindIdentityContinuity c, env⟩ db) hactor (by rw [hanswers]) hactive
    hunbound (text_of hnul) hday (by rw [hanswers]; exact hsafe) hbound hvalues hrecord
    hmatched hstored
  obtain ⟨q, hq, hyields⟩ := bindIdentityContinuity_yields (r := ⟨.bindIdentityContinuity c, env⟩)
    (i := 0) rfl (sole_ofDb db) rfl hdoes
  cases hq
  refine ⟨bound, _, alone_eq hyields, ?_⟩
  have hfind : ∀ k, (db.bindIdentityContinuity values).principals.find? k = _ :=
    Table.find?_modify db.principals _ _ fun r => by split <;> rfl
  refine ⟨⟨row, values, hrow, ?_, hvaluesAt, ?_⟩, fun k hk => ?_, rfl, rfl, rfl, record, rfl, ?_⟩
  · rw [hvaluesLegacy, hboundLegacy, hstripped]
  · refine (hfind c.principalId).trans ?_
    rw [if_pos hvaluesKey.symm, hrow, Option.map_some, if_pos hrowUnbound]
  · refine (hfind k).trans (if_neg ?_)
    rwa [hvaluesKey]
  · obtain ⟨_, haction, _, hresource, _⟩ := Record.new_ok hrecord
    exact ⟨haction, hresource.trans (hboundId.trans hid)⟩

/-- Where the principal is bound or the identity claimed, no preflight is safe. -/
theorem not_safe (h : db.preflightAnswer env c = .ok pf)
    (htaken : db.claimed c.legacyRuntimePrincipalId = true ∨
      ∃ row, db.principals.find? c.principalId = some row ∧ row.legacyRuntimePrincipalId.isSome) :
    pf.safeToBind = false := by
  obtain ⟨_, p, hp, hpf⟩ := preflightAnswer_ok h
  refine eq_false_of_ne_true fun hsafe => ?_
  obtain ⟨hunclaimed, hunbound⟩ := free_of_safe hpf hsafe
  rcases htaken with hclaimed | ⟨row, hrow, hsome⟩
  · rw [hunclaimed] at hclaimed
    cases hclaimed
  · obtain ⟨row', hrow', _, rfl⟩ := getPrincipal_some (activePrincipal_ok hp).1
    obtain rfl : row' = row := Option.some.inj (hrow'.symm.trans hrow)
    rw [show (principalFromRow row').identityContinuityReady = true from hsome] at hunbound
    cases hunbound

theorem BindsOnly.neverSafeAgain {now : Utc} (h : BindsOnly c now db db') : NeverSafeAgain c db' := by
  obtain ⟨row, values, _, hlegacy, _, hbound⟩ := h.bound
  intro s requests tr config hrun invocations env' c' pf hpf hsame
  have hkept : ContinuityKept db' config.world.db := run_continuityKept (.nil _) hrun
  obtain ⟨later, hlater, hlegacyLater, _⟩ := hkept c.principalId _ hbound (by
    simp [RuntimePrincipalRow.setContinuity, hlegacy])
  replace hlegacyLater : later.legacyRuntimePrincipalId = some c.legacyRuntimePrincipalId :=
    hlegacyLater.trans hlegacy
  rw [preflight_alone] at hpf
  refine not_safe hpf ?_
  rcases hsame with hid | hid
  · refine .inr ⟨later, ?_, by rw [hlegacyLater]; rfl⟩
    rw [hid]
    exact hlater
  · refine .inl (claimed_iff.mpr ⟨later, (Table.find?_some hlater).1, ?_⟩)
    rw [hid]
    exact hlegacyLater

/-- The preflight predicts the bind. -/
theorem preflight_predicts_bind (s : Service) (env : Env) (c : RuntimeIdentityContinuityCommand)
    (db : Db) (hfits : db.LimitsFit)
    (hstripped : strip c.legacyRuntimePrincipalId = c.legacyRuntimePrincipalId) :
    Predicts s env c db := by
  have hbinds : ∀ bound db', alone (s.bindIdentityContinuity env c) db = (.ok bound, db') →
      ∃ p, db.bindAnswer env c = .ok p ∧ BindsOnly c env.now db db' := by
    intro bound db' hbound
    cases h : db.bindAnswer env c with
    | error e =>
      rw [bindIdentityContinuity_refused h] at hbound
      cases hbound
    | ok p =>
      obtain ⟨bound', db'', halone, honly⟩ := bindIdentityContinuity_binds (s := s) hfits hstripped h
      rw [halone] at hbound
      cases hbound
      exact ⟨p, rfl, honly⟩
  refine ⟨?_, ?_, ?_, fun bound db' h => (hbinds bound db' h).choose_spec.2,
    fun bound db' h => (hbinds bound db' h).choose_spec.2.neverSafeAgain⟩
  · rw [preflight_alone]
    constructor
    · rintro ⟨bound, hbound⟩
      obtain ⟨p, hp, _⟩ := hbinds bound _ (Prod.ext hbound rfl)
      exact (bindAnswer_ok_iff.mp hp).2
    · rintro ⟨pf, hpf, hsafe⟩
      obtain ⟨_, p, hp, _⟩ := preflightAnswer_ok hpf
      obtain ⟨bound, db', halone, _⟩ := bindIdentityContinuity_binds (s := s) hfits hstripped
        (bindAnswer_ok_iff.mpr ⟨hp, pf, hpf, hsafe⟩)
      exact ⟨bound, by rw [halone]⟩
  · rw [preflight_alone, ← bindAnswer_notFound_iff]
    cases h : db.bindAnswer env c with
    | error e => rw [bindIdentityContinuity_refused h]
    | ok p =>
      obtain ⟨bound, db', halone, _⟩ := bindIdentityContinuity_binds (s := s) hfits hstripped h
      rw [halone]
      exact ⟨nofun, nofun⟩
  · rw [preflight_alone]

end Predictions

/-! ## A text that the database refuses -/

/-- Principal 1, active and with its limits, is bound to the static identity. -/
theorem preflight_predicts_bind_plain :
    Predicts exampleService (plainClaims 0).env (plainClaims 0).command twoPrincipals :=
  preflight_predicts_bind exampleService (plainClaims 0).env (plainClaims 0).command twoPrincipals
    (by
      have hrows : ∀ r ∈ twoPrincipals.principals.rows, r.dailyUsageLimitUnits = some 12 ∧
          r.perInvocationAllowanceUnits = some 5 := by decide +kernel
      intro r hr
      obtain ⟨hdaily, hallowance⟩ := hrows r (Table.mem_rows.mpr hr)
      unfold RuntimePrincipalRow.LimitsFit
      rw [hdaily, hallowance]
      decide)
    (by decide +kernel)

/-- No principal has the id, and the legacy identity is the text of U+0000: the preflight does
    not find the principal, but the bind fails in the database. -/
theorem bind_fails_before_lookup :
    let command : RuntimeIdentityContinuityCommand := ⟨manager, 1, "\x00"⟩
    let db := Db.start ∅ []
    (alone (Service.preflightIdentityContinuity (envAt 0 0) command) db).1 =
        .error .runtimePrincipalNotFound ∧
      (alone (exampleService.bindIdentityContinuity (envAt 0 0) command) db).1 =
        .error .database := by
  intro command db
  have hpreflight : db.preflightAnswer (envAt 0 0) command =
      .error .runtimePrincipalNotFound := rfl
  have hbind : db.bindAnswer (envAt 0 0) command = .error .database := by
    have htext : text "\x00" = .error ⟨⟩ := by decide +kernel
    unfold Db.bindAnswer
    rw [show text command.legacyRuntimePrincipalId = _ from htext]
    rfl
  rw [preflight_alone, bindIdentityContinuity_refused hbind]
  exact ⟨hpreflight, rfl⟩

end Valor.RuntimeIdentity
