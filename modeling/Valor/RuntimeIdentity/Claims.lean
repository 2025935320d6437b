/-
  Claims: `bind_identity_continuity` among others of its kind.

  A claim locks its legacy identity, then the row of its principal, then the key of the unique
  index; no claim asks for a lock of a lower rank than those it has, so there is no
  deadlock. Of the claims that compete, one commits (`claims_exclusive`). The others find the
  principal bound or the legacy identity claimed, and raise the conflict: but the lock and
  the check are on the identity as the command has it, and what is stored is stripped. If the
  two differ, only the unique index stops a second claim, with a database error.
-/
import Valor.Lib.Waiting
import Valor.RuntimeIdentity.Commits

namespace Valor.RuntimeIdentity

open Python Postgres ManagementAudit Prog Interleave ReadCommitted

/-- A call of `bind_identity_continuity`. -/
structure ContinuityClaim where
  command : RuntimeIdentityContinuityCommand
  env : Env

namespace ContinuityClaim

def request (x : ContinuityClaim) : Request := ⟨.bindIdentityContinuity x.command, x.env⟩

def principalId (x : ContinuityClaim) : Uuid := x.command.principalId

def legacyId (x : ContinuityClaim) : String := x.command.legacyRuntimePrincipalId

/-- The legacy identity that the claim stores. -/
def stored (x : ContinuityClaim) : String := strip x.legacyId

def Competes (x y : ContinuityClaim) : Prop := x.principalId = y.principalId ∨ x.stored = y.stored

/-- The claim is safe to bind: it does what it should on the database. -/
def Safe (s : Service) (db : Db) (x : ContinuityClaim) : Prop :=
  ∃ reply change records, Does s x.env (x.request.answers db) db x.request.command reply change records

end ContinuityClaim

/-- The database, whose statements fail for the choices `fails`. -/
def faulty (fails : Choice → Bool) : Database Db Lock Sql Sql.Res Error Choice :=
  { database with fails }

/-- The database without failures. -/
abbrev available : Database Db Lock Sql Sql.Res Error Choice := faulty fun _ => false

/-! ## What claims change -/

/-- From an earlier database to a later one, if all commits are claims. -/
structure Binds (db db' : Db) : Prop where
  rows : ∀ k row, db.principals.find? k = some row → db'.principals.find? k = some row ∨
    (row.unbound = true ∧ ∃ values : RuntimePrincipalRow, values.unbound = false ∧
      db'.principals.find? k = some (row.setContinuity values))
  credentials : db'.credentials = db.credentials
  agents : db'.agents = db.agents
  invocations : db'.invocations = db.invocations

section Binds

variable {db db' db'' : Db} {row values : RuntimePrincipalRow} {k : Uuid} {x : String}

theorem unbound_setContinuity : (row.setContinuity values).unbound = values.unbound := rfl

theorem unbound_of_legacy (h : row.legacyRuntimePrincipalId = some x) : row.unbound = false := by
  simp [RuntimePrincipalRow.unbound, h]

theorem unbound_principalFromRow :
    (principalFromRow row).identityContinuityReady = !row.unbound := by
  have htogether := row.continuity_together
  cases hl : row.legacyRuntimePrincipalId <;> cases hb : row.identityContinuityBoundAt <;>
    simp_all [RuntimePrincipal.identityContinuityReady, principalFromRow, RuntimePrincipalRow.unbound]

theorem Binds.refl (db : Db) : Binds db db := ⟨fun _ _ h => .inl h, rfl, rfl, rfl⟩

theorem Binds.trans (h : Binds db db') (h' : Binds db' db'') : Binds db db'' := by
  refine ⟨fun k row hrow => ?_, h'.credentials.trans h.credentials, h'.agents.trans h.agents,
    h'.invocations.trans h.invocations⟩
  obtain hsame | ⟨hunbound, values, hbound, hset⟩ := h.rows k row hrow
  · exact h'.rows k row hsame
  · obtain hsame | ⟨hunbound', _⟩ := h'.rows k _ hset
    · exact .inr ⟨hunbound, values, hbound, hsame⟩
    · rw [unbound_setContinuity, hbound] at hunbound'
      cases hunbound'

/-- A bound row stays. -/
theorem Binds.bound (h : Binds db db') (hrow : db.principals.find? k = some row)
    (hbound : row.unbound = false) : db'.principals.find? k = some row := by
  obtain hsame | ⟨hunbound, _⟩ := h.rows k row hrow
  · exact hsame
  · rw [hbound] at hunbound
    cases hunbound

theorem Binds.bound_mem (h : Binds db db') (hrow : row ∈ db.principals) (hbound : row.unbound = false) :
    row ∈ db'.principals :=
  Table.mem_iff_find?.mpr (h.bound (Table.mem_iff_find?.mp hrow) hbound)

theorem binds_bindIdentityContinuity (hvalues : values.unbound = false) :
    Binds db (db.bindIdentityContinuity values) := by
  refine ⟨fun k row hrow => ?_, rfl, rfl, rfl⟩
  have hfind : (db.bindIdentityContinuity values).principals.find? k = _ :=
    Table.find?_modify db.principals _ _ (fun r => by split <;> rfl) k
  rw [hrow] at hfind
  by_cases hk : k = values.principalId
  · by_cases hu : row.unbound = true
    · exact .inr ⟨hu, values, hvalues, hfind.trans (by simp [hk, hu])⟩
    · exact .inl (hfind.trans (by simp [hk, hu]))
  · exact .inl (hfind.trans (by simp [hk]))

theorem binds_appendAudit (record : Record) : Binds db (db.appendAudit record) :=
  ⟨fun _ _ h => .inl h, rfl, rfl, rfl⟩

/-- The principal of an unbound row is the same, or bound by now. -/
theorem Binds.getPrincipal (h : Binds db db') {p : RuntimePrincipal} (hp : db.getPrincipal k = some p)
    (hunready : p.identityContinuityReady = false) : ∃ p', db'.getPrincipal k = some p' ∧
      p'.isActive = p.isActive ∧ (p' = p ∨ p'.identityContinuityReady = true) := by
  obtain ⟨row, hrow, _, rfl⟩ := getPrincipal_some hp
  obtain hsame | ⟨_, values, hvalues, hset⟩ := h.rows k row hrow
  · exact ⟨principalFromRow row, by rw [Db.getPrincipal, hsame]; rfl, rfl, .inl rfl⟩
  · refine ⟨principalFromRow (row.setContinuity values), by rw [Db.getPrincipal, hset]; rfl, rfl, .inr ?_⟩
    rw [unbound_principalFromRow, unbound_setContinuity, hvalues]
    rfl

/-- Stored legacy identities are stripped. -/
theorem stripped_of_claimed (h : db.claimed x = true) : strip x = x := by
  obtain ⟨row, _, hl⟩ := claimed_iff.mp h
  have hs := row.legacy_stripped
  rw [hl] at hs
  exact Option.some.inj hs

theorem claimed_bindIdentityContinuity {legacyId : String}
    (hlegacy : values.legacyRuntimePrincipalId = some legacyId) (hne : x ≠ legacyId) :
    (db.bindIdentityContinuity values).claimed x = db.claimed x := by
  have hne' : legacyId ≠ x := fun he => hne he.symm
  refine claimed_modify fun r => ?_
  split
  · next hu =>
    have hnone : r.legacyRuntimePrincipalId = none := by
      simp only [RuntimePrincipalRow.unbound, Bool.and_eq_true, Option.isNone_iff_eq_none] at hu
      exact hu.1
    simp [RuntimePrincipalRow.setContinuity, hlegacy, hnone, hne']
  · rfl

end Binds

/-! ## A claim among others

  `gate` is a lock that all claims of the identities `X` have when they commit: its owner
  sees no other claim of them. -/

def gated (gate : Lock) (X : Set String) : Discipline Db Lock where
  same := same
  still l db db' := l = gate → ∀ x ∈ X, db'.claimed x = db.claimed x
  grows := Binds

/-- The order in which claims ask for locks. -/
def rank : Lock → Nat
  | .legacyIdentity _ => 0
  | .principal _ => 1
  | .credential _ => 2
  | .legacyKey _ => 2

/-- The operation needs only locks of a higher rank than those that its thread has. -/
def Climbs (fails : Choice → Bool) (i : Tid) (op : Op Sql) (v : Traced Db Lock Sql Sql.Res Error) : Prop :=
  ∀ ch, ∀ l ∈ (faulty fails).needs ch i op v.1, v.1.owner l ≠ some i →
    ∀ l', v.1.owner l' = some i → rank l' < rank l

/-- A world whose commit by thread `i` is the claim. -/
structure Claiming (x : ContinuityClaim) (i : Tid) (v : Traced Db Lock Sql Sql.Res Error)
    (row : RuntimePrincipalRow) (record : Record) : Prop where
  view : v.1.view i = (v.1.db.bindIdentityContinuity row).appendAudit record
  principal : row.principalId = x.principalId
  legacy : row.legacyRuntimePrincipalId = some x.stored
  matched : v.1.db.matches x.principalId (·.unbound) = true
  unclaimed : v.1.db.claimed x.stored = false

namespace ContinuityClaim

variable (fails : Choice → Bool) (s : Service) (db₀ : Db) (gate : Lock) (X : Set String)
  (x : ContinuityClaim)

/-- The claim takes the gate, or claims none of the identities. -/
def Enters : Prop :=
  gate = .legacyIdentity x.legacyId ∨ gate = .principal x.principalId ∨ x.stored ∉ X

def CommitsAt (i : Tid) (v : Traced Db Lock Sql Sql.Res Error) : Prop :=
  (v.1.owner gate = some i ∨ x.stored ∉ X) ∧ ∃ row record, Claiming x i v row record

/-- A claim that was safe to bind at first, and takes the gate. -/
structure Watched : Prop where
  gate : gate = .legacyIdentity x.legacyId ∨ gate = .principal x.principalId
  stored : x.stored ∈ X
  safe : x.Safe s db₀

/-- The error of a claim that is not done any more, and what is in its way. -/
inductive Lost (db : Db) : Error → Prop
  | conflict {row} (stored : row ∈ db.principals) (bound : row.unbound = false)
      (taken : row.principalId = x.principalId ∨ row.legacyRuntimePrincipalId = some x.legacyId) :
      Lost db .runtimeIdentityContinuityConflict
  | index {row} (stored : row ∈ db.principals) (other : row.principalId ≠ x.principalId)
      (taken : row.legacyRuntimePrincipalId = some x.stored) (ne : x.stored ≠ x.legacyId) :
      Lost db .database

/-- What the end of the claim says of its own events and of the database. -/
def Ended {α : Type} : Except Error α → List (Event (Op Sql) (Op.Res Sql.Res) Error) → Db → Prop
  | .ok _, evs, _ => ⟨.commit, .ok ()⟩ ∈ evs
  | .error e, evs, db => ⟨.commit, .ok ()⟩ ∉ evs ∧
      (x.Watched s db₀ gate X → (faulty fails).MayFail ∨ x.Lost db e)

end ContinuityClaim

section Discipline

variable {gate : Lock} {X : Set String} {s : Service} {db₀ db db' : Db} {x : ContinuityClaim} {i : Tid}
  {v : Traced Db Lock Sql Sql.Res Error} {row : RuntimePrincipalRow} {record : Record} {fails : Choice → Bool}
  {evs : List (Event (Op Sql) (Op.Res Sql.Res) Error)} {α : Type} {o : Except Error α} {e : Error}

theorem gated_lawful : Lawful (gated gate X) where
  same_refl := same_refl
  same_trans := same_trans
  still_refl _ _ _ _ _ := rfl
  still_trans _ _ _ _ h h' hl x hx := (h' hl x hx).trans (h hl x hx)
  grows_refl := Binds.refl
  grows_trans _ _ _ h h' := h.trans h'

theorem Claiming.binds (h : Claiming x i v row record) : Binds v.1.db (v.1.view i) := by
  rw [h.view]
  exact (binds_bindIdentityContinuity (unbound_of_legacy h.legacy)).trans (binds_appendAudit record)

theorem ContinuityClaim.CommitsAt.disciplined (h : x.CommitsAt gate X i v) :
    Disciplined (gated gate X) i v.1 := by
  obtain ⟨hgate, row, record, h⟩ := h
  refine ⟨h.binds, fun l hl heq y hy => ?_⟩
  subst heq
  have hne : y ≠ x.stored := fun he => hgate.resolve_left hl (he ▸ hy)
  rw [h.view]
  exact claimed_bindIdentityContinuity h.legacy hne

theorem ContinuityClaim.Lost.later (h : x.Lost db e) (hbinds : Binds db db') : x.Lost db' e := by
  cases h with
  | conflict stored bound taken => exact .conflict (hbinds.bound_mem stored bound) bound taken
  | index stored other taken ne =>
    exact .index (hbinds.bound_mem stored (unbound_of_legacy taken)) other taken ne

theorem ContinuityClaim.Ended.later (h : x.Ended fails s db₀ gate X o evs db) (hbinds : Binds db db') :
    x.Ended fails s db₀ gate X o evs db' := by
  cases o with
  | ok p => exact h
  | error e => exact ⟨h.1, fun hw => (h.2 hw).imp_right fun hlost => hlost.later hbinds⟩

end Discipline

section Rules

variable {fails : Choice → Bool} {s : Service} {db₀ : Db} {gate : Lock} {X : Set String}
  {x : ContinuityClaim} {i : Tid} {v : Traced Db Lock Sql Sql.Res Error} {α : Type}
  {evs : List (Event (Op Sql) (Op.Res Sql.Res) Error)} {ws : List (Db → Db)} {ls : List Lock}
  {F : Db → Prop}

/-- Thread `i` runs a part of the claim `x`. -/
abbrev Binding (fails : Choice → Bool) (s : Service) (db₀ : Db) (gate : Lock) (X : Set String)
    (x : ContinuityClaim) (i : Tid) (p : Program α) (v : Traced Db Lock Sql Sql.Res Error) : Prop :=
  Follows (faulty fails) (gated gate X) db₀ (x.CommitsAt gate X i) (Climbs fails i) i
    (x.Ended fails s db₀ gate X) p v

theorem binding_raise {e : Error} (h : Knows i evs ws ls F v) (hevs : ⟨.commit, .ok ()⟩ ∉ evs)
    (he : x.Watched s db₀ gate X → x.Lost v.1.db e) : Binding fails s db₀ gate X x i (.raise e : Program α) v := by
  refine safe_raise.mpr ?_
  rw [h.own]
  exact ⟨hevs, fun hw => .inr (he hw)⟩

theorem binding_raiseWhen {c : Prop} [Decidable c] {e : Error} {k : Unit → Program α}
    (h : Knows i evs ws ls F v) (hevs : ⟨.commit, .ok ()⟩ ∉ evs)
    (he : c → x.Watched s db₀ gate X → x.Lost v.1.db e)
    (hk : ¬c → Binding fails s db₀ gate X x i (k ()) v) :
    Binding fails s db₀ gate X x i ((raiseWhen c e).bind k) v := by
  unfold raiseWhen
  split
  · next hc => exact binding_raise h hevs (he hc)
  · next hc => exact hk hc

theorem binding_lift {ε β : Type} {g : ε → Error} {y : Except ε β} {k : β → Program α}
    (h : Knows i evs ws ls F v) (hevs : ⟨.commit, .ok ()⟩ ∉ evs)
    (hok : x.Watched s db₀ gate X → ∃ b, y = .ok b)
    (hk : ∀ b, y = .ok b → Binding fails s db₀ gate X x i (k b) v) :
    Binding fails s db₀ gate X x i ((lift g y).bind k) v := by
  cases y with
  | ok b => exact hk b rfl
  | error e =>
    refine binding_raise h hevs fun hw => ?_
    obtain ⟨b, hb⟩ := hok hw
    cases hb

theorem climbs_query {q : Sql} {act : Db → Except Error q.Res} (hq : stmt q = .query act) :
    Climbs fails i (.sql q) v := by
  intro ch l hl
  rw [needs_query (D := faulty fails) hq] at hl
  cases hl

theorem climbs_change {q : Sql} {locks : Db → Db → List Lock}
    {act : Db → Db → Except Error (q.Res × (Db → Db))} (hq : stmt q = .change locks act)
    (h : Knows i evs ws ls F v)
    (hlocks : ∀ seen db, ∀ l ∈ locks seen db, l ∉ ls → ∀ l' ∈ ls, rank l' < rank l) :
    Climbs fails i (.sql q) v := by
  intro ch l hl hfree l' hl'
  rw [needs_change (D := faulty fails) hq] at hl
  exact hlocks _ _ l hl (fun hmem => hfree ((h.owned l).mpr hmem)) l' ((h.owned l').mp hl')

/-- A query of a transaction that has only locked rows so far. -/
theorem binding_query {q : Sql} {act : Db → Except Error q.Res} {k : q.Res → Program α}
    (hq : stmt q = .query act) (hws : ∀ w ∈ ws, w = id) (hF : Lasting (gated gate X) ls F)
    (h : Knows i evs ws ls F v) (hevs : ⟨.commit, .ok ()⟩ ∉ evs)
    (hok : ∀ db, x.Watched s db₀ gate X → ∃ a, act db = .ok a)
    (hk : ∀ v a, Binds db₀ v.1.db → act v.1.db = .ok a → Knows i (evs ++ [⟨.sql q, .ok a⟩]) ws ls F v →
      Binding fails s db₀ gate X x i (k a) v) :
    Binding fails s db₀ gate X x i ((sql q).bind k) v := by
  refine follows_query (fun _ => hq) hF h (fun _ _ => climbs_query hq)
    (fun v e _ _ he => ⟨by simp [hevs], fun hw => ?_⟩)
    fun v a _ h hgrown ha => hk v a hgrown (by rwa [foldl_of_id hws] at ha) h
  refine he.imp And.left fun he => ?_
  obtain ⟨a, ha⟩ := hok (ws.foldl (fun d f => f d) v.1.db) hw
  rw [ha] at he
  cases he

/-- The same for a statement that may lock and change rows. -/
theorem binding_change {q : Sql} {locks : Db → Db → List Lock}
    {act : Db → Db → Except Error (q.Res × (Db → Db))} {k : q.Res → Program α}
    (hq : stmt q = .change locks act) (hws : ∀ w ∈ ws, w = id) (hF : Lasting (gated gate X) ls F)
    (h : Knows i evs ws ls F v) (hevs : ⟨.commit, .ok ()⟩ ∉ evs)
    (hlocks : ∀ seen db, ∀ l ∈ locks seen db, l ∉ ls → ∀ l' ∈ ls, rank l' < rank l)
    (herr : ∀ db e seen, F db → x.Watched s db₀ gate X → act seen db = .error e → x.Lost db e)
    (hk : ∀ v a g seen, Binds db₀ v.1.db → act seen v.1.db = .ok (a, g) →
      Knows i (evs ++ [⟨.sql q, .ok a⟩]) (ws ++ [g]) (locks seen v.1.db ++ ls) F v →
      Binding fails s db₀ gate X x i (k a) v) :
    Binding fails s db₀ gate X x i ((sql q).bind k) v := by
  refine follows_change (fun _ => hq) hF h (fun _ h => climbs_change hq h hlocks)
    (fun db e seen hf _ he => ⟨by simp [hevs], fun hw => ?_⟩) fun v a g seen h hgrown ha => ?_
  · refine he.imp And.left fun he => ?_
    rw [foldl_of_id hws] at he
    exact herr db e seen hf hw he
  · rw [foldl_of_id hws] at ha h
    exact hk v a g seen hgrown ha h

end Rules

section Traversal

variable {fails : Choice → Bool} {s : Service} {db₀ db : Db} {gate : Lock} {X : Set String}
  {x : ContinuityClaim} {i : Tid} {v : Traced Db Lock Sql Sql.Res Error} {α : Type}
  {evs : List (Event (Op Sql) (Op.Res Sql.Res) Error)} {o : Except Error α} {ls : List Lock}

/-- What a claim that is safe to bind rests on. -/
structure Prepared (s : Service) (db₀ : Db) (x : ContinuityClaim) (p bound : RuntimePrincipal)
    (dayEnd : Utc) : Prop where
  actor : x.command.actor.canManagePrincipals = true
  found : db₀.getPrincipal x.principalId = some p
  active : p.isActive = true
  unready : p.identityContinuityReady = false
  legacy_text : text x.legacyId = .ok x.legacyId
  dayEnd_ok : x.env.now.midnight.addDay = .ok dayEnd
  safe : (Service.preflightOf x.env p x.legacyId (db₀.inspectInvocations x.legacyId p.principalId.str
    p.tenantId p.agentId x.env.now.midnight dayEnd) false
    (db₀.hasPotentiallyUsable x.principalId x.env.now)).safeToBind = true
  bound_ok : p.bindIdentityContinuity x.legacyId x.env.now = .ok bound
  row_ok : ∃ row, RuntimePrincipalRow.ofPrincipal bound = .ok row
  record_ok : ∃ record, s.principalRecord x.env x.command.actor.principalId bound (some p)
    .runtimePrincipalIdentityContinuityBound = .ok record

theorem ContinuityClaim.Safe.prepared (h : x.Safe s db₀) : ∃ p bound dayEnd, Prepared s db₀ x p bound dayEnd := by
  obtain ⟨reply, change, records, h⟩ := h
  unfold ContinuityClaim.request at h
  cases h with
  | bound actor found active unready legacy_text dayEnd_ok safe bound_ok row_ok record_ok _ _ =>
    exact ⟨_, _, _, actor, found, active, unready, legacy_text, dayEnd_ok, safe, bound_ok, ⟨_, row_ok⟩,
      ⟨_, record_ok⟩⟩

theorem ContinuityClaim.Ended.rolledBack (h : x.Ended fails s db₀ gate X o evs db) :
    x.Ended fails s db₀ gate X o (evs ++ [⟨.rollback, .ok ()⟩]) db := by
  cases o with
  | ok a => exact List.mem_append_left _ h
  | error e => exact ⟨by simpa using h.1, h.2⟩

theorem climbs_rollback : Climbs fails i .rollback v := fun _ _ hl => nomatch hl

theorem climbs_commit : Climbs fails i .commit v := fun _ _ hl => nomatch hl

/-- A row lock keeps its principal. -/
theorem gated_getPrincipal {k : Uuid} {p : Option RuntimePrincipal} (hl : .principal k ∈ ls) :
    Lasting (gated gate X) ls fun db => db.getPrincipal k = p :=
  lasting_of_mem hl fun d d' h (hs : d'.principals.find? k = d.principals.find? k) => by
    rw [Db.getPrincipal, hs]
    exact h

/-- What a watched claim has found unclaimed stays so while it has its locks. -/
theorem gated_unclaimed (hidentity : .legacyIdentity x.legacyId ∈ ls) (hrow : .principal x.principalId ∈ ls) :
    Lasting (gated gate X) ls fun db => x.Watched s db₀ gate X → db.claimed x.legacyId = false := by
  intro d d' h _ _ hstill hw
  have hgate : gate ∈ ls := by
    rcases hw.gate with hg | hg
    · rwa [hg]
    · rwa [hg]
  by_cases hstored : x.stored = x.legacyId
  · rw [← hstored] at h ⊢
    rw [hstill gate hgate rfl x.stored hw.stored]
    exact h hw
  · -- stored identities are stripped, so nothing ever claims this one
    by_contra hclaimed
    exact hstored (stripped_of_claimed (by simpa using hclaimed))

theorem column_text_ok {β : Type} {l : String} {f : String → β} (h : text l = .ok l) :
    (do let l ← column Error.database (text l); return f l) = .ok (f l) := by
  rw [h]
  rfl

theorem column_text_cases {β : Type} {l : String} {f : String → β} {b : β}
    (h : (do let l ← column Error.database (text l); return f l) = .ok b) : b = f l := by
  obtain ⟨l', hl, hb⟩ := Except.bind_ok_cases h
  rw [(text_ok (column_ok hl)).2] at hb
  exact (Except.ok.inj hb).symm

/-- What a claim knows between its first look at the legacy identity and its UPDATE. -/
def Found (s : Service) (db₀ : Db) (gate : Lock) (X : Set String) (x : ContinuityClaim)
    (row : RuntimePrincipalRow) (db : Db) : Prop :=
  db.getPrincipal x.command.principalId = some (principalFromRow row) ∧
    (x.Watched s db₀ gate X → db.claimed x.legacyId = false)

/-- The locks of a claim before its UPDATE. -/
abbrev ContinuityClaim.locks (x : ContinuityClaim) : List Lock :=
  [.principal x.command.principalId, .legacyIdentity x.command.legacyRuntimePrincipalId]

variable {row : RuntimePrincipalRow} {ws : List (Db → Db)} {F : Db → Prop}

theorem lasting_found : Lasting (gated gate X) x.locks (Found s db₀ gate X x row) :=
  .and (gated_getPrincipal (List.mem_cons_self ..))
    (gated_unclaimed (List.mem_cons_of_mem _ (List.mem_cons_self ..)) (List.mem_cons_self ..))

theorem matches_of_getPrincipal (h : db.getPrincipal x.command.principalId = some (principalFromRow row))
    (hunready : row.unbound = true) : db.matches x.principalId (·.unbound) = true := by
  obtain ⟨row', hrow', _, heq⟩ := getPrincipal_some h
  have hready : (!row'.unbound) = !row.unbound := by
    rw [← unbound_principalFromRow, ← unbound_principalFromRow, heq]
  rw [Db.matches, show x.principalId = x.command.principalId from rfl, hrow']
  show row'.unbound = true
  rw [hunready] at hready
  simpa using hready

/-- `_continuity_preflight`: a claim that was safe to bind at first is safe. -/
theorem binding_preflight {k : RuntimeIdentityContinuityPreflight → Program α}
    (hprep : x.Watched s db₀ gate X → ∃ bound dayEnd, Prepared s db₀ x (principalFromRow row) bound dayEnd)
    (hkey : row.principalId = x.command.principalId) (hws : ∀ w ∈ ws, w = id)
    (h : Knows i evs ws x.locks (Found s db₀ gate X x row) v) (hevs : ⟨.commit, .ok ()⟩ ∉ evs)
    (hk : ∀ v evs preflight, ⟨.commit, .ok ()⟩ ∉ evs →
      (x.Watched s db₀ gate X → preflight.safeToBind = true) →
      Knows i evs ws x.locks (Found s db₀ gate X x row) v →
      Binding fails s db₀ gate X x i (k preflight) v) :
    Binding fails s db₀ gate X x i ((Service.continuityPreflight x.env (principalFromRow row)
      x.command.legacyRuntimePrincipalId).bind k) v := by
  have htext : x.Watched s db₀ gate X → text x.command.legacyRuntimePrincipalId =
      .ok x.command.legacyRuntimePrincipalId := by
    intro hw
    obtain ⟨bound, dayEnd, hprep⟩ := hprep hw
    exact hprep.legacy_text
  unfold Service.continuityPreflight
  simp only [bind_eq, Prog.bind_assoc]
  refine binding_lift h hevs (fun hw => ?_) fun dayEnd hdayEnd => ?_
  · obtain ⟨bound, dayEnd, hprep⟩ := hprep hw
    exact ⟨dayEnd, hprep.dayEnd_ok⟩
  refine binding_query (stmt_inspectInvocations ..) hws lasting_found h hevs
    (fun db hw => ⟨_, column_text_ok (f := fun l => db.inspectInvocations l _ _ _ _ _) (htext hw)⟩)
    fun v₁ facts hbinds₁ ha h => ?_
  obtain rfl := column_text_cases (f := fun l => v₁.1.db.inspectInvocations l _ _ _ _ _) ha
  refine binding_query rfl hws lasting_found h (by simp [hevs])
    (fun db hw => ⟨_, column_text_ok (f := db.claimed) (htext hw)⟩) fun v₂ claimed _ ha h => ?_
  obtain rfl := column_text_cases (f := v₂.1.db.claimed) ha
  have hunclaimed := h.fact.2
  refine binding_query rfl hws lasting_found h (by simp [hevs]) (fun db _ => ⟨_, rfl⟩)
    fun v₃ usable hbinds₃ ha h => ?_
  cases ha
  refine hk v₃ _ _ (by simp [hevs]) (fun hw => ?_) h
  obtain ⟨bound, dayEnd', hprep⟩ := hprep hw
  obtain rfl : dayEnd' = dayEnd := Except.ok.inj (hprep.dayEnd_ok.symm.trans hdayEnd)
  have husable : v₃.1.db.hasPotentiallyUsable (principalFromRow row).principalId x.env.now =
      db₀.hasPotentiallyUsable x.principalId x.env.now := by
    rw [show (principalFromRow row).principalId = x.principalId from hkey, Db.hasPotentiallyUsable,
      hbinds₃.credentials]
    rfl
  have hsafe := hprep.safe
  rw [← inspectInvocations_congr hbinds₁.invocations, ← hunclaimed hw, ← husable] at hsafe
  exact hsafe

/-- The UPDATE fails only at the unique index. -/
theorem lost_of_update {bound : RuntimePrincipal} {boundRow : RuntimePrincipalRow} {e : Error}
    (seen : Db) (hid : bound.principalId = x.principalId)
    (hlegacy : bound.legacyRuntimePrincipalId = some x.stored)
    (hrow : RuntimePrincipalRow.ofPrincipal bound = .ok boundRow) (hunready : row.unbound = true)
    (hf : Found s db₀ gate X x row db) (hw : x.Watched s db₀ gate X) {act : Db → Db → Except Error (Bool × (Db → Db))}
    {locks : Db → Db → List Lock} (hact : stmt (.bindIdentityContinuity bound) = .change locks act)
    (he : act seen db = .error e) : x.Lost db e := by
  have hm := matches_of_getPrincipal hf.1 hunready
  cases hact
  rw [← hid] at hm
  obtain he | ⟨_, _, he⟩ := Except.bind_error_cases he
  · rw [hrow] at he
    cases he
  · rw [if_pos hm] at he
    obtain he | ⟨_, _, he⟩ := Except.bind_error_cases he
    · have hclaimed : db.claimed x.stored = true := by
        by_contra hfree
        have hany : bound.legacyRuntimePrincipalId.any db.claimed = false := by
          rw [hlegacy]
          exact Bool.eq_false_iff.mpr hfree
        rw [constraint_of hany] at he
        cases he
      obtain rfl := constraint_error he
      obtain ⟨taken, htaken, htakes⟩ := claimed_iff.mp hclaimed
      refine .index htaken (fun heq => ?_) htakes fun heq => ?_
      · rw [Db.matches, hid, ← heq, show db.principals.find? taken.principalId = some taken from
          Table.mem_iff_find?.mp htaken] at hm
        exact Bool.noConfusion (hm.symm.trans (unbound_of_legacy htakes))
      · have hfree := hf.2 hw
        rw [← heq, hclaimed] at hfree
        cases hfree
    · cases he

/-- The conditional UPDATE, its audit record and the commit. -/
theorem binding_update {bound : RuntimePrincipal} (hx : x.Enters gate X)
    (hprep : x.Watched s db₀ gate X → (∃ boundRow, RuntimePrincipalRow.ofPrincipal bound = .ok boundRow) ∧
      ∃ record, s.principalRecord x.env x.command.actor.principalId bound (some (principalFromRow row))
        .runtimePrincipalIdentityContinuityBound = .ok record)
    (hid : bound.principalId = x.principalId) (hlegacy : bound.legacyRuntimePrincipalId = some x.stored)
    (hunready : row.unbound = true) (hws : ∀ w ∈ ws, w = id)
    (h : Knows i evs ws x.locks (Found s db₀ gate X x row) v) (hevs : ⟨.commit, .ok ()⟩ ∉ evs) :
    Binding fails s db₀ gate X x i ((sql (Sql.bindIdentityContinuity bound)).bind fun updated : Bool =>
      (raiseWhen (!updated) Error.runtimeIdentityContinuityConflict).bind fun _ =>
        (s.auditPrincipal x.env x.command.actor.principalId bound (some (principalFromRow row))
          .runtimePrincipalIdentityContinuityBound).bind fun _ => commit.bind fun _ => .ret bound) v := by
  refine binding_change rfl hws lasting_found h hevs (fun seen db l hl hfree l' hl' => ?_)
    (fun db e seen hf hw he => ?_) fun v₁ updated g seen _ ha h => ?_
  · split at hl
    · rcases List.mem_cons.mp hl with rfl | hl
      · exact absurd (by simp [hid, ContinuityClaim.principalId]) hfree
      · obtain ⟨_, _, rfl⟩ := mem_legacyKeys.mp hl
        have hor : l' = .principal x.command.principalId ∨
            l' = .legacyIdentity x.command.legacyRuntimePrincipalId := by simpa using hl'
        rcases hor with rfl | rfl
        · exact Nat.one_lt_two
        · exact Nat.zero_lt_two
    · cases hl
  · obtain ⟨⟨boundRow, hrow⟩, _⟩ := hprep hw
    exact lost_of_update seen hid hlegacy hrow hunready hf hw rfl he
  obtain ⟨boundRow, hboundRow, ha⟩ := Except.bind_ok_cases ha
  have hm : v₁.1.db.matches bound.principalId (·.unbound) = true := by
    rw [hid]
    exact matches_of_getPrincipal h.fact.1 hunready
  rw [if_pos hm] at ha h
  obtain ⟨_, hfree, ha⟩ := Except.bind_ok_cases ha
  cases ha
  have hunclaimed : v₁.1.db.claimed x.stored = false := by
    have hany := constraint_ok hfree
    rwa [hlegacy] at hany
  obtain ⟨hrid, hrlegacy⟩ := ofPrincipal_ok (column_ok hboundRow)
  replace h := h.mono (G := fun d => d.getPrincipal x.command.principalId =
    some (principalFromRow row) ∧ d.claimed x.stored = false) fun hf => ⟨hf.1, hunclaimed⟩
  have hlocked : Lasting (gated gate X) ((.principal bound.principalId ::
      legacyKeys bound.legacyRuntimePrincipalId) ++ x.locks) fun d => d.getPrincipal x.command.principalId =
      some (principalFromRow row) ∧ d.claimed x.stored = false := by
    refine .and (gated_getPrincipal (List.mem_append_right _ (List.mem_cons_self ..)))
      (lasting_of_mem (l := .legacyKey x.stored) ?_ fun d d' hd
        (hsame : d'.claimed x.stored = d.claimed x.stored) => hsame.trans hd)
    exact List.mem_append_left _ (List.mem_cons_of_mem _ (mem_legacyKeys.mpr ⟨x.stored, hlegacy, rfl⟩))
  refine binding_raiseWhen h (by simp [hevs]) (fun hc => nomatch hc) fun _ => ?_
  unfold Service.auditPrincipal
  rw [bind_eq, Prog.bind_assoc]
  refine binding_lift h (by simp [hevs]) (fun hw => (hprep hw).2) fun record hrecord => ?_
  refine follows_change (fun _ => rfl) hlocked h (fun _ h => climbs_change rfl h (by simp))
    (fun d e _ _ _ he => ⟨by simp [hevs], fun _ => he.elim (fun he => .inl he.1) fun he => nomatch he⟩)
    fun v₂ _ g _ h _ ha => ?_
  cases ha
  refine follows_commit hlocked h (fun _ _ => climbs_commit)
    (fun d _ hfails => ⟨by simp [hevs], fun _ => .inl hfails⟩) (fun v₃ h _ => ⟨?_, boundRow, record, ?_⟩)
    fun d _ => by simp [ContinuityClaim.Ended]
  · rcases hx with hgate | hgate | hout
    · exact .inl ((h.owned gate).mpr (by simp [hgate, ContinuityClaim.legacyId]))
    · exact .inl ((h.owned gate).mpr (by simp [hgate, ContinuityClaim.principalId]))
    · exact .inr hout
  · have hview := h.view
    rw [List.append_assoc, List.foldl_append, foldl_of_id hws] at hview
    exact ⟨hview, hrid.trans hid, hrlegacy.trans hlegacy,
      matches_of_getPrincipal h.fact.1 hunready, h.fact.2⟩

/-- The claim, run among others. -/
theorem bindIdentityContinuity_follows (hx : x.Enters gate X)
    (h : Knows i [] [] [] (fun _ => True) v) :
    Binding fails s db₀ gate X x i (s.bindIdentityContinuity x.env x.command) v := by
  have hprepared : x.Watched s db₀ gate X → ∃ p bound dayEnd, Prepared s db₀ x p bound dayEnd :=
    fun hw => hw.safe.prepared
  unfold Service.bindIdentityContinuity Service.requireManager
  refine binding_raiseWhen h (by simp) (fun hc hw => ?_) fun _ => ?_
  · obtain ⟨p, bound, dayEnd, hprep⟩ := hprepared hw
    simp [hprep.actor] at hc
  refine follows_unitOfWork (fun _ _ _ => climbs_rollback) (fun _ _ _ h => h.rolledBack)
    (fun _ _ _ _ h hbinds => h.later hbinds) ?_
  -- the lock of the legacy identity
  refine binding_change rfl (by simp) lasting_true h (by simp) (by simp) (fun db e seen _ hw he => ?_)
    fun v a g seen _ ha h => ?_
  · obtain ⟨p, bound, dayEnd, hprep⟩ := hprepared hw
    rw [show x.command.legacyRuntimePrincipalId = x.legacyId from rfl, hprep.legacy_text] at he
    cases he
  obtain ⟨_, _, ha⟩ := Except.bind_ok_cases ha
  cases ha
  -- the row of the principal
  refine binding_change rfl (by simp) lasting_true h (by simp) (fun seen db l hl _ l' hl' => ?_)
    (fun db e seen _ _ he => nomatch he) fun v found g seen hbinds ha h => ?_
  · split at hl
    · obtain rfl := List.mem_singleton.mp hl
      obtain rfl : l' = .legacyIdentity x.command.legacyRuntimePrincipalId := by simpa using hl'
      exact Nat.zero_lt_one
    · cases hl
  cases ha
  cases hfound : v.1.db.getPrincipal x.command.principalId with
  | none =>
    refine binding_raise h (by simp) fun hw => ?_
    obtain ⟨p, bound, dayEnd, hprep⟩ := hprepared hw
    obtain ⟨p', hp', _⟩ := hbinds.getPrincipal hprep.found hprep.unready
    rw [show x.principalId = x.command.principalId from rfl, hfound] at hp'
    cases hp'
  | some p =>
    obtain ⟨row, hrow, hkey, rfl⟩ := getPrincipal_some hfound
    have hm : v.1.db.matches x.command.principalId (fun _ => true) = true := by
      rw [Db.matches, hrow]
      rfl
    rw [if_pos hm, hfound] at h
    replace h := h.mono (G := fun d => d.getPrincipal x.command.principalId = some (principalFromRow row))
      fun _ => hfound
    -- the principal that is found is the one at first, unless it has been bound
    have hsame : ∀ {p bound dayEnd}, Prepared s db₀ x p bound dayEnd →
        (principalFromRow row).isActive = true ∧
          (principalFromRow row = p ∨ (principalFromRow row).identityContinuityReady = true) := by
      intro p bound dayEnd hprep
      obtain ⟨p', hp', hactive, hor⟩ := hbinds.getPrincipal hprep.found hprep.unready
      obtain rfl : principalFromRow row = p' := Option.some.inj (hfound.symm.trans hp')
      exact ⟨hactive.trans hprep.active, hor⟩
    simp only [Service.requireActive, bind_eq, Prog.bind_assoc, pure_eq, ret_bind]
    refine binding_raiseWhen h (by simp) (fun hinactive hw => ?_) fun _ => ?_
    · obtain ⟨p, bound, dayEnd, hprep⟩ := hprepared hw
      simp [(hsame hprep).1] at hinactive
    refine binding_raiseWhen h (by simp) (fun hready _ => ?_) fun hunready => ?_
    · have hbound : row.unbound = false := by
        rw [unbound_principalFromRow] at hready
        simpa using hready
      exact .conflict (Table.find?_some hrow).1 hbound (.inl hkey)
    have hunbound : row.unbound = true := by
      rw [unbound_principalFromRow] at hunready
      simpa using hunready
    have hfirst : x.Watched s db₀ gate X → ∃ bound dayEnd,
        Prepared s db₀ x (principalFromRow row) bound dayEnd := by
      intro hw
      obtain ⟨p, bound, dayEnd, hprep⟩ := hprepared hw
      obtain rfl := (hsame hprep).2.resolve_right hunready
      exact ⟨bound, dayEnd, hprep⟩
    -- the first look at the legacy identity
    refine binding_query rfl (by simp) (gated_getPrincipal (List.mem_cons_self ..)) h (by simp)
      (fun db hw => ?_) fun v₁ claimed _ ha h => ?_
    · obtain ⟨bound, dayEnd, hprep⟩ := hfirst hw
      exact ⟨_, column_text_ok (f := db.claimed) hprep.legacy_text⟩
    obtain rfl := column_text_cases (f := v₁.1.db.claimed) ha
    refine binding_raiseWhen h (by simp) (fun hclaimed _ => ?_) fun hunclaimed => ?_
    · obtain ⟨taken, htaken, hlegacy⟩ := claimed_iff.mp hclaimed
      exact .conflict htaken (unbound_of_legacy hlegacy) (.inr hlegacy)
    replace h := h.mono (G := Found s db₀ gate X x row) fun hf =>
      ⟨hf, fun _ => Bool.eq_false_iff.mpr hunclaimed⟩
    refine binding_preflight hfirst hkey (by simp) h (by simp) fun v₂ evs preflight hevs hsafe h => ?_
    refine binding_raiseWhen h hevs (fun hunsafe hw => ?_) fun _ => ?_
    · simp [hsafe hw] at hunsafe
    refine binding_lift h hevs (fun hw => ?_) fun bound hbound => ?_
    · obtain ⟨bound, dayEnd, hprep⟩ := hfirst hw
      exact ⟨bound, hprep.bound_ok⟩
    obtain ⟨hid, hlegacy⟩ := bindIdentityContinuity_ok hbound
    refine binding_update hx (fun hw => ?_) (hid.trans hkey) hlegacy hunbound (by simp) h hevs
    obtain ⟨bound', dayEnd, hprep⟩ := hfirst hw
    obtain rfl : bound' = bound := Except.ok.inj (hprep.bound_ok.symm.trans hbound)
    exact ⟨hprep.row_ok, hprep.record_ok⟩

end Traversal

end Valor.RuntimeIdentity
