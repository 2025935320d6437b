/-
  Runtime credentials whose expiry lies outside the range of `datetime` in UTC.

  `Postgres.timestamptz` refuses such a time. The server does not: it keeps the instant, and
  it is the driver that raises when the row is loaded. `RawDb` is the store as it is then: its
  `runtime_credentials` hold instants of any size, and all its other tables are those of `Db`.

  What `Db` refuses to store is stored here and cannot be loaded; everything else loads as it
  does there (`credentialFromRaw_eq`). So a credential can be loaded, and then revoked, exactly
  if its expiry is in range (`manageable_iff`).
-/
import Valor.Lib.Embedding
import Valor.RuntimeIdentity.CredentialEvidence

namespace Valor.RuntimeIdentity

open Python Postgres ManagementAudit Prog Interleave ReadCommitted

/-! ## The store -/

/-- A row of `runtime_credentials`, with its times as instants in UTC. -/
structure RawCredentialRow where
  credentialId : Uuid
  principalId : Uuid
  secretVerifier : String
  label : Option String
  createdAt : Int
  expiresAt : Option Int
  revokedAt : Option Int
  deriving DecidableEq

instance : Keyed RawCredentialRow Uuid := ⟨RawCredentialRow.credentialId⟩

/-- All other tables are in `rest`, whose own credentials stay empty. -/
structure RawDb where
  rest : Db
  credentials : Table RawCredentialRow

def RawDb.start (agents : Finset (Uuid × Uuid)) (invocations : List InvocationRow) : RawDb :=
  ⟨.start agents invocations, .empty⟩

def RawCredentialRow.ofCredential (c : RuntimeCredential) : Except DataError RawCredentialRow := do
  let label ← c.label.mapM text
  return ⟨c.credentialId, c.principalId, c.secretVerifier, label, c.createdAt.instant,
    c.expiresAt.map Aware.instant, c.revokedAt.map Aware.instant⟩

/-- A `timestamptz` as the driver loads it, in a session in UTC. -/
def loadTimestamp (instant : Int) : Except DataError Utc :=
  if h : 0 ≤ instant ∧ instant < Datetime.maxWall then .ok ⟨instant, h⟩ else .error ⟨⟩

def credentialFromRaw (row : RawCredentialRow) : Except Error RuntimeCredential := do
  let createdAt ← column .database (loadTimestamp row.createdAt)
  let expiresAt ← column .database (row.expiresAt.mapM loadTimestamp)
  let revokedAt ← column .database (row.revokedAt.mapM loadTimestamp)
  (Credential.new row.credentialId row.principalId row.secretVerifier row.label (.aware createdAt)
    (expiresAt.map fun u => .aware u) (revokedAt.map fun u => .aware u)).mapError
      fun e => .valueError e.message

namespace RawDb

def getCredential (db : RawDb) (credentialId : Uuid) : Except Error (Option RuntimeCredential) :=
  match db.credentials.find? credentialId with
  | none => .ok none
  | some row => (credentialFromRaw row).map some

def hasPotentiallyUsable (db : RawDb) (principalId : Uuid) (now : Utc) : Bool :=
  db.credentials.rows.any fun c =>
    c.principalId = principalId && c.revokedAt.isNone && c.expiresAt.all fun e => now.instant < e

def insertCredential (db : RawDb) (row : RawCredentialRow) : RawDb :=
  { db with credentials := db.credentials.insert row }

def revokeCredential (db : RawDb) (credentialId : Uuid) (revokedAt : Option Int) : RawDb :=
  { db with
    credentials := db.credentials.modify credentialId (fun r => { r with revokedAt }) fun _ => rfl }

end RawDb

def restPart : Part Db RawDb Lock Lock Error Error where
  get := RawDb.rest
  put d db := { db with rest := d }
  lock := id
  err := id

/-- The statements on credentials; the others are those of the other tables. -/
def rawStmt : (q : Sql) → Stmt RawDb Lock Error q.Res
  | .credentialsAdd c =>
      .change (fun _ _ => [.credential c.credentialId]) fun _ db => do
        let row ← column .database (RawCredentialRow.ofCredential c)
        constraint .database (db.credentials.find? c.credentialId = none)
        constraint .database (db.rest.principals.find? c.principalId ≠ none)
        return ((), fun db => db.insertCredential row)
  | .credentialsGet credentialId => .query fun db => db.getCredential credentialId
  | .credentialsRevoke c =>
      .change (fun _ _ => [.credential c.credentialId]) fun _ _ =>
        .ok ((), fun db => db.revokeCredential c.credentialId (c.revokedAt.map Aware.instant))
  | .hasPotentiallyUsable principalId now => .query fun db =>
      .ok (db.hasPotentiallyUsable principalId now)
  | q => (stmt q).embed restPart

def rawDatabase : Database RawDb Lock Sql Sql.Res Error Choice where
  stmt _ _ q := rawStmt q
  fails ch := ch.fails
  failure := .database

/-! ## Round trip -/

section RoundTrip

variable {c : RuntimeCredential} {raw : RawCredentialRow}

/-- The driver refuses on loading what `timestamptz` refuses on storing. -/
theorem loadTimestamp_instant (a : Aware) : loadTimestamp a.instant = timestamptz a := by
  unfold loadTimestamp timestamptz Aware.astimezone
  split <;> rfl

theorem mapM_loadTimestamp (t : Option Aware) :
    (t.map Aware.instant).mapM loadTimestamp = t.mapM timestamptz := by
  cases t with
  | none => rfl
  | some a => simp [loadTimestamp_instant]

theorem mapM_text {t label : Option String} (h : t.mapM text = .ok label) : label = t := by
  cases t with
  | none =>
    cases h
    rfl
  | some s =>
    cases hs : text s with
    | error e => simp [hs, Functor.map, Except.map] at h
    | ok u =>
      simp only [Option.mapM_some, hs, Functor.map, Except.map, Except.ok.injEq] at h
      rw [← h, (text_ok hs).2]

theorem ofCredential_raw (h : RawCredentialRow.ofCredential c = .ok raw) :
    raw = ⟨c.credentialId, c.principalId, c.secretVerifier, c.label, c.createdAt.instant,
      c.expiresAt.map Aware.instant, c.revokedAt.map Aware.instant⟩ ∧ c.label.mapM text = .ok c.label := by
  obtain ⟨label, hlabel, h⟩ := Except.bind_ok_cases h
  cases h
  have hsame : label = c.label := mapM_text hlabel
  rw [hsame] at hlabel ⊢
  exact ⟨rfl, hlabel⟩

/-- What `Db` refuses to store is stored here, and cannot be loaded. -/
theorem credentialFromRaw_eq (h : RawCredentialRow.ofCredential c = .ok raw) :
    credentialFromRaw raw = (column .database (CredentialRow.ofCredential c)).map credentialFromRow := by
  obtain ⟨rfl, hlabel⟩ := ofCredential_raw h
  unfold credentialFromRaw
  rw [loadTimestamp_instant, mapM_loadTimestamp, mapM_loadTimestamp]
  unfold CredentialRow.ofCredential
  split
  · next createdAt expiresAt revokedAt _ hc he hr _ =>
    refine Except.bind_eq_ok (congrArg (column _) hc) (Except.bind_eq_ok (congrArg (column _) he)
      (Except.bind_eq_ok (congrArg (column _) hr) ?_))
    exact Except.mapError_eq_ok.mpr (credentialFromRow_eq ⟨c.credentialId, c.principalId, c.secretVerifier,
      c.label, createdAt, expiresAt, revokedAt, c.label_canonical, c.label_fits, c.verifier_hex,
      expires_later_timestamptz hc he⟩)
  · next hnot =>
    cases hc : timestamptz c.createdAt with
    | error _ => rfl
    | ok createdAt =>
      cases he : c.expiresAt.mapM timestamptz with
      | error _ => rfl
      | ok expiresAt =>
        cases hr : c.revokedAt.mapM timestamptz with
        | error _ => rfl
        | ok revokedAt => exact (hnot _ _ _ _ hc he hr hlabel).elim

theorem timestamptz_range {a : Aware} {u : Utc} (h : timestamptz a = .ok u) :
    0 ≤ a.instant ∧ a.instant < Datetime.maxWall :=
  timestamptz_instant h ▸ u.range

theorem timestamptz_of_range {a : Aware} (h : 0 ≤ a.instant ∧ a.instant < Datetime.maxWall) :
    timestamptz a = .ok ⟨a.instant, h⟩ := by
  rw [← loadTimestamp_instant, loadTimestamp, dif_pos h]

theorem getCredential_insert {db : RawDb} (h : RawCredentialRow.ofCredential c = .ok raw)
    (hfree : db.credentials.find? c.credentialId = none) :
    (db.insertCredential raw).getCredential c.credentialId = (credentialFromRaw raw).map some := by
  have hfind : (db.credentials.insert raw).find? c.credentialId = some raw := by
    obtain ⟨rfl, _⟩ := ofCredential_raw h
    exact Table.find?_eq_some.mpr ⟨Table.mem_insert.mpr (.inr ⟨rfl, hfree⟩), rfl⟩
  unfold RawDb.getCredential
  rw [RawDb.insertCredential, hfind]

/-- A credential that was stored is loaded exactly if its expiry is in range. -/
theorem manageable_iff {db : RawDb} (h : RawCredentialRow.ofCredential c = .ok raw)
    (hfree : db.credentials.find? c.credentialId = none) {createdAt : Utc}
    (hcreated : timestamptz c.createdAt = .ok createdAt) (hrevoked : c.revokedAt = none) :
    (∃ d, (db.insertCredential raw).getCredential c.credentialId = .ok (some d)) ↔
      ∀ e ∈ c.expiresAt, 0 ≤ e.instant ∧ e.instant < Datetime.maxWall := by
  rw [getCredential_insert h hfree, credentialFromRaw_eq h]
  constructor
  · rintro ⟨d, hd⟩ e he
    cases hrow : CredentialRow.ofCredential c with
    | error _ =>
      rw [hrow] at hd
      cases hd
    | ok row =>
      have hexpires := (ofCredential_columns hrow).2.2.2
      rw [Option.mem_def.mp he, Option.mapM_some] at hexpires
      cases hu : timestamptz e with
      | error _ =>
        rw [hu] at hexpires
        cases hexpires
      | ok u => exact timestamptz_range hu
  · intro hrange
    obtain ⟨expiresAt, hexpires⟩ : ∃ expiresAt, c.expiresAt.mapM timestamptz = .ok expiresAt := by
      cases hx : c.expiresAt with
      | none => exact ⟨none, rfl⟩
      | some e =>
        refine ⟨some ⟨e.instant, hrange e hx⟩, ?_⟩
        rw [Option.mapM_some, timestamptz_of_range (hrange e hx)]
        rfl
    have hrevokes : c.revokedAt.mapM timestamptz = .ok none := by
      rw [hrevoked]
      rfl
    obtain ⟨row, hrow⟩ := ofCredential_exists hcreated hexpires hrevokes (ofCredential_raw h).2
    rw [hrow]
    exact ⟨credentialFromRow row, rfl⟩

end RoundTrip

end Valor.RuntimeIdentity
