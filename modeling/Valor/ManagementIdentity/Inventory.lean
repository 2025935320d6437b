/-
  Management identity: the inventories of principals and of credentials.

  Whether a credential is usable is written four times: in the domain, in the branches of
  authentication, in the inventory of credentials and in the SQL of the inventory of
  principals. They are proved to agree at every instant, the instant of expiry included.
  Authentication alone has instants at which it raises instead (`Recordable`).
-/
import Valor.Lib.Grouping
import Valor.Lib.Sql
import Valor.ManagementIdentity.Authentication
import Valor.ManagementIdentity.Recovery
import Mathlib.Data.List.Sort

namespace Valor.ManagementIdentity

open Python Grouping Interleave ReadCommitted ManagementAuthenticator

/-- `ORDER BY created_at DESC, id DESC`. -/
def newestFirst {R : Type} (createdAt : R → Utc) (id : R → Uuid) (a b : R) : Bool :=
  (createdAt b).instant < (createdAt a).instant ||
    ((createdAt b).instant ≤ (createdAt a).instant && (id b).int ≤ (id a).int)

/-! ## Principals -/

inductive PrincipalInventoryState where
  | active
  | disabled
  deriving DecidableEq, Repr

structure PrincipalInventoryRecord where
  principalId : Uuid
  displayName : String
  canManagePrincipals : Bool
  createdAt : Utc
  disabledAt : Option Utc
  tenantScopeCount : Nat
  credentialCount : Nat
  usableCredentialCount : Nat
  deriving DecidableEq

structure PrincipalInventoryItem where
  principalId : Uuid
  displayName : String
  createdAt : Utc
  disabledAt : Option Utc
  state : PrincipalInventoryState
  canManagePrincipals : Bool
  tenantScopeCount : Nat
  credentialCount : Nat
  usableCredentialCount : Nat
  deriving DecidableEq

structure PrincipalInventoryResult where
  items : List PrincipalInventoryItem
  truncated : Bool
  deriving DecidableEq

/-- The condition of the CASE in `credential_counts`. -/
def conditionallyUsable (now : Utc) (c : ManagementCredentialRow) : Sql.Truth :=
  Sql.isNull c.revokedAt &&&
    (Sql.isNull c.expiresAt ||| Sql.test (now.instant < ·.instant) c.expiresAt)

/-- The rows of `scope_counts`. -/
def scopeCounts (db : Db) : List (Uuid × Nat) :=
  (keys (·.principalId) db.scopes.rows).map fun id =>
    (id, (group (·.principalId) id db.scopes.rows).length)

/-- The rows of `credential_counts`. -/
def credentialCounts (db : Db) (now : Utc) : List (Uuid × Nat × Nat) :=
  (keys (·.principalId) db.credentials.rows).map fun id =>
    (id, (group (·.principalId) id db.credentials.rows).length,
      ((group (·.principalId) id db.credentials.rows).map fun c =>
        if (conditionallyUsable now c).Holds then 1 else 0).sum)

/-- The columns selected from a joined row. -/
def inventoryRecord (row : ManagementPrincipalRow) (scopes : Option (Uuid × Nat))
    (credentials : Option (Uuid × Nat × Nat)) : PrincipalInventoryRecord where
  principalId := row.principalId
  displayName := row.displayName
  canManagePrincipals := row.canManagePrincipals
  createdAt := row.createdAt
  disabledAt := row.disabledAt
  tenantScopeCount := (scopes.map (·.2)).getD 0
  credentialCount := (credentials.map (·.2.1)).getD 0
  usableCredentialCount :=
    if row.disabledAt.isSome then 0 else (credentials.map (·.2.2)).getD 0

/-- `list_principals`. -/
def listPrincipals (db : Db) (now : Utc) (limit : Nat) : List PrincipalInventoryRecord :=
  ranked (newestFirst (·.createdAt) (·.principalId)) limit
    ((leftJoin (fun joined counts => counts.1 = joined.1.principalId)
      (leftJoin (fun row counts => counts.1 = row.principalId) db.principals.rows (scopeCounts db))
      (credentialCounts db now)).map fun joined => inventoryRecord joined.1.1 joined.1.2 joined.2)

/-- `ListManagementPrincipalInventoryHandler`. -/
def listPrincipalInventory (db : Db) (now : Utc) (limit : Nat) :
    Except Error PrincipalInventoryResult :=
  if 1 ≤ limit ∧ limit ≤ 100 then
    let records := listPrincipals db now (limit + 1)
    .ok {
      items := (records.take limit).map fun record => {
        principalId := record.principalId
        displayName := record.displayName
        createdAt := record.createdAt
        disabledAt := record.disabledAt
        state := if record.disabledAt.isSome then .disabled else .active
        canManagePrincipals := record.canManagePrincipals
        tenantScopeCount := record.tenantScopeCount
        credentialCount := record.credentialCount
        usableCredentialCount := record.usableCredentialCount }
      truncated := records.length > limit }
  else .error (.valueError "limit must be between 1 and 100")

/-! ## Credentials -/

inductive CredentialInventoryState where
  | active
  | expired
  | revoked
  | principalDisabled
  deriving DecidableEq, Repr

structure CredentialInventoryRecord where
  credentialId : Uuid
  principalId : Uuid
  label : Option String
  createdAt : Utc
  expiresAt : Option Utc
  revokedAt : Option Utc
  deriving DecidableEq

structure CredentialInventoryItem where
  credentialId : Uuid
  principalId : Uuid
  label : Option String
  createdAt : Utc
  expiresAt : Option Utc
  revokedAt : Option Utc
  usable : Bool
  state : CredentialInventoryState
  deriving DecidableEq

structure CredentialInventoryResult where
  items : List CredentialInventoryItem
  truncated : Bool
  deriving DecidableEq

/-- The rows of a principal's credentials. -/
def Db.credentialsOf (db : Db) (principalId : Uuid) : List ManagementCredentialRow :=
  db.credentials.rows.filter (·.principalId = principalId)

def credentialRecord (row : ManagementCredentialRow) : CredentialInventoryRecord :=
  ⟨row.credentialId, row.principalId, row.label, row.createdAt, row.expiresAt, row.revokedAt⟩

/-- `list_for_principal`: whether the principal is disabled, and the records. -/
def listCredentials (db : Db) (principalId : Uuid) (limit : Nat) :
    Option (Bool × List CredentialInventoryRecord) :=
  (db.principals.find? principalId).map fun principal =>
    (principal.disabledAt.isSome,
      (ranked (newestFirst (·.createdAt) (·.credentialId)) limit (db.credentialsOf principalId)).map
        credentialRecord)

/-- `_inventory_item`. -/
def inventoryItem (record : CredentialInventoryRecord) (principalDisabled : Bool) (now : Utc) :
    CredentialInventoryItem :=
  let state : CredentialInventoryState :=
    if principalDisabled then .principalDisabled
    else if record.revokedAt.isSome then .revoked
    else if record.expiresAt.any (·.instant ≤ now.instant) then .expired
    else .active
  { credentialId := record.credentialId
    principalId := record.principalId
    label := record.label
    createdAt := record.createdAt
    expiresAt := record.expiresAt
    revokedAt := record.revokedAt
    usable := state = .active
    state }

/-- `ListManagementCredentialInventoryHandler`. -/
def listCredentialInventory (db : Db) (principalId : Uuid) (now : Utc) (limit : Nat) :
    Except Error CredentialInventoryResult :=
  if 1 ≤ limit ∧ limit ≤ 100 then
    match listCredentials db principalId (limit + 1) with
    | none => .error .managementPrincipalNotFound
    | some (principalDisabled, records) =>
        .ok {
          items := (records.take limit).map fun record => inventoryItem record principalDisabled now
          truncated := records.length > limit }
  else .error (.valueError "limit must be between 1 and 100")

/-! ## The order -/

section Order

variable {R : Type} {createdAt : R → Utc} {id : R → Uuid} {a b : R}

theorem newestFirst_iff : newestFirst createdAt id a b = true ↔
    (createdAt b).instant < (createdAt a).instant ∨
      ((createdAt b).instant ≤ (createdAt a).instant ∧ (id b).int ≤ (id a).int) := by
  simp [newestFirst]

theorem newestFirst_trans (a b c : R) (hab : newestFirst createdAt id a b)
    (hbc : newestFirst createdAt id b c) : newestFirst createdAt id a c := by
  rw [newestFirst_iff] at hab hbc ⊢
  omega

theorem newestFirst_total (a b : R) : newestFirst createdAt id a b || newestFirst createdAt id b a := by
  rw [Bool.or_eq_true, newestFirst_iff, newestFirst_iff]
  omega

/-- Rows that come before each other have the same id. -/
theorem newestFirst_antisymm (hab : newestFirst createdAt id a b)
    (hba : newestFirst createdAt id b a) : id a = id b := by
  rw [newestFirst_iff] at hab hba
  have hint : (id a).int = (id b).int := by omega
  cases ha : id a
  cases hb : id b
  rw [ha, hb] at hint
  simpa using hint

end Order

/-! ## The joins count each row once -/

/-- What a row of the inventory must say. -/
def expectedRecord (db : Db) (now : Utc) (p : ManagementPrincipalRow) : PrincipalInventoryRecord where
  principalId := p.principalId
  displayName := p.displayName
  canManagePrincipals := p.canManagePrincipals
  createdAt := p.createdAt
  disabledAt := p.disabledAt
  tenantScopeCount := (db.scopesOf p.principalId).card
  credentialCount := (db.credentialsOf p.principalId).length
  usableCredentialCount :=
    if p.disabledAt.isSome then 0
    else (db.credentialsOf p.principalId).countP fun c =>
      (credentialFromRow c).isUsableAt now.toAware

theorem isUsableAt_iff {c : ManagementCredentialRow} {now : Utc} :
    (credentialFromRow c).isUsableAt now.toAware = true ↔ (conditionallyUsable now c).Holds := by
  cases hr : c.revokedAt <;> cases he : c.expiresAt <;>
    simp [Credential.isUsableAt, credentialFromRow, conditionallyUsable, hr, he, Aware.lt_iff]

/-- The key of a scope holds its tenant, so a principal's rows have different tenants. -/
theorem scopesOf_card (db : Db) (principalId : Uuid) :
    (db.scopesOf principalId).card = (group (·.principalId) principalId db.scopes.rows).length := by
  have hkeys := db.scopes.nodup
  have hnodup : ((group (·.principalId) principalId db.scopes.rows).map (·.tenantId)).Nodup := by
    refine List.Nodup.map_on ?_ ((List.Nodup.of_map _ hkeys).filter _)
    intro r hr s hs htenant
    obtain ⟨hr, hrp⟩ := List.mem_filter.mp hr
    obtain ⟨hs, hsp⟩ := List.mem_filter.mp hs
    have hprincipal : r.principalId = s.principalId := by
      simp only [decide_eq_true_eq] at hrp hsp
      rw [hrp, hsp]
    exact Table.eq_of_key (t := db.scopes) hr hs (Prod.ext hprincipal htenant)
  exact (List.toFinset_card_of_nodup hnodup).trans (List.length_map _)

/-- The sum of the CASE counts the usable credentials. -/
theorem sum_conditionallyUsable (now : Utc) (cs : List ManagementCredentialRow) :
    (cs.map fun c => if (conditionallyUsable now c).Holds then 1 else 0).sum =
      cs.countP fun c => (credentialFromRow c).isUsableAt now.toAware := by
  induction cs with
  | nil => rfl
  | cons c cs ih =>
    rw [List.map_cons, List.sum_cons, ih, List.countP_cons, add_comm]
    congr 1
    simp only [isUsableAt_iff]

theorem inventoryRecord_eq (db : Db) (now : Utc) (p : ManagementPrincipalRow) :
    inventoryRecord p
      (if p.principalId ∈ keys (·.principalId) db.scopes.rows then
        some (p.principalId, (group (·.principalId) p.principalId db.scopes.rows).length)
      else none)
      (if p.principalId ∈ keys (·.principalId) db.credentials.rows then
        some (p.principalId, (group (·.principalId) p.principalId db.credentials.rows).length,
          ((group (·.principalId) p.principalId db.credentials.rows).map fun c =>
            if (conditionallyUsable now c).Holds then 1 else 0).sum)
      else none) = expectedRecord db now p := by
  have hscopes := scopesOf_card db p.principalId
  have hcredentials : db.credentialsOf p.principalId =
      group (·.principalId) p.principalId db.credentials.rows := rfl
  by_cases hs : p.principalId ∈ keys (·.principalId) db.scopes.rows
  · by_cases hc : p.principalId ∈ keys (·.principalId) db.credentials.rows
    · simp [inventoryRecord, expectedRecord, hs, hc, hscopes, hcredentials, sum_conditionallyUsable]
    · simp [inventoryRecord, expectedRecord, hs, hc, hscopes, hcredentials, group_eq_nil hc]
  · by_cases hc : p.principalId ∈ keys (·.principalId) db.credentials.rows
    · simp [inventoryRecord, expectedRecord, hs, hc, hscopes, hcredentials, sum_conditionallyUsable,
        group_eq_nil hs]
    · simp [inventoryRecord, expectedRecord, hs, hc, hscopes, hcredentials, group_eq_nil hs,
        group_eq_nil hc]

/-- The joins give every principal one record, the expected one. -/
theorem listPrincipals_eq (db : Db) (now : Utc) (limit : Nat) :
    listPrincipals db now limit = ranked (newestFirst (·.createdAt) (·.principalId)) limit
      (db.principals.rows.map (expectedRecord db now)) := by
  have hscopes := leftJoin_groups (·.principalId)
    (fun id => (group (·.principalId) id db.scopes.rows).length)
    (fun row : ManagementPrincipalRow => row.principalId) db.principals.rows db.scopes.rows
  have hcredentials := leftJoin_groups (·.principalId)
    (fun id => ((group (·.principalId) id db.credentials.rows).length,
      ((group (·.principalId) id db.credentials.rows).map fun c =>
        if (conditionallyUsable now c).Holds then 1 else 0).sum))
    (fun joined : ManagementPrincipalRow × Option (Uuid × Nat) => joined.1.principalId)
    (leftJoin (fun row counts => counts.1 = row.principalId) db.principals.rows (scopeCounts db))
    db.credentials.rows
  have hjoined : (leftJoin (fun joined counts => counts.1 = joined.1.principalId)
      (leftJoin (fun row counts => counts.1 = row.principalId) db.principals.rows (scopeCounts db))
      (credentialCounts db now)).map (fun joined => inventoryRecord joined.1.1 joined.1.2 joined.2) =
      db.principals.rows.map (expectedRecord db now) := by
    rw [credentialCounts, hcredentials, scopeCounts, hscopes, List.map_map, List.map_map]
    exact List.map_congr_left fun p _ => inventoryRecord_eq db now p
  rw [listPrincipals, hjoined]

/-! ## Both listings -/

/-- What an item of the inventory must say. -/
def expectedItem (db : Db) (now : Utc) (p : ManagementPrincipalRow) : PrincipalInventoryItem where
  principalId := p.principalId
  displayName := p.displayName
  createdAt := p.createdAt
  disabledAt := p.disabledAt
  state := if p.disabledAt.isSome then .disabled else .active
  canManagePrincipals := p.canManagePrincipals
  tenantScopeCount := (expectedRecord db now p).tenantScopeCount
  credentialCount := (expectedRecord db now p).credentialCount
  usableCredentialCount := (expectedRecord db now p).usableCredentialCount

section Listings

variable {db : Db} {now : Utc} {limit : Nat} (hlimit : 1 ≤ limit ∧ limit ≤ 100)

include hlimit

/-- The inventory is the first principals in the order, one item each. -/
theorem listPrincipalInventory_eq :
    ∃ result, listPrincipalInventory db now limit = .ok result ∧
      (result.truncated = true ↔ limit < db.principals.rows.length) ∧
      ∀ sorted : List ManagementPrincipalRow, sorted.Perm db.principals.rows →
        sorted.Pairwise (fun p q => newestFirst (·.createdAt) (·.principalId) p q) →
        result.items = (sorted.take limit).map (expectedItem db now) := by
  refine ⟨_, if_pos hlimit, ?_, ?_⟩
  · rw [listPrincipals_eq, decide_eq_true_eq, length_ranked, List.length_map]
    omega
  · intro sorted hperm hsorted
    have hranked : ranked (newestFirst (·.createdAt) (·.principalId)) limit
        (db.principals.rows.map (expectedRecord db now)) =
        (sorted.map (expectedRecord db now)).take limit := by
      refine ranked_eq_take newestFirst_trans newestFirst_total (hperm.map _)
        (List.pairwise_map.mpr hsorted) ?_
      intro r hr s hs hrs hsr
      obtain ⟨p, hp, rfl⟩ := List.mem_map.mp hr
      obtain ⟨q, hq, rfl⟩ := List.mem_map.mp hs
      have hid : p.principalId = q.principalId := newestFirst_antisymm hrs hsr
      rw [Table.eq_of_key (t := db.principals) hp hq hid]
    dsimp only
    rw [listPrincipals_eq, take_ranked (Nat.le_succ limit), hranked, ← List.map_take, List.map_map]
    rfl

/-- The inventory is the first credentials of the principal in the order. -/
theorem listCredentialInventory_eq {p : ManagementPrincipalRow} (hp : p ∈ db.principals) :
    ∃ result, listCredentialInventory db p.principalId now limit = .ok result ∧
      (result.truncated = true ↔ limit < (db.credentialsOf p.principalId).length) ∧
      ∀ sorted : List ManagementCredentialRow, sorted.Perm (db.credentialsOf p.principalId) →
        sorted.Pairwise (fun c d => newestFirst (·.createdAt) (·.credentialId) c d) →
        result.items = (sorted.take limit).map fun c =>
          inventoryItem (credentialRecord c) p.disabledAt.isSome now := by
  have hfind : db.principals.find? p.principalId = some p := Table.mem_iff_find?.mp hp
  unfold listCredentialInventory listCredentials
  rw [if_pos hlimit, hfind]
  refine ⟨_, rfl, ?_, ?_⟩
  · rw [decide_eq_true_eq, List.length_map, length_ranked]
    omega
  · intro sorted hperm hsorted
    have hranked : ranked (newestFirst (·.createdAt) (·.credentialId)) limit
        (db.credentialsOf p.principalId) = sorted.take limit := by
      refine ranked_eq_take newestFirst_trans newestFirst_total hperm hsorted ?_
      intro c hc d hd hcd hdc
      exact Table.eq_of_key (t := db.credentials) (List.mem_of_mem_filter hc)
        (List.mem_of_mem_filter hd) (newestFirst_antisymm hcd hdc)
    dsimp only
    rw [← List.map_take, take_ranked (Nat.le_succ limit), hranked, List.map_map]
    rfl

end Listings

/-! ## The four definitions -/

theorem inventoryItem_usable {c : ManagementCredentialRow} {disabled : Bool} {now : Utc} :
    (inventoryItem (credentialRecord c) disabled now).usable = true ↔
      disabled = false ∧ (credentialFromRow c).isUsableAt now.toAware = true := by
  cases disabled <;> cases hr : c.revokedAt <;> cases he : c.expiresAt <;>
    simp [inventoryItem, credentialRecord, Credential.isUsableAt, credentialFromRow, hr, he,
      Aware.lt_iff]

theorem usableCredentialCount_eq (db : Db) (now : Utc) (p : ManagementPrincipalRow) :
    (expectedItem db now p).usableCredentialCount = (db.credentialsOf p.principalId).countP fun c =>
      (inventoryItem (credentialRecord c) p.disabledAt.isSome now).usable := by
  cases hd : p.disabledAt with
  | some d =>
    have hnone : ∀ c ∈ db.credentialsOf p.principalId,
        ¬(inventoryItem (credentialRecord c) true now).usable = true := by
      intro c _ husable
      exact absurd (inventoryItem_usable.mp husable).1 (by decide)
    simp only [expectedItem, expectedRecord, hd, Option.isSome_some, if_true]
    exact (List.countP_eq_zero.mpr hnone).symm
  | none =>
    simp only [expectedItem, expectedRecord, hd, Option.isSome_none]
    refine List.countP_congr fun c _ => ?_
    rw [inventoryItem_usable]
    exact ⟨fun h => ⟨rfl, h⟩, fun h => h.2⟩

namespace ManagementAuthenticator

/-- An attempt with the token of this credential and secret, running alone, succeeds. -/
def authenticates (a : ManagementAuthenticator) (db : Db) (sqlNow : Tid → Utc) (ch : Choice)
    (i : Tid) (secret : String) (c : ManagementCredentialRow) (now : Utc) : Bool :=
  match ((a.authenticate (generateBearerToken c.credentialId secret) now.toAware).runState
    ((database sqlNow).alone ch i) (World.ofDb db)).result with
  | .ok (some _) => true
  | _ => false

theorem authenticates_iff {a : ManagementAuthenticator} {db : Db} {sqlNow : Tid → Utc} {ch : Choice}
    {i : Tid} {secret : String} {c : ManagementCredentialRow} {now : Utc} :
    a.authenticates db sqlNow ch i secret c now = true ↔ ∃ identity,
      ((a.authenticate (generateBearerToken c.credentialId secret) now.toAware).runState
        ((database sqlNow).alone ch i) (World.ofDb db)).result = .ok (some identity) := by
  unfold authenticates
  constructor
  · intro h
    split at h
    · next identity heq => exact ⟨identity, heq⟩
    · cases h
  · rintro ⟨identity, heq⟩
    rw [heq]

/-- With its secret, a credential of `p` authenticates where `p` is active and it is usable. -/
theorem authenticates_secret {a : ManagementAuthenticator} {db : Db} {sqlNow : Tid → Utc}
    {ch : Choice} {i : Tid} {secret : String} {c : ManagementCredentialRow}
    {p : ManagementPrincipalRow} {now : Utc} (hch : ch.fails = false) (hp : p ∈ db.principals)
    (hc : c ∈ db.credentials) (hown : c.principalId = p.principalId) (hsecret : secret ≠ "")
    (hverifier : (a.hmacSha256 a.pepper secret).val = c.secretVerifier)
    (hrec : Recordable now.toAware) :
    a.authenticates db sqlNow ch i secret c now = true ↔
      p.disabledAt = none ∧ (credentialFromRow c).isUsableAt now.toAware = true := by
  have hparse : parseBearerToken (generateBearerToken c.credentialId secret) =
      some (c.credentialId, secret) := parse_generate hsecret
  have husable : (credentialFromRow c).isUsableAt now.toAware = true ↔
      c.revokedAt = none ∧ ∀ e ∈ c.expiresAt, now.toAware.instant < e.instant := by
    cases hr : c.revokedAt <;> cases he : c.expiresAt <;>
      simp [Credential.isUsableAt, credentialFromRow, hr, he, Aware.lt_iff]
  rw [authenticates_iff, husable]
  constructor
  · rintro ⟨identity, hresult⟩
    obtain ⟨c', hc', p', hp', haccepts, _⟩ := (authenticate_iff hch).mp hresult
    obtain ⟨x, hx, _⟩ := haccepts.secret
    rw [hparse] at hx
    have hid : c.credentialId = c'.credentialId := congrArg Prod.fst (Option.some.inj hx)
    obtain rfl : c = c' := Table.eq_of_key (t := db.credentials) hc hc' hid
    have hpid : p.principalId = p'.principalId := hown.symm.trans haccepts.owner.symm
    obtain rfl : p = p' := Table.eq_of_key (t := db.principals) hp hp' hpid
    exact ⟨haccepts.active, haccepts.unrevoked, haccepts.unexpired⟩
  · rintro ⟨hactive, hunrevoked, hunexpired⟩
    exact ⟨_, (authenticate_iff hch).mpr ⟨c, hc, p, hp,
      ⟨⟨secret, hparse, hverifier⟩, hunrevoked, hunexpired, hown.symm, hactive⟩, hrec, rfl⟩⟩

end ManagementAuthenticator

/-- `secretOf` gives the secrets behind the stored verifiers. -/
def RightSecrets (a : ManagementAuthenticator) (db : Db) (secretOf : Uuid → String) : Prop :=
  ∀ c ∈ db.credentials, secretOf c.credentialId ≠ "" ∧
    (a.hmacSha256 a.pepper (secretOf c.credentialId)).val = c.secretVerifier

/-- Both listings are the first entries in their order, and the counts of a principal's entry
    are those of its scopes, of its credentials, of its credentials listed as usable, and,
    where the time can be recorded, of those that authenticate. -/
theorem inventories_agree {db : Db} {now : Utc} {limit : Nat} {a : ManagementAuthenticator}
    {secretOf : Uuid → String} (hlimit : 1 ≤ limit ∧ limit ≤ 100)
    (hsecrets : RightSecrets a db secretOf) :
    (∃ result, listPrincipalInventory db now limit = .ok result ∧
      (result.truncated = true ↔ limit < db.principals.rows.length) ∧
      ∀ sorted : List ManagementPrincipalRow, sorted.Perm db.principals.rows →
        sorted.Pairwise (fun p q => newestFirst (·.createdAt) (·.principalId) p q) →
        result.items = (sorted.take limit).map (expectedItem db now)) ∧
    ∀ p ∈ db.principals,
      (∃ result, listCredentialInventory db p.principalId now limit = .ok result ∧
        (result.truncated = true ↔ limit < (db.credentialsOf p.principalId).length) ∧
        ∀ sorted : List ManagementCredentialRow, sorted.Perm (db.credentialsOf p.principalId) →
          sorted.Pairwise (fun c d => newestFirst (·.createdAt) (·.credentialId) c d) →
          result.items = (sorted.take limit).map fun c =>
            inventoryItem (credentialRecord c) p.disabledAt.isSome now) ∧
      (expectedItem db now p).tenantScopeCount = (db.scopesOf p.principalId).card ∧
      (expectedItem db now p).credentialCount = (db.credentialsOf p.principalId).length ∧
      ((expectedItem db now p).usableCredentialCount =
        if p.disabledAt.isSome then 0
        else (db.credentialsOf p.principalId).countP fun c =>
          (credentialFromRow c).isUsableAt now.toAware) ∧
      ((expectedItem db now p).usableCredentialCount =
        (db.credentialsOf p.principalId).countP fun c =>
          (inventoryItem (credentialRecord c) p.disabledAt.isSome now).state = .active) ∧
      (Recordable now.toAware → ∀ (sqlNow : Tid → Utc) (ch : Choice) (i : Tid), ch.fails = false →
        (expectedItem db now p).usableCredentialCount =
          (db.credentialsOf p.principalId).countP fun c =>
            a.authenticates db sqlNow ch i (secretOf c.credentialId) c now) := by
  refine ⟨listPrincipalInventory_eq hlimit, fun p hp =>
    ⟨listCredentialInventory_eq hlimit hp, rfl, rfl, rfl, usableCredentialCount_eq db now p, ?_⟩⟩
  intro hrec sqlNow ch i hch
  rw [usableCredentialCount_eq]
  refine List.countP_congr fun c hc => ?_
  obtain ⟨hcmem, hown⟩ := List.mem_filter.mp hc
  obtain ⟨hsecret, hverifier⟩ := hsecrets c hcmem
  rw [inventoryItem_usable, authenticates_secret hch hp hcmem (of_decide_eq_true hown) hsecret
    hverifier hrec, Option.isSome_eq_false_iff, Option.isNone_iff_eq_none]

theorem rightSecrets_threePrincipals :
    RightSecrets exampleService.authenticator threePrincipals fun _ => "secret" := by
  intro c hc
  simp only [threePrincipals, Table.mem_rows, List.mem_cons, List.not_mem_nil, or_false] at hc
  obtain rfl | rfl := hc <;> exact ⟨by decide, rfl⟩

/-- Of three principals two are listed, the one with the greater id first, and the manager
    that is listed second has one credential, that authenticates on the 91st day. -/
theorem inventories_agree_threePrincipals :
    (∃ result, listPrincipalInventory threePrincipals 7776000000000 2 = .ok result ∧
      result.truncated = true) ∧
    (threePrincipals.credentialsOf 1).countP (fun c =>
      exampleService.authenticator.authenticates threePrincipals (fun _ => epoch) performed 0 "secret" c
        7776000000000) = 1 := by
  obtain ⟨⟨result, hok, htruncated, _⟩, hcounts⟩ :=
    @inventories_agree threePrincipals 7776000000000 2 _ _ (by decide)
      rightSecrets_threePrincipals
  obtain ⟨_, _, _, husable, _, hauthenticates⟩ := hcounts (principalRow 1 true) (by
    simp [threePrincipals, Table.mem_rows])
  refine ⟨⟨result, hok, htruncated.mpr (by decide)⟩, ?_⟩
  have hone : (expectedItem threePrincipals 7776000000000
      (principalRow 1 true)).usableCredentialCount = 1 := husable.trans (by decide)
  exact (hauthenticates (by decide) (fun _ => epoch) performed 0 rfl).symm.trans hone

/-- At the first instant of `datetime` the inventory has one usable credential of principal 1,
    which does not authenticate: the bucket of its evidence has no bound 90 days before. -/
theorem usable_but_refused_at_first_instant :
    RightSecrets exampleService.authenticator threePrincipals (fun _ => "secret") ∧
    (expectedItem threePrincipals epoch (principalRow 1 true)).usableCredentialCount = 1 ∧
    (threePrincipals.credentialsOf 1).countP (fun c =>
      exampleService.authenticator.authenticates threePrincipals (fun _ => epoch) performed 0 "secret" c
        epoch) = 0 := by
  refine ⟨rightSecrets_threePrincipals, by decide, List.countP_eq_zero.mpr fun c _ h => ?_⟩
  obtain ⟨identity, hresult⟩ := authenticates_iff.mp h
  obtain ⟨_, _, _, _, _, hrec, _⟩ := (authenticate_iff rfl).mp hresult
  exact absurd hrec (by decide)

end Valor.ManagementIdentity
