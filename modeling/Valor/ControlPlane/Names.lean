/-
  The names of tenants, Agents and Models in their tables.

  A name of 100 characters has a key of up to 300: its case fold. The column of the key has
  200. Of the names whose key fits, everything holds that the columns are for: they are
  stored as they are, a name read back is the same name, and the unique constraint refuses
  exactly the names with the key of another.
-/
import Valor.ControlPlane.Store
import Valor.Lib.Serial
import Valor.Python.Casefold

namespace Valor.ControlPlane

open Python Postgres IdentityTenancy AssetRegistry ReadCommitted

/-! ## The three kinds of names -/

inductive NameKind where
  | tenant
  | agent
  | model

/-- `TenantName`, `AgentName` and `ModelName`. -/
def NameKind.new : NameKind → String → Except ValueError Name
  | tenant => TenantName.new casefold
  | agent => AgentName.new casefold
  | model => ModelName.new casefold

theorem NameKind.new_eq (k : NameKind) : ∃ subject, k.new = Name.new casefold subject := by
  cases k
  · exact ⟨_, rfl⟩
  · exact ⟨_, rfl⟩
  · exact ⟨_, rfl⟩

/-- The name and its key are stored as they are. -/
def Fits (name : Name) : Prop :=
  varchar 100 name.value = .ok name.value ∧ varchar 200 name.normalized = .ok name.normalized

theorem varchar_eq_ok {n : Nat} {s : String} :
    varchar n s = .ok s ↔ hasNul s = false ∧ len s ≤ n := by
  unfold varchar
  split
  · next h => simp [h]
  · next h =>
    split
    · next hlen => simpa [hlen] using h
    · next hlen =>
      constructor
      · intro hok
        split at hok
        · have htake : String.ofList (s.toList.take n) = s := by simpa using hok
          have hlength := congrArg len htake
          simp only [len, String.toList_ofList, List.length_take] at hlength hlen
          omega
        · cases hok
      · rintro ⟨-, h⟩
        exact absurd h hlen

theorem fits_iff {k : NameKind} {s : String} {name : Name} (h : k.new s = .ok name)
    (hnul : hasNul name.value = false) : Fits name ↔ len (casefold (collapse s)) ≤ 200 := by
  obtain ⟨subject, hnew⟩ := k.new_eq
  rw [hnew] at h
  obtain ⟨hvalue, hkey⟩ := Name.new_ok h
  have hname : varchar 100 name.value = .ok name.value :=
    varchar_eq_ok.mpr ⟨hnul, name.length.2⟩
  rw [hvalue] at hnul hname hkey
  have hkeyNul := hasNul_casefold hnul
  simp only [Fits, hvalue, hkey, hname, varchar_eq_ok, hkeyNul, true_and]

/-! ## Rows -/

/-- A tenant, an Agent or a Model. -/
inductive Named where
  | tenant (t : Tenant)
  | agent (a : Agent)
  | model (m : Model)

namespace Named

def kind : Named → NameKind
  | tenant _ => .tenant
  | agent _ => .agent
  | model _ => .model

def name : Named → Name
  | tenant t => t.name
  | agent a => a.name
  | model m => m.name

/-- The tenant within which the name is unique, if any. -/
def owner : Named → Option Uuid
  | tenant _ => none
  | agent a => some a.tenantId
  | model m => some m.tenantId

/-- The unique key of the name. -/
def key (x : Named) : Option Uuid × String := (x.owner, x.name.normalized)

/-- `add` of the repository. -/
def add (ch : Choice) : Named → Stmt Db Lock Error Unit
  | tenant t => stmt ch (.tenantsAdd t)
  | agent a => stmt ch (.agentsAdd a)
  | model m => stmt ch (.modelsAdd m)

def alreadyExists : Named → Error
  | tenant _ => .tenantNameAlreadyExists
  | agent _ => .agentNameAlreadyExists
  | model _ => .modelNameAlreadyExists

/-- The columns beside the name and its key hold their values. -/
def OthersFit : Named → Prop
  | tenant t => ∃ u, timestamptz t.createdAt = .ok u
  | agent a => ∃ u, timestamptz a.createdAt = .ok u
  | model m => (∃ u, timestamptz m.createdAt = .ok u) ∧ hasNul m.providerModelReference.value = false

/-- The id is new, and the owning tenant exists. -/
def Admitted (db : Db) : Named → Prop
  | tenant t => db.tenants.find? t.id = none
  | agent a => db.agents.find? a.id = none ∧ db.tenants.find? a.tenantId ≠ none
  | model m => db.models.find? m.id = none ∧ db.tenants.find? m.tenantId ≠ none

end Named

/-- The unique keys of the names in a table. -/
def Db.nameKeys (db : Db) : NameKind → List (Option Uuid × String)
  | .tenant => db.tenants.rows.map fun r => (none, r.normalizedName)
  | .agent => db.agents.rows.map fun r => (some r.tenantId, r.normalizedName)
  | .model => db.models.rows.map fun r => (some r.tenantId, r.normalizedName)

/-- An INSERT whose other checks pass: the unique constraint decides. -/
theorem leaves_ite {db db' : Db} {x : Stmt Db Lock Error Unit} {e : Error} {c : Prop} [Decidable c]
    {k : NameKind} {key : Option Uuid × String} (hx : x.leaves db = if c then .ok db' else .error e)
    (hc : c ↔ key ∉ db.nameKeys k)
    (hkeys : ∀ other, other ∈ db'.nameKeys k ↔ other ∈ db.nameKeys k ∨ other = key) :
    (key ∈ db.nameKeys k ∧ x.leaves db = .error e) ∨
      key ∉ db.nameKeys k ∧ ∃ db', x.leaves db = .ok db' ∧
        ∀ other, other ∈ db'.nameKeys k ↔ other ∈ db.nameKeys k ∨ other = key := by
  by_cases h : c
  · rw [if_pos h] at hx
    exact .inr ⟨hc.mp h, db', hx, hkeys⟩
  · rw [if_neg h] at hx
    exact .inl ⟨not_not.mp (mt hc.mpr h), hx⟩

/-- The keys of a table with one more row. -/
theorem mem_map_insert {R K α : Type} [Keyed R K] [DecidableEq K] {t : Table R} {row : R} (f : R → α)
    (hnew : t.find? (Keyed.key row) = none) (a : α) :
    a ∈ (t.insert row).rows.map f ↔ a ∈ t.rows.map f ∨ a = f row := by
  simp only [List.mem_map, ← Table.mem_rows, Table.mem_insert, hnew, and_true]
  constructor
  · rintro ⟨r, hr | rfl, rfl⟩
    · exact .inl ⟨r, hr, rfl⟩
    · exact .inr rfl
  · rintro (⟨r, hr, rfl⟩ | rfl)
    · exact ⟨r, .inl hr, rfl⟩
    · exact ⟨row, .inr rfl, rfl⟩

/-- Of a name that fits, the unique constraint decides: it is refused if its key is taken,
    and otherwise stored with its key. -/
theorem Named.add_leaves (ch : Choice) {db : Db} {x : Named} (hfits : Fits x.name)
    (hothers : x.OthersFit) (hadmitted : x.Admitted db) :
    (x.key ∈ db.nameKeys x.kind ∧ (x.add ch).leaves db = .error x.alreadyExists) ∨
      x.key ∉ db.nameKeys x.kind ∧ ∃ db', (x.add ch).leaves db = .ok db' ∧
        ∀ key, key ∈ db'.nameKeys x.kind ↔ key ∈ db.nameKeys x.kind ∨ key = x.key := by
  obtain ⟨hname, hkey⟩ := hfits
  cases x with
  | tenant t =>
    rw [name] at hname hkey
    obtain ⟨u, hu⟩ := hothers
    have hid : db.tenants.find? t.id = none := hadmitted
    let row : TenantRow := ⟨t.id, t.name.value, t.name.normalized, u⟩
    have hrow : TenantRow.ofTenant t = .ok row := by
      simp [TenantRow.ofTenant, hname, hkey, hu, bind, Except.bind, pure, Except.pure, row]
    have hleaves : (add ch (.tenant t)).leaves db =
        if ∀ r ∈ db.tenants.rows, r.normalizedName ≠ row.normalizedName then
          .ok (db.insertTenant row)
        else .error .tenantNameAlreadyExists := by
      simp only [add, stmt, Stmt.leaves, hrow, column, constraint_of hid, bind, Except.bind]
      by_cases hfree : ∀ r ∈ db.tenants.rows, r.normalizedName ≠ row.normalizedName
      · rw [constraint_of hfree, if_pos hfree]
        rfl
      · rw [constraint, if_neg hfree, if_neg hfree]
        rfl
    exact leaves_ite hleaves (by simp [key, owner, name, kind, Db.nameKeys, row])
      fun other => mem_map_insert _ hid other
  | agent a =>
    rw [name] at hname hkey
    obtain ⟨u, hu⟩ := hothers
    obtain ⟨hid, howner⟩ : db.agents.find? a.id = none ∧ db.tenants.find? a.tenantId ≠ none :=
      hadmitted
    let row : AgentRow := ⟨a.id, a.tenantId, a.name.value, a.name.normalized, u⟩
    have hrow : AgentRow.ofAgent a = .ok row := by
      simp [AgentRow.ofAgent, hname, hkey, hu, bind, Except.bind, pure, Except.pure, row]
    have hleaves : (add ch (.agent a)).leaves db =
        if ∀ r ∈ db.agents.rows,
          (r.tenantId, r.normalizedName) ≠ (row.tenantId, row.normalizedName) then
          .ok (db.insertAgent row)
        else .error .agentNameAlreadyExists := by
      simp only [add, stmt, Stmt.leaves, hrow, column, constraint_of hid, constraint_of howner,
        bind, Except.bind]
      by_cases hfree : ∀ r ∈ db.agents.rows,
          (r.tenantId, r.normalizedName) ≠ (row.tenantId, row.normalizedName)
      · rw [constraint_of hfree, if_pos hfree]
        rfl
      · rw [constraint, if_neg hfree, if_neg hfree]
        rfl
    exact leaves_ite hleaves (by simp [key, owner, name, kind, Db.nameKeys, row])
      fun other => mem_map_insert _ hid other
  | model m =>
    rw [name] at hname hkey
    obtain ⟨⟨u, hu⟩, href⟩ := hothers
    obtain ⟨hid, howner⟩ : db.models.find? m.id = none ∧ db.tenants.find? m.tenantId ≠ none :=
      hadmitted
    have hprovider : varchar 50 m.provider.value = .ok m.provider.value := by
      cases m.provider <;> decide
    have hreference : varchar 255 m.providerModelReference.value =
        .ok m.providerModelReference.value :=
      varchar_eq_ok.mpr ⟨href, m.providerModelReference.length.2⟩
    let row : ModelRow := ⟨m.id, m.tenantId, m.name.value, m.name.normalized, m.provider.value,
      m.providerModelReference.value, u⟩
    have hrow : ModelRow.ofModel m = .ok row := by
      simp [ModelRow.ofModel, hname, hkey, hprovider, hreference, hu, bind, Except.bind, pure,
        Except.pure, row]
    have hleaves : (add ch (.model m)).leaves db =
        if ∀ r ∈ db.models.rows,
          (r.tenantId, r.normalizedName) ≠ (row.tenantId, row.normalizedName) then
          .ok (db.insertModel row)
        else .error .modelNameAlreadyExists := by
      simp only [add, stmt, Stmt.leaves, hrow, column, constraint_of hid, constraint_of howner,
        bind, Except.bind]
      by_cases hfree : ∀ r ∈ db.models.rows,
          (r.tenantId, r.normalizedName) ≠ (row.tenantId, row.normalizedName)
      · rw [constraint_of hfree, if_pos hfree]
        rfl
      · rw [constraint, if_neg hfree, if_neg hfree]
        rfl
    exact leaves_ite hleaves (by simp [key, owner, name, kind, Db.nameKeys, row])
      fun other => mem_map_insert _ hid other

/-! ## What the columns are for -/

/-- Of two names: both fit, both are read back, and of two rows of one owner the second is
    refused for its name if and only if the names fold to the same. -/
structure NamesStorable (k : NameKind) (s s' : String) (name name' : Name) : Prop where
  fits : Fits name ∧ Fits name'
  rebuilt : k.new name.value = .ok name ∧ k.new name'.value = .ok name'
  unique : ∀ (ch : Choice) (db db' : Db) (x y : Named), x.kind = k → y.kind = k → x.name = name →
    y.name = name' → x.owner = y.owner → x.OthersFit → y.OthersFit → x.Admitted db →
    (x.add ch).leaves db = .ok db' → y.Admitted db' → y.key ∉ db.nameKeys k →
      ((y.add ch).leaves db' = .error y.alreadyExists ↔
        casefold (collapse s) = casefold (collapse s'))

/-- The names that `k` accepts can be stored if and only if their keys fit their column. -/
theorem names_storable_iff {k : NameKind} {s s' : String} {name name' : Name}
    (h : k.new s = .ok name) (h' : k.new s' = .ok name') (hnul : hasNul name.value = false)
    (hnul' : hasNul name'.value = false) :
    NamesStorable k s s' name name' ↔
      len (casefold (collapse s)) ≤ 200 ∧ len (casefold (collapse s')) ≤ 200 := by
  have hfits := fits_iff h hnul
  have hfits' := fits_iff h' hnul'
  constructor
  · intro hstorable
    exact ⟨hfits.mp hstorable.fits.1, hfits'.mp hstorable.fits.2⟩
  · rintro ⟨hlen, hlen'⟩
    obtain ⟨subject, hnew⟩ := k.new_eq
    rw [hnew] at h h'
    obtain ⟨hvalue, hkey⟩ := Name.new_ok h
    obtain ⟨hvalue', hkey'⟩ := Name.new_ok h'
    refine ⟨⟨hfits.mpr hlen, hfits'.mpr hlen'⟩, ?rebuilt, ?unique⟩
    case rebuilt =>
      rw [hnew]
      exact ⟨Name.new_value casefold subject hkey, Name.new_value casefold subject hkey'⟩
    case unique =>
      rintro ch db db' x y rfl hkind rfl rfl howner hx hy hadmitted hleaves hadmitted' hfree
      obtain ⟨-, herror⟩ | ⟨-, db'', hok, hkeys⟩ := Named.add_leaves ch (hfits.mpr hlen) hx hadmitted
      · rw [hleaves] at herror
        cases herror
      · rw [hleaves] at hok
        cases hok
        have htaken : y.key ∈ db'.nameKeys y.kind ↔
            casefold (collapse s) = casefold (collapse s') := by
          rw [hkind, hkeys, or_iff_right hfree, ← hvalue, ← hkey, ← hvalue', ← hkey']
          simp only [Named.key, howner, Prod.mk.injEq, true_and]
          exact eq_comm
        rw [← htaken]
        obtain ⟨hmem, herror⟩ | ⟨hnot, db'', hok, -⟩ :=
          Named.add_leaves ch (hfits'.mpr hlen') hy hadmitted'
        · exact iff_of_true herror hmem
        · refine iff_of_false ?_ hnot
          rw [hok]
          exact nofun

/-- ` Ops` and `ops` are one name. -/
theorem names_storable_ops : ∃ name name', NamesStorable .tenant " Ops" "ops" name name' := by
  have hfirst : casefold (collapse " Ops") = "ops" := by decide +kernel
  have hsecond : casefold (collapse "ops") = "ops" := by decide +kernel
  have h : NameKind.tenant.new " Ops" = .ok ⟨"Ops", "ops", by decide, by decide⟩ := by
    simp only [NameKind.new, TenantName.new, Name.new, hfirst]
    decide
  have h' : NameKind.tenant.new "ops" = .ok ⟨"ops", "ops", by decide, by decide⟩ := by
    simp only [NameKind.new, TenantName.new, Name.new, hsecond]
    decide
  refine ⟨_, _, (names_storable_iff h h' (by decide) (by decide)).mpr ?_⟩
  rw [hfirst, hsecond]
  decide

/-- A name of one word of the same characters. -/
theorem collapse_replicate (n : Nat) {c : Char} (h : isSpace c = false) :
    collapse (String.ofList (List.replicate (n + 1) c)) =
      String.ofList (List.replicate (n + 1) c) := by
  have hword : splitWords (List.replicate (n + 1) c) = [List.replicate (n + 1) c] := by
    refine splitWords_word (by simp) ?_
    intro d hd
    rw [List.eq_of_mem_replicate hd]
    exact h
  simp [collapse, hword]

theorem casefold_replicate (n : Nat) {c : Char} {cs : List Char} (h : casefoldChar c = cs) :
    casefold (String.ofList (List.replicate n c)) =
      String.ofList (List.replicate n cs).flatten := by
  rw [casefold, String.toList_ofList, ← h, List.flatMap_replicate]

/-- A text without spaces that is too long is refused. -/
theorem varchar_error {n : Nat} {s : String} (hlen : n < len s) (hchars : ∀ c ∈ s.toList, c ≠ ' ') :
    varchar n s = .error ⟨⟩ := by
  obtain ⟨c, hc⟩ : ∃ c, c ∈ s.toList.drop n := by
    apply List.exists_mem_of_ne_nil
    rw [ne_eq, List.drop_eq_nil_iff]
    exact Nat.not_le.mpr hlen
  have hall : (s.toList.drop n).all (· = ' ') = false := by
    rw [List.all_eq_false]
    exact ⟨c, hc, by simpa using hchars c (List.mem_of_mem_drop hc)⟩
  rw [varchar, if_neg (Nat.not_le.mpr hlen), hall]
  split <;> rfl

theorem collapse_ligatures (n : Nat) : collapse (String.ofList (List.replicate (n + 1) 'ﬃ')) =
    String.ofList (List.replicate (n + 1) 'ﬃ') :=
  collapse_replicate n (by decide)

theorem length_ligatures (n : Nat) (h : n < 100) :
    String.ofList (List.replicate (n + 1) 'ﬃ') ≠ "" ∧
      len (String.ofList (List.replicate (n + 1) 'ﬃ')) ≤ 100 := by
  constructor
  · intro hempty
    simpa using congrArg String.toList hempty
  · rw [len, String.toList_ofList, List.length_replicate]
    omega

/-- U+FB03 `n` times and once more; each folds to `ffi`. -/
def ligatures (n : Nat) (h : n < 100) : Name where
  value := String.ofList (List.replicate (n + 1) 'ﬃ')
  normalized := String.ofList (List.replicate (n + 1) ['f', 'f', 'i']).flatten
  collapsed := collapse_ligatures n
  length := length_ligatures n h

theorem ligatures_normalized (n : Nat) (h : n < 100) :
    (ligatures n h).normalized = casefold (ligatures n h).value :=
  (casefold_replicate (n + 1) (by decide +kernel)).symm

theorem hasNul_ligatures (n : Nat) (h : n < 100) : hasNul (ligatures n h).value = false := by
  simp [ligatures, hasNul]

theorem varchar_ligatures (n : Nat) (h : n < 100) (hlong : 66 ≤ n) :
    varchar 200 (ligatures n h).normalized = .error ⟨⟩ := by
  apply varchar_error
  · simp only [ligatures, len, String.toList_ofList, List.length_flatten, List.map_replicate,
      List.sum_replicate_nat, List.length_cons, List.length_nil]
    omega
  · intro c hc
    simp only [ligatures, String.toList_ofList, List.mem_flatten, List.mem_replicate] at hc
    obtain ⟨cs, ⟨-, rfl⟩, hc⟩ := hc
    simp only [List.mem_cons, List.not_mem_nil, or_false] at hc
    rcases hc with rfl | rfl | rfl <;> decide

/-- A name of a hundred ligatures is accepted, and no tenant of that name can be stored: the
    key has 300 characters. -/
theorem ligatures_not_storable : ∃ name : Name,
    NameKind.tenant.new (String.ofList (List.replicate 100 'ﬃ')) = .ok name ∧
    hasNul name.value = false ∧ ¬ Fits name ∧
    ∀ (ch : Choice) (db : Db) (t : Tenant), t.name = name →
      (stmt ch (.tenantsAdd t)).leaves db = .error .database := by
  have hkey := varchar_ligatures 99 (by omega) (by omega)
  have hfold := ligatures_normalized 99 (by omega)
  have hnul := hasNul_ligatures 99 (by omega)
  have hvalue : (ligatures 99 (by omega)).value = String.ofList (List.replicate 100 'ﬃ') := rfl
  generalize ligatures 99 (by omega) = name at *
  have hname : varchar 100 name.value = .ok name.value :=
    varchar_eq_ok.mpr ⟨hnul, name.length.2⟩
  rw [← hvalue]
  refine ⟨name, Name.new_value casefold "Tenant" hfold, hnul, ?_, ?_⟩
  · rintro ⟨-, h⟩
    rw [hkey] at h
    cases h
  · intro ch db t ht
    have hrow : TenantRow.ofTenant t = .error ⟨⟩ := by
      rw [TenantRow.ofTenant, ht, hname, hkey]
      rfl
    rw [stmt, Stmt.leaves, hrow]
    rfl

/-- A name of at most 66 characters can be stored, whatever they are. -/
theorem fits_of_short {k : NameKind} {s : String} {name : Name} (h : k.new s = .ok name)
    (hnul : hasNul name.value = false) (hshort : len name.value ≤ 66) : Fits name := by
  rw [fits_iff h hnul]
  obtain ⟨subject, hnew⟩ := k.new_eq
  rw [hnew] at h
  have hfold := len_casefold_le (collapse s)
  rw [(Name.new_ok h).1] at hshort
  omega

end Valor.ControlPlane
