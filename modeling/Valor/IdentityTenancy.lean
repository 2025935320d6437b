/-
  Identity and tenancy: tenants and their names.

  The names of tenants, agents and models have the same rules. A name is collapsed to
  single spaces and has 1 to 100 characters; `normalized` is its case fold, under which it
  is unique. `str.casefold` is a parameter: nothing here depends on what it does.
-/
import Valor.Python.Datetime
import Valor.Python.Text
import Valor.Python.Uuid
import Valor.Credential

namespace Valor

open Python

structure Name where
  value : String
  normalized : String
  collapsed : collapse value = value
  length : value ≠ "" ∧ len value ≤ 100
  deriving DecidableEq

/-- `__post_init__` of the name of a `subject`. -/
def Name.new (casefold : String → String) (subject value : String) : Except ValueError Name :=
  if hne : collapse value = "" then .error ⟨subject ++ " name must not be empty."⟩
  else if hlen : len (collapse value) > 100 then
    .error ⟨subject ++ " name must be at most 100 characters."⟩
  else
    .ok ⟨collapse value, casefold (collapse value), collapse_collapse value, hne, by omega⟩

theorem Name.new_ok {casefold : String → String} {subject value : String} {name : Name}
    (h : new casefold subject value = .ok name) :
    name.value = collapse value ∧ name.normalized = casefold name.value := by
  unfold new at h
  split at h
  · cases h
  · split at h
    · cases h
    · cases h
      exact ⟨rfl, rfl⟩

/-- A name is read back from its value. -/
theorem Name.new_value (casefold : String → String) (subject : String) {name : Name}
    (h : name.normalized = casefold name.value) : new casefold subject name.value = .ok name := by
  have hlen := name.length
  have hcol := name.collapsed
  rw [new, dif_neg (by rw [hcol]; exact hlen.1), dif_neg (by rw [hcol]; omega)]
  obtain ⟨value, normalized, _, _⟩ := name
  dsimp only at h hcol ⊢
  subst h
  congr 1
  simp only [hcol]

namespace IdentityTenancy

def TenantName.new (casefold : String → String) (value : String) : Except ValueError Name :=
  Name.new casefold "Tenant" value

structure Tenant where
  id : Uuid
  name : Name
  createdAt : Aware
  deriving DecidableEq

def Tenant.create (casefold : String → String) (tenantId : Uuid) (name : String)
    (createdAt : Datetime) : Except ValueError Tenant := do
  let name ← TenantName.new casefold name
  let createdAt ← requireAware "Tenant creation time must be timezone-aware." createdAt
  return ⟨tenantId, name, createdAt⟩

end IdentityTenancy

end Valor
