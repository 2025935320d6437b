/-
  Policy and risk: the permission of an Agent to use a Model, and its evaluations.

  A permission is one for its tenant, Agent and Model together (`Subject`). `restored` is a
  permission as it is made from stored columns: the constructor raises where the update
  precedes the creation.
-/
import Valor.Credential

namespace Valor.PolicyRisk

open Python

inductive PolicyEffect where
  | allow
  | deny
  deriving DecidableEq, Repr

/-- `effect.value`. -/
def PolicyEffect.value : PolicyEffect → String
  | allow => "allow"
  | deny => "deny"

theorem PolicyEffect.value_eq_allow {e : PolicyEffect} : e.value = "allow" ↔ e = .allow := by
  cases e <;> simp [PolicyEffect.value]

/-- What a permission is about. -/
structure Subject where
  tenantId : Uuid
  agentId : Uuid
  modelId : Uuid
  deriving DecidableEq

structure AgentModelPermission where
  id : Uuid
  tenantId : Uuid
  agentId : Uuid
  modelId : Uuid
  effect : PolicyEffect
  createdAt : Aware
  updatedAt : Aware
  ordered : createdAt ≤ updatedAt
  deriving DecidableEq

namespace AgentModelPermission

def subject (p : AgentModelPermission) : Subject := ⟨p.tenantId, p.agentId, p.modelId⟩

def new (id tenantId agentId modelId : Uuid) (effect : PolicyEffect)
    (createdAt updatedAt : Datetime) : Except ValueError AgentModelPermission := do
  let createdAt ← requireAware "Policy timestamps must be timezone-aware." createdAt
  let updatedAt ← requireAware "Policy timestamps must be timezone-aware." updatedAt
  if h : updatedAt < createdAt then throw ⟨"Permission update cannot precede creation."⟩
  else return ⟨id, tenantId, agentId, modelId, effect, createdAt, updatedAt, Int.not_lt.mp h⟩

end AgentModelPermission

structure PolicyDecision where
  id : Uuid
  invocationId : Uuid
  tenantId : Uuid
  agentId : Uuid
  modelId : Uuid
  permissionId : Option Uuid
  effect : PolicyEffect
  decidedAt : Aware
  deriving DecidableEq

namespace PolicyDecision

def subject (d : PolicyDecision) : Subject := ⟨d.tenantId, d.agentId, d.modelId⟩

def new (id invocationId tenantId agentId modelId : Uuid) (permissionId : Option Uuid)
    (effect : PolicyEffect) (decidedAt : Datetime) : Except ValueError PolicyDecision := do
  let decidedAt ← requireAware "Policy timestamps must be timezone-aware." decidedAt
  return ⟨id, invocationId, tenantId, agentId, modelId, permissionId, effect, decidedAt⟩

/-- The decision on a permission, or on none: the effect is then DENY. -/
def ofPermission (id invocationId : Uuid) (subject : Subject)
    (permission : Option AgentModelPermission) (decidedAt : Datetime) :
    Except ValueError PolicyDecision :=
  new id invocationId subject.tenantId subject.agentId subject.modelId (permission.map (·.id))
    ((permission.map (·.effect)).getD .deny) decidedAt

end PolicyDecision

end Valor.PolicyRisk
