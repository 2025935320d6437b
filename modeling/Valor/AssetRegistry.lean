/-
  AI asset registry: the Agents and Models that a tenant owns.
-/
import Valor.IdentityTenancy

namespace Valor.AssetRegistry

open Python

def AgentName.new (casefold : String → String) (value : String) : Except ValueError Name :=
  Name.new casefold "Agent" value

def ModelName.new (casefold : String → String) (value : String) : Except ValueError Name :=
  Name.new casefold "Model" value

structure Agent where
  id : Uuid
  tenantId : Uuid
  name : Name
  createdAt : Aware
  deriving DecidableEq

def Agent.register (casefold : String → String) (agentId tenantId : Uuid) (name : String)
    (createdAt : Datetime) : Except ValueError Agent := do
  let name ← AgentName.new casefold name
  let createdAt ← requireAware "Agent registration time must be timezone-aware." createdAt
  return ⟨agentId, tenantId, name, createdAt⟩

inductive Provider where
  | openai
  | anthropic
  | google
  | azureOpenai
  | awsBedrock
  | other
  deriving DecidableEq, Repr

/-- `provider.value`. -/
def Provider.value : Provider → String
  | openai => "openai"
  | anthropic => "anthropic"
  | google => "google"
  | azureOpenai => "azure_openai"
  | awsBedrock => "aws_bedrock"
  | other => "other"

structure ProviderModelReference where
  value : String
  stripped : strip value = value
  length : value ≠ "" ∧ len value ≤ 255
  deriving DecidableEq

/-- `ProviderModelReference.__post_init__`, which raises InvalidProviderModelReference. -/
def ProviderModelReference.new (value : String) : Except ValueError ProviderModelReference :=
  if hne : strip value = "" then .error ⟨"Provider model reference must not be empty."⟩
  else if hlen : len (strip value) > 255 then
    .error ⟨"Provider model reference must be at most 255 characters."⟩
  else .ok ⟨strip value, strip_strip value, hne, by omega⟩

structure Model where
  id : Uuid
  tenantId : Uuid
  name : Name
  provider : Provider
  providerModelReference : ProviderModelReference
  createdAt : Aware
  deriving DecidableEq

/-- The errors of `Model.register`, by their exception. -/
inductive InvalidModel where
  | name (message : String)
  | providerModelReference (message : String)
  | valueError (message : String)

def Model.register (casefold : String → String) (modelId tenantId : Uuid) (name : String)
    (provider : Provider) (providerModelReference : String) (createdAt : Datetime) :
    Except InvalidModel Model := do
  let name ← (ModelName.new casefold name).mapError fun e => .name e.message
  let reference ← (ProviderModelReference.new providerModelReference).mapError fun e =>
    .providerModelReference e.message
  let createdAt ← (requireAware "Model registration time must be timezone-aware." createdAt).mapError
    fun e => .valueError e.message
  return ⟨modelId, tenantId, name, provider, reference, createdAt⟩

end Valor.AssetRegistry
