/-
  The control plane: what is stored is read back.

  A repository makes of each row the value that it was written from: names and references are
  stored as their constructors leave them, and of an Invocation that the columns take they
  hold every value, money exactly. So no row that a request has written fails to load
  (`loads_of_run`), which the readers rely on that load a resource before they ask whose it
  is.
-/
import Valor.ControlPlane.Overshoot
import Valor.RuntimeAuthentication
import Valor.RuntimeGateway.RecordedSpend

namespace Valor.ControlPlane

open Python Postgres ManagementAudit IdentityTenancy AssetRegistry PolicyRisk RuntimeGateway
  Prog Interleave ReadCommitted Settings Decimal

/-! ## Rows that are loaded -/

/-- The exceptions of the readers. -/
inductive ReadError where
  /-- A query parameter that its declaration refuses. -/
  | requestValidation
  | tenantNotFound (tenantId : Uuid)
  | agentNotFound (agentId : Uuid)
  | modelNotFound (modelId : Uuid)
  | permissionNotFound (permissionId : Uuid)
  | invocationNotFound (invocationId : Uuid)
  | tenantRuntimeReportNotFound
  | invalidReportRange (message : String)
  | runtimeReportUnavailable
  | tenantAuditNotFound
  | invalidAuditRange (message : String)
  | managementAuditUnavailable
  -- A row that its constructors refuse
  | invalidName (message : String)
  | invalidProviderModelReference (message : String)
  | invocation (error : InvocationError)
  | valueError (message : String)
  -- Any reader
  | overflowError
  /-- A SQLAlchemyError that is not caught. -/
  | database
  deriving DecidableEq

/-- What `SqlAlchemyTenantRepository.get` makes of the row it finds. -/
def TenantRow.toTenant (casefold : String → String) (row : TenantRow) : Except ReadError Tenant := do
  let name ← (TenantName.new casefold row.name).mapError fun e => .invalidName e.message
  return ⟨row.id, name, row.createdAt⟩

/-- The same of `SqlAlchemyAgentRepository.get`. -/
def AgentRow.toAgent (casefold : String → String) (row : AgentRow) : Except ReadError Agent := do
  let name ← (AgentName.new casefold row.name).mapError fun e => .invalidName e.message
  return ⟨row.id, row.tenantId, name, row.createdAt⟩

/-- `Provider(value)`. -/
def providerOfValue (value : String) : Except ReadError Provider :=
  match value with
  | "openai" => .ok .openai
  | "anthropic" => .ok .anthropic
  | "google" => .ok .google
  | "azure_openai" => .ok .azureOpenai
  | "aws_bedrock" => .ok .awsBedrock
  | "other" => .ok .other
  | _ => .error (.valueError ("'" ++ value ++ "' is not a valid Provider"))

/-- The same of `SqlAlchemyModelRepository.get`. -/
def ModelRow.toModel (casefold : String → String) (row : ModelRow) : Except ReadError Model := do
  let name ← (ModelName.new casefold row.name).mapError fun e => .invalidName e.message
  let provider ← providerOfValue row.provider
  let reference ← (ProviderModelReference.new row.providerModelReference).mapError fun e =>
    .invalidProviderModelReference e.message
  return ⟨row.id, row.tenantId, name, provider, reference, row.createdAt⟩

/-- Every row is loaded, and of permissions no two have one id. -/
structure Loads (casefold : String → String) (db : Db) : Prop where
  tenants : ∀ r ∈ db.tenants, ∃ t, r.toTenant casefold = .ok t
  agents : ∀ r ∈ db.agents, ∃ a, r.toAgent casefold = .ok a
  models : ∀ r ∈ db.models, ∃ m, r.toModel casefold = .ok m
  permissions : ∀ r ∈ db.permissions, ∃ p, permissionFromRow r = .ok p
  permissionIds : ∀ r ∈ db.permissions, ∀ r' ∈ db.permissions, r.id = r'.id → r = r'
  invocations : ∀ r ∈ db.invocations, ∃ i, r.toInvocation = .ok (some i)

section Assets

variable {casefold : String → String} {subject value reference : String} {id tenantId : Uuid} {name : Name}
  {createdAt : Utc} {provider : Provider}

theorem name_readBack (h : Name.new casefold subject value = .ok name) :
    Name.new casefold subject name.value = .ok name :=
  Name.new_value casefold subject (Name.new_ok h).2

theorem reference_readBack (r : ProviderModelReference) : ProviderModelReference.new r.value = .ok r := by
  obtain ⟨value, hstripped, hne, hlen⟩ := r
  unfold ProviderModelReference.new
  simp only [hstripped]
  rw [dif_neg hne, dif_neg (by omega)]

theorem providerOfValue_value (p : Provider) : providerOfValue p.value = .ok p := by
  cases p <;> rfl

/-- A tenant that was created is loaded as it was. -/
theorem toTenant_ofTenant {t : Tenant} {row : TenantRow}
    (made : Tenant.create casefold id value (.aware createdAt) = .ok t)
    (hrow : TenantRow.ofTenant t = .ok row) : row.toTenant casefold = .ok t := by
  obtain ⟨name, hname, made⟩ := Except.bind_ok_cases made
  obtain ⟨_, hcreated, made⟩ := Except.bind_ok_cases made
  cases hcreated
  cases made
  obtain ⟨v, hv, hrow⟩ := Except.bind_ok_cases hrow
  obtain ⟨_, _, hrow⟩ := Except.bind_ok_cases hrow
  obtain ⟨c, hc, hrow⟩ := Except.bind_ok_cases hrow
  cases hrow
  obtain rfl := varchar_ok hv name.length.2
  rw [timestamptz_toAware] at hc
  cases hc
  have hname' : TenantName.new casefold name.value = .ok name := name_readBack hname
  exact Except.bind_eq_ok (congrArg (Except.mapError _) hname') rfl

theorem toAgent_ofAgent {a : Agent} {row : AgentRow}
    (made : Agent.register casefold id tenantId value (.aware createdAt) = .ok a)
    (hrow : AgentRow.ofAgent a = .ok row) : row.toAgent casefold = .ok a := by
  obtain ⟨name, hname, made⟩ := Except.bind_ok_cases made
  obtain ⟨_, hcreated, made⟩ := Except.bind_ok_cases made
  cases hcreated
  cases made
  obtain ⟨v, hv, hrow⟩ := Except.bind_ok_cases hrow
  obtain ⟨_, _, hrow⟩ := Except.bind_ok_cases hrow
  obtain ⟨c, hc, hrow⟩ := Except.bind_ok_cases hrow
  cases hrow
  obtain rfl := varchar_ok hv name.length.2
  rw [timestamptz_toAware] at hc
  cases hc
  have hname' : AgentName.new casefold name.value = .ok name := name_readBack hname
  exact Except.bind_eq_ok (congrArg (Except.mapError _) hname') rfl

theorem provider_fits (p : Provider) : len p.value ≤ 50 := by
  cases p <;> decide

theorem toModel_ofModel {m : Model} {row : ModelRow}
    (made : Model.register casefold id tenantId value provider reference (.aware createdAt) = .ok m)
    (hrow : ModelRow.ofModel m = .ok row) : row.toModel casefold = .ok m := by
  obtain ⟨name, hname, made⟩ := Except.bind_ok_cases made
  obtain ⟨ref, _, made⟩ := Except.bind_ok_cases made
  obtain ⟨_, hcreated, made⟩ := Except.bind_ok_cases made
  cases hcreated
  cases made
  obtain ⟨v, hv, hrow⟩ := Except.bind_ok_cases hrow
  obtain ⟨_, _, hrow⟩ := Except.bind_ok_cases hrow
  obtain ⟨p, hp, hrow⟩ := Except.bind_ok_cases hrow
  obtain ⟨r, hr, hrow⟩ := Except.bind_ok_cases hrow
  obtain ⟨c, hc, hrow⟩ := Except.bind_ok_cases hrow
  cases hrow
  obtain rfl := varchar_ok hv name.length.2
  obtain rfl := varchar_ok hp (provider_fits provider)
  obtain rfl := varchar_ok hr ref.length.2
  rw [timestamptz_toAware] at hc
  cases hc
  have hname' : ModelName.new casefold name.value = .ok name :=
    name_readBack (Except.mapError_eq_ok.mp hname)
  refine Except.bind_eq_ok (congrArg (Except.mapError _) hname') ?_
  refine Except.bind_eq_ok (providerOfValue_value provider) ?_
  exact Except.bind_eq_ok (congrArg (Except.mapError _) (reference_readBack ref)) rfl

end Assets

/-! ## Invocations -/

section Invocations

variable {i : Invocation} {row : InvocationRow}

/-- What the columns have taken of an optional value. -/
theorem mapM_eq {α β ε : Type} {f : α → Except ε β} {g : α → β} {x : Option α} {y : Option β}
    (h : x.mapM f = .ok y) (hf : ∀ a ∈ x, ∀ b, f a = .ok b → b = g a) : y = x.map g := by
  cases x with
  | none =>
    cases h
    rfl
  | some a =>
    rw [Option.mapM_some] at h
    obtain ⟨b, hb, h⟩ := Except.bind_ok_cases h
    cases h
    rw [hf a rfl b hb]
    rfl

theorem mapM_eq_self {α ε : Type} {f : α → Except ε α} {x y : Option α} (h : x.mapM f = .ok y)
    (hf : ∀ a ∈ x, ∀ b, f a = .ok b → b = a) : y = x := by
  simpa using mapM_eq (g := id) h hf

/-- A column of 12 decimals has taken a value that has no more. -/
theorem numeric_eq {precision digits : Nat} {a : Decimal} {units : Int}
    (h : numeric precision 12 a = .ok units) (hfits : a.Fits digits 12) : units = unitsAt 12 a := by
  have htaken := (numeric_of_fits hfits).1
  unfold numeric at h htaken
  dsimp only at h htaken
  generalize (if (-(12 : ℕ) : ℤ) ≤ a.exponent then a.scaled (-(12 : ℕ))
    else divHalfAway a.coefficient (10 ^ (-(12 : ℕ) - a.exponent).toNat)) = rounded at h htaken
  split at h
  · split at htaken
    · exact (Except.ok.inj h).symm.trans (Except.ok.inj htaken)
    · cases htaken
  · cases h

/-- The row of an Invocation whose money is exact. -/
theorem ofInvocation_stored (h : InvocationRow.ofInvocation i = .ok row)
    (he : Exact i.toInvocationFields) (hprincipal : len i.runtimePrincipalId ≤ 255)
    (hpricing : ∀ cost ∈ i.estimatedCost, len cost.pricingVersion ≤ 255) :
    row = storedRow i.toInvocationFields := by
  have hresponse := (InvocationFields.postInit_eq_self.mp i.accepted).responseId
  have hlength := (InvocationFields.checkedResponseId_ok hresponse).2
  have hinteger : ∀ n m : Int, integer n = .ok m → m = n := fun n m h => (integer_ok h).2
  unfold InvocationRow.ofInvocation at h
  obtain ⟨_, hinput, h⟩ := Except.bind_ok_cases h
  obtain ⟨_, houtput, h⟩ := Except.bind_ok_cases h
  obtain ⟨_, hid, h⟩ := Except.bind_ok_cases h
  obtain ⟨_, hduration, h⟩ := Except.bind_ok_cases h
  obtain ⟨_, hinputs, h⟩ := Except.bind_ok_cases h
  obtain ⟨_, houtputs, h⟩ := Except.bind_ok_cases h
  obtain ⟨_, htotals, h⟩ := Except.bind_ok_cases h
  obtain ⟨_, hresponses, h⟩ := Except.bind_ok_cases h
  obtain ⟨_, hconsumed, h⟩ := Except.bind_ok_cases h
  obtain ⟨_, hlimit, h⟩ := Except.bind_ok_cases h
  obtain ⟨_, hallowance, h⟩ := Except.bind_ok_cases h
  obtain ⟨_, hcurrency, h⟩ := Except.bind_ok_cases h
  obtain ⟨_, hcostInput, h⟩ := Except.bind_ok_cases h
  obtain ⟨_, hcostOutput, h⟩ := Except.bind_ok_cases h
  obtain ⟨_, hcostTotal, h⟩ := Except.bind_ok_cases h
  obtain ⟨_, hversion, h⟩ := Except.bind_ok_cases h
  obtain ⟨_, hbasis, h⟩ := Except.bind_ok_cases h
  obtain ⟨_, hinputRate, h⟩ := Except.bind_ok_cases h
  obtain ⟨_, houtputRate, h⟩ := Except.bind_ok_cases h
  obtain ⟨_, hbudgetConsumed, h⟩ := Except.bind_ok_cases h
  obtain ⟨_, hbudgetLimit, h⟩ := Except.bind_ok_cases h
  obtain ⟨_, hbudgetAllowance, h⟩ := Except.bind_ok_cases h
  cases h
  obtain rfl := (text_ok hinput).2
  obtain rfl := mapM_eq houtput fun s _ t ht => (text_ok (utf8_then_ok ht).2).2
  obtain rfl := varchar_ok hid hprincipal
  obtain rfl := mapM_eq_self hduration fun n _ => hinteger n
  obtain rfl := mapM_eq_self hinputs fun n _ => hinteger n
  obtain rfl := mapM_eq_self houtputs fun n _ => hinteger n
  obtain rfl := mapM_eq_self htotals fun n _ => hinteger n
  obtain rfl := mapM_eq hresponses fun s hs t ht => by
    obtain ⟨hsurrogate, ht⟩ := utf8_then_ok ht
    exact varchar_ok ht ((Str.len_scalars hsurrogate).trans_le (hlength s hs).2.2)
  obtain rfl := mapM_eq_self hconsumed fun n _ => hinteger n
  obtain rfl := mapM_eq_self hlimit fun n _ => hinteger n
  obtain rfl := mapM_eq_self hallowance fun n _ => hinteger n
  obtain rfl := mapM_eq_self hbasis fun n _ => hinteger n
  obtain rfl := mapM_eq_self hcurrency fun s hs t ht => by
    obtain ⟨cost, _, rfl⟩ := Option.map_eq_some_iff.mp hs
    exact varchar_ok ht (by rw [cost.usd]; decide)
  obtain rfl := mapM_eq_self hversion fun s hs t ht => by
    obtain ⟨cost, hcost, rfl⟩ := Option.map_eq_some_iff.mp hs
    exact varchar_ok ht (hpricing cost hcost)
  obtain rfl := mapM_eq hcostInput fun a ha u hu => by
    obtain ⟨cost, hcost, rfl⟩ := Option.map_eq_some_iff.mp ha
    obtain ⟨_, hfits, _⟩ := he.cost cost hcost
    exact numeric_eq hu hfits
  obtain rfl := mapM_eq hcostOutput fun a ha u hu => by
    obtain ⟨cost, hcost, rfl⟩ := Option.map_eq_some_iff.mp ha
    obtain ⟨_, _, hfits, _⟩ := he.cost cost hcost
    exact numeric_eq hu hfits
  obtain rfl := mapM_eq hcostTotal fun a ha u hu => by
    obtain ⟨cost, hcost, rfl⟩ := Option.map_eq_some_iff.mp ha
    obtain ⟨_, _, _, hfits⟩ := he.cost cost hcost
    exact numeric_eq hu hfits
  obtain rfl := mapM_eq hinputRate fun a ha u hu => by
    obtain ⟨cost, hcost, rfl⟩ := Option.map_eq_some_iff.mp ha
    obtain ⟨_, hfits, _⟩ := he.rates cost hcost
    exact numeric_eq hu hfits
  obtain rfl := mapM_eq houtputRate fun a ha u hu => by
    obtain ⟨cost, hcost, rfl⟩ := Option.map_eq_some_iff.mp ha
    obtain ⟨_, _, hfits⟩ := he.rates cost hcost
    exact numeric_eq hu hfits
  obtain rfl := mapM_eq hbudgetConsumed fun a ha u hu => numeric_eq hu (he.costBudgetConsumed a ha).choose_spec
  obtain rfl := mapM_eq hbudgetLimit fun a ha u hu => numeric_eq hu (he.costBudgetLimit a ha).choose_spec
  obtain rfl := mapM_eq hbudgetAllowance fun a ha u hu => numeric_eq hu (he.costBudgetAllowance a ha).choose_spec
  simp only [storedRow, Option.map_map]
  rfl

/-- An Invocation that its columns take is loaded the same. -/
theorem toInvocation_ofInvocation (h : InvocationRow.ofInvocation i = .ok row)
    (he : Exact i.toInvocationFields) (hprincipal : len i.runtimePrincipalId ≤ 255)
    (hpricing : ∀ cost ∈ i.estimatedCost, len cost.pricingVersion ≤ 255) :
    ∃ j, row.toInvocation = .ok (some j) ∧ SameInvocation j.toInvocationFields i.toInvocationFields := by
  rw [ofInvocation_stored h he hprincipal hpricing]
  exact toInvocation_exact (InvocationFields.postInit_eq_self.mp i.accepted) he (encoded_of_row h)

/-- The constructor changes no money. -/
theorem exact_of_new {f : InvocationFields} (h : Invocation.new f = .ok i) (hf : Exact f) :
    Exact i.toInvocationFields := by
  have heq := InvocationFields.postInit_eq (Invocation.new_ok h)
  rw [heq]
  exact ⟨hf.cost, hf.rates, hf.costBudgetConsumed, hf.costBudgetLimit, hf.costBudgetAllowance⟩

theorem resolvePricing_ok {settings : PricingSettings} {provider reference : String} :
    ∀ p ∈ resolvePricing settings provider reference, ∃ entry, pricingOf entry = .ok p := by
  intro p hp
  obtain ⟨entry, _, hentry⟩ := Option.bind_eq_some_iff.mp hp
  refine ⟨entry, ?_⟩
  cases hpricing : pricingOf entry with
  | ok q =>
    rw [hpricing] at hentry
    exact congrArg Except.ok (Option.some.inj hentry)
  | error e =>
    rw [hpricing] at hentry
    cases hentry

/-- Counts that have room in their columns cost what is exact. -/
theorem exact_of_succeeded {c : Invocation.Common} {outputText : Str} {usage : Option InvocationUsage}
    {responseId : Option Str} {pricing : Option PricingSnapshot} {cost : Option InvocationCost}
    (hcost : attributeCost usage pricing = .ok cost)
    (hpricing : ∀ p ∈ pricing, ∃ entry, pricingOf entry = .ok p)
    (hi : Invocation.succeeded c outputText usage responseId cost = .ok i)
    (hrow : InvocationRow.ofInvocation i = .ok row) :
    Exact i.toInvocationFields ∧ ∀ a ∈ i.estimatedCost, len a.pricingVersion ≤ 255 := by
  have hexecuted := executed_of_succeeded hi
  obtain ⟨-, -, -, -, hinputs, houtputs, -, -, -⟩ := fits_of_row hrow
  rw [hexecuted.usage] at hinputs houtputs
  have hunits : ∀ u ∈ usage, (∀ n ∈ u.inputUnits, FitsInteger n) ∧ ∀ n ∈ u.outputUnits, FitsInteger n := by
    rintro u rfl
    exact ⟨hinputs, houtputs⟩
  have hparts : ∀ a ∈ cost, attributeCost usage pricing = .ok (some a) := by
    rintro a rfl
    exact hcost
  refine ⟨?_, fun a ha => ?_⟩
  · obtain ⟨ms, _, hnew⟩ := Except.bind_ok_cases hi
    refine exact_of_new hnew ⟨fun a ha => ⟨28, ?_⟩, fun a ha => ⟨18, ?_⟩, ?_, ?_, ?_⟩
    · exact (attributeCost_fits (hparts a ha) hunits hpricing).1
    · exact (attributeCost_fits (hparts a ha) hunits hpricing).2
    all_goals
      rintro _ ⟨⟩
  · rw [hexecuted.cost] at ha
    exact (attributeCost_ok (hparts a ha)).1

variable {settings : RuntimeSettings} {command : CreateInvocationCommand} {c : Invocation.Common}
  {evs : List Event} {effect : String}

/-- The money of a conclusion is exact, as the ledger answers it. -/
theorem Concluded.exact (h : Concluded settings command c evs effect i)
    (hledger : ∀ start stop cost, ⟨.sql (.attributedCost c.tenantId start stop), .ok cost⟩ ∈ evs →
      ∃ digits, cost.Fits digits 12) (hrow : InvocationRow.ofInvocation i = .ok row) :
    Exact i.toInvocationFields ∧ ∀ a ∈ i.estimatedCost, len a.pricingVersion ≤ 255 := by
  have hfree : ∀ {f : InvocationFields}, Invocation.new f = .ok i → f.estimatedCost = none → Exact f →
      Exact i.toInvocationFields ∧ ∀ a ∈ i.estimatedCost, len a.pricingVersion ≤ 255 := by
    intro f hnew hnone hf
    refine ⟨exact_of_new hnew hf, ?_⟩
    rw [InvocationFields.postInit_eq (Invocation.new_ok hnew)]
    rw [hnone]
    rintro _ ⟨⟩
  cases h with
  | denied _ hi | limited _ _ _ hi | failed _ _ _ hi =>
    obtain ⟨ms, _, hnew⟩ := Except.bind_ok_cases hi
    refine hfree hnew rfl ⟨?_, ?_, ?_, ?_, ?_⟩
    all_goals
      rintro _ ⟨⟩
  | @costLimited window d d' _ _ _ _ hcost _ hi =>
    obtain ⟨ms, _, hnew⟩ := Except.bind_ok_cases hi
    obtain ⟨budget, cost, hbudget, hread, hdecided⟩ := hcost
    obtain ⟨hlimit, hallowance⟩ := resolveBudget_fits hbudget
    unfold decideTenantCostBudget at hdecided
    split at hdecided
    · cases hdecided
    · cases hdecided
      refine hfree hnew rfl ⟨?_, ?_, ?_, ?_, ?_⟩
      · rintro _ ⟨⟩
      · rintro _ ⟨⟩
      · rintro _ ⟨⟩
        exact hledger _ _ _ hread
      · rintro _ ⟨⟩
        exact ⟨30, hlimit⟩
      · rintro _ ⟨⟩
        exact ⟨30, hallowance⟩
  | succeeded _ _ _ hattributed hi => exact exact_of_succeeded hattributed resolvePricing_ok hi hrow

end Invocations

/-! ## Callers -/

/-- The command of `create_invocation`: tenant, Agent and limits are those of the principal. -/
def commandOf (principal : Security.RuntimePrincipal) (modelId : Uuid) (inputText : String) :
    CreateInvocationCommand :=
  ⟨principal.principalId, principal.tenantId, principal.agentId, modelId, inputText,
    principal.usageLimit, principal.perInvocationAllowance⟩

/-- Every Invocation is requested by a principal that was authenticated. -/
def Authenticated (auth : RuntimeAuthenticationSettings) (requests : Tid → Request) : Prop :=
  ∀ i env decisionEnv command, requests i = .createInvocation env decisionEnv command →
    ∃ credentials principal modelId inputText,
      Security.requireRuntimePrincipal auth credentials = .ok principal ∧
        command = commandOf principal modelId inputText

theorem Authenticated.principal {auth : RuntimeAuthenticationSettings} {requests : Tid → Request}
    (hauth : Authenticated auth requests) {i : Tid} {env : InvocationEnv}
    {decisionEnv : DecisionEnv} {command : CreateInvocationCommand}
    (h : requests i = .createInvocation env decisionEnv command) :
    ∃ p ∈ auth.principals, p.principalId = command.runtimePrincipalId ∧ p.tenantId = command.tenantId := by
  obtain ⟨credentials, principal, modelId, inputText, hprincipal, rfl⟩ := hauth i _ _ _ h
  exact Security.requireRuntimePrincipal_ok hprincipal

/-! ## Runs -/

section Runs

variable {s : Service} {auth : RuntimeAuthenticationSettings} {requests : Tid → Request} {db₀ db db' : Db}
  {tr : List Label} {c c' : Config}

theorem loads_empty (casefold : String → String) : Loads casefold Db.empty := by
  constructor <;> exact fun r hr => absurd hr (Table.not_mem_empty r)

/-- The rows that are new are left to show. -/
theorem Loads.commit {r : Request} {evs : List Event} (h : Loads s.casefold db) (hc : Commit s r evs db db')
    (hprincipal : ∀ env decisionEnv command, r = .createInvocation env decisionEnv command →
      len command.runtimePrincipalId ≤ 255)
    (hledger : ∀ tenantId start stop cost, ⟨.sql (.attributedCost tenantId start stop), .ok cost⟩ ∈ evs →
      ∃ digits, cost.Fits digits 12) : Loads s.casefold db' := by
  cases hc with
  | createTenant made hrow =>
    refine { h with tenants := fun r hr => ?_ }
    rcases Table.mem_insert.mp hr with hold | ⟨rfl, _⟩
    · exact h.tenants r hold
    · exact ⟨_, toTenant_ofTenant made hrow⟩
  | registerAgent made hrow _ =>
    refine { h with agents := fun r hr => ?_ }
    rcases Table.mem_insert.mp hr with hold | ⟨rfl, _⟩
    · exact h.agents r hold
    · exact ⟨_, toAgent_ofAgent made hrow⟩
  | registerModel made hrow _ =>
    refine { h with models := fun r hr => ?_ }
    rcases Table.mem_insert.mp hr with hold | ⟨rfl, _⟩
    · exact h.models r hold
    · exact ⟨_, toModel_ofModel made hrow⟩
  | @setPermission env principalId subject effect _ _ _ now _ _ effective _ _ _ _ _ _ fresh stored _ =>
    -- The row that is left of the subject has no id of another row.
    have hapart : ∀ r ∈ db.permissions, r.subject ≠ subject →
        ((db.permissions.find? subject).elim ⟨env.permissionId, subject, effect, now, now⟩
          (·.set ⟨env.permissionId, subject, effect, now, now⟩)).id ≠ r.id := by
      intro r hr hne
      cases hfound : db.permissions.find? subject with
      | none => exact (fresh hfound r hr).symm
      | some row =>
        obtain ⟨hmem, hsubject⟩ := Table.find?_some hfound
        rintro hid
        obtain rfl := h.permissionIds row hmem r hr hid
        exact hne hsubject
    refine { h with permissions := fun r hr => ?_, permissionIds := fun r hr r' hr' heq => ?_ }
    · rcases mem_upsertPermission.mp hr with rfl | ⟨hold, _⟩
      · exact ⟨effective, stored⟩
      · exact h.permissions r hold
    · rcases mem_upsertPermission.mp hr with rfl | ⟨hold, hne⟩
      · rcases mem_upsertPermission.mp hr' with rfl | ⟨hold', hne'⟩
        · rfl
        · exact absurd heq (hapart r' hold' hne')
      · rcases mem_upsertPermission.mp hr' with rfl | ⟨hold', _⟩
        · exact absurd heq.symm (hapart r hold hne)
        · exact h.permissionIds r hold r' hold' heq
  | decide => exact { h with }
  | @conclude env decisionEnv command _ _ inputText decision invocation row _ _ _ _ _ concluded hrow =>
    refine { h with invocations := fun r hr => ?_ }
    rcases Table.mem_insert.mp hr with hold | ⟨rfl, _⟩
    · exact h.invocations r hold
    · obtain ⟨hexact, hpricing⟩ := concluded.exact (hledger _) hrow
      obtain ⟨_, hmade, _⟩ := concluded.madeOf
      have hlen : len invocation.runtimePrincipalId ≤ 255 := by
        rw [hmade.runtimePrincipalId]
        exact hprincipal env decisionEnv command rfl
      obtain ⟨j, hj, _⟩ := toInvocation_ofInvocation hrow hexact hlen hpricing
      exact ⟨j, hj⟩

/-- What a ledger has answered is exact. -/
theorem attributedCost_fits (h : RunFrom s requests db₀ tr c) {i : Tid} {tenantId : Uuid} {start stop : Utc}
    {cost : Decimal} (hmem : (⟨i, ⟨.sql (.attributedCost tenantId start stop), .ok cost⟩⟩ : Label) ∈ tr) :
    ∃ digits, cost.Fits digits 12 := by
  have hfits : ∀ rows, ∃ digits, (attributedCost rows tenantId start stop).Fits digits 12 := by
    intro rows
    unfold attributedCost
    dsimp only
    split
    · exact ⟨1, by decide⟩
    · exact ⟨_, Decimal.fits_iff.mpr ⟨_, rfl, Nat.lt_pow_self (by decide)⟩⟩
  unfold RunFrom at h
  induction h with
  | nil => cases hmem
  | @snoc _ _ tr l _ hs ih =>
    rcases List.mem_append.mp hmem with hold | hnew
    · exact ih hold
    · obtain rfl := List.mem_singleton.mp hnew
      cases hs with
      | mk _ hexec =>
        obtain ⟨hanswer, _⟩ | hperform := exec_sql hexec
        · cases hanswer
        · have hanswer := congrArg Prod.fst (Option.some.inj hperform)
          cases hanswer
          exact hfits _

/-- No row of a reachable database fails to load. -/
theorem loads_of_run (hauth : Authenticated auth requests) (h : RunFrom s requests Db.empty tr c) :
    Loads s.casefold c.world.db := by
  unfold RunFrom at h
  induction h with
  | nil => exact loads_empty s.casefold
  | @snoc c c' tr l hrun hs ih =>
    rcases step_cases hrun hs with hdb | ⟨_, hcommit⟩
    · rw [hdb]
      exact ih
    · refine ih.commit hcommit (fun env decisionEnv command hr => ?_) fun tenantId start stop cost hmem =>
        attributedCost_fits hrun (mem_own.mp hmem)
      obtain ⟨p, _, hid, _⟩ := hauth.principal hr
      rw [← hid]
      exact p.principalId_length.2

end Runs

end Valor.ControlPlane
