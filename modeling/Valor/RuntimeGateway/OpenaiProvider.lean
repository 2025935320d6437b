/-
  The OpenAI provider never has a success that the domain refuses.

  An SDK response may carry any text as its output and its id, lone surrogates included, and
  anything as its three counts. The adapter keeps a usage exactly when the constructor of the
  domain takes it, and an id exactly when the Invocation does, so neither the attribution of
  the cost nor the Invocation raises afterwards. The timeout of the client is left out.
-/
import Valor.RuntimeGateway.CostAttribution
import Valor.RuntimeGateway.CreateInvocation

namespace Valor.RuntimeGateway

open Python

/-! ## The SDK -/

/-- A value that the SDK may leave in a usage: `other` is of any other type. -/
inductive SdkValue where
  | int (n : Int)
  | bool (b : Bool)
  | noneType
  | other
  deriving DecidableEq, Repr

structure ResponseUsageValue where
  inputTokens : SdkValue
  outputTokens : SdkValue
  totalTokens : SdkValue
  deriving DecidableEq

structure ResponseValue where
  id : Str
  outputText : Str
  usage : Option ResponseUsageValue

/-- What the SDK raises: an `OpenAIError` or something else. -/
inductive SdkError where
  | openaiError
  | other
  deriving DecidableEq

structure OpenaiClient where
  create : (model input : String) → (store : Bool) → Except SdkError ResponseValue

/-! ## The adapter -/

/-- The exceptions of `InvocationUsage(...)`. -/
inductive UsageError where
  | typeError (message : String)
  | valueError (message : String)
  deriving DecidableEq

/-- The checks of one field. -/
def checkedUnits (name : String) : SdkValue → Except UsageError (Option Int)
  | .noneType => .ok none
  | .int n =>
      if n < 0 then .error (.valueError ("Invocation usage " ++ name ++ " must not be negative."))
      else .ok (some n)
  | _ => .error (.typeError ("Invocation usage " ++ name ++ " must be an integer when present."))

/-- `InvocationUsage(...)` of values of any type. -/
def InvocationUsage.ofValues (inputUnits outputUnits totalUnits : SdkValue) :
    Except UsageError InvocationUsage := do
  let inputUnits ← checkedUnits "input_units" inputUnits
  let outputUnits ← checkedUnits "output_units" outputUnits
  let totalUnits ← checkedUnits "total_units" totalUnits
  (new inputUnits outputUnits totalUnits).mapError fun e => .valueError e.message

def normalizedUsage (value : Option ResponseUsageValue) : Option InvocationUsage :=
  match value with
  | none => none
  | some value =>
      match InvocationUsage.ofValues value.inputTokens value.outputTokens value.totalTokens with
      | .ok usage => some usage
      | .error _ => none

def providerResponseIdOf (value : Str) : Option Str :=
  let canonical := value.strip
  if canonical = "" ∨ canonical.len > maxProviderResponseIdLength then none else some canonical

/-- What `invoke` raises: a `ProviderTransportError` or what the SDK raised. -/
inductive InvokeError where
  | providerTransportError (message : String)
  | sdk
  deriving DecidableEq

/-- `except OpenAIError`. -/
def translated {α : Type} : Except SdkError α → Except InvokeError α
  | .ok a => .ok a
  | .error .openaiError =>
      .error (.providerTransportError "OpenAI Responses API request failed.")
  | .error .other => .error .sdk

structure OpenaiResponsesProvider where
  apiKey : Option String
  client : Option OpenaiClient

namespace OpenaiResponsesProvider

variable (self : OpenaiResponsesProvider) (asyncOpenai : String → Except SdkError OpenaiClient)

/-- The client, made of the API key at its first use. -/
def connected : Except InvokeError OpenaiClient :=
  match self.client, self.apiKey with
  | some client, _ => .ok client
  | none, none =>
      .error (.providerTransportError "OpenAI runtime credentials are not configured.")
  | none, some apiKey =>
      if apiKey = "" then
        .error (.providerTransportError "OpenAI runtime credentials are not configured.")
      else translated (asyncOpenai apiKey)

/-- What `invoke` makes of a response. -/
def resultOf (response : ResponseValue) : Except InvokeError ProviderInvocationResult :=
  if response.outputText.strip = "" then
    .error (.providerTransportError "OpenAI Responses API returned no text output.")
  else
    .ok ⟨response.outputText, normalizedUsage response.usage, providerResponseIdOf response.id⟩

/-- `invoke`, and the provider with the client it has kept. -/
def invoke (modelReference inputText : String) :
    Except InvokeError ProviderInvocationResult × OpenaiResponsesProvider :=
  match self.connected asyncOpenai with
  | .error e => (.error e, self)
  | .ok client =>
      (translated (client.create modelReference inputText false) >>= resultOf,
        { self with client := some client })

end OpenaiResponsesProvider

/-! ## What is kept -/

/-- The value that the SDK gives for a count. -/
def SdkValue.ofUnits : Option Int → SdkValue
  | none => .noneType
  | some n => .int n

def ResponseUsageValue.of (usage : InvocationUsage) : ResponseUsageValue :=
  ⟨.ofUnits usage.inputUnits, .ofUnits usage.outputUnits, .ofUnits usage.totalUnits⟩

theorem checkedUnits_eq_ok {name : String} {value : SdkValue} {units : Option Int} :
    checkedUnits name value = .ok units ↔ value = .ofUnits units ∧ units.all (0 ≤ ·) := by
  constructor
  · intro h
    cases value with
    | int n =>
      simp only [checkedUnits] at h
      split at h
      · cases h
      · next hn =>
        cases h
        exact ⟨rfl, by simpa using hn⟩
    | noneType =>
      cases h
      exact ⟨rfl, rfl⟩
    | bool b => cases h
    | other => cases h
  · rintro ⟨rfl, hall⟩
    cases units with
    | none => rfl
    | some n =>
      have hn : ¬n < 0 := by simpa using hall
      exact if_neg hn

theorem not_any_neg {units : Option Int} (h : units.all (0 ≤ ·)) : ¬units.any (· < 0) := by
  cases units with
  | none => simp
  | some n => simpa using h

theorem not_any_lt {units : Option Int} {t : Int} (h : units.all (· ≤ t)) : ¬units.any (t < ·) := by
  cases units with
  | none => simp
  | some n => simpa using h

theorem InvocationUsage.new_eq_ok {inputUnits outputUnits totalUnits : Option Int}
    {usage : InvocationUsage} :
    new inputUnits outputUnits totalUnits = .ok usage ↔
      usage.inputUnits = inputUnits ∧ usage.outputUnits = outputUnits ∧
        usage.totalUnits = totalUnits := by
  constructor
  · intro h
    unfold new at h
    dsimp only at h
    split_ifs at h
    cases h
    exact ⟨rfl, rfl, rfl⟩
  · rintro ⟨rfl, rfl, rfl⟩
    obtain ⟨i, o, t, hfits⟩ := usage
    simp only [usageFits, Bool.and_eq_true] at hfits
    obtain ⟨⟨⟨hi, ho⟩, ht⟩, hle⟩ := hfits
    have hparts : ¬(t.any fun t => i.any (t < ·)) ∧ ¬(t.any fun t => o.any (t < ·)) := by
      cases t with
      | none => simp
      | some t =>
        rw [Option.all_some, Bool.and_eq_true] at hle
        exact ⟨not_any_lt hle.1, not_any_lt hle.2⟩
    unfold new
    dsimp only
    rw [dif_neg (not_any_neg hi), dif_neg (not_any_neg ho), dif_neg (not_any_neg ht),
      dif_neg hparts.1, dif_neg hparts.2]

/-- A usage is kept exactly when it is what the SDK gave. -/
theorem normalizedUsage_eq_some {value : ResponseUsageValue} {usage : InvocationUsage} :
    normalizedUsage (some value) = some usage ↔ value = .of usage := by
  have hof : InvocationUsage.ofValues value.inputTokens value.outputTokens value.totalTokens =
      .ok usage ↔ value = .of usage := by
    constructor
    · intro h
      unfold InvocationUsage.ofValues at h
      obtain ⟨i, hi, h⟩ := Except.bind_ok_cases h
      obtain ⟨o, ho, h⟩ := Except.bind_ok_cases h
      obtain ⟨t, ht, h⟩ := Except.bind_ok_cases h
      obtain ⟨rfl, rfl, rfl⟩ := InvocationUsage.new_eq_ok.mp (Except.mapError_eq_ok.mp h)
      obtain ⟨a, b, c⟩ := value
      obtain ⟨rfl, _⟩ := checkedUnits_eq_ok.mp hi
      obtain ⟨rfl, _⟩ := checkedUnits_eq_ok.mp ho
      obtain ⟨rfl, _⟩ := checkedUnits_eq_ok.mp ht
      rfl
    · rintro rfl
      have hfits := usage.fits
      simp only [usageFits, Bool.and_eq_true] at hfits
      obtain ⟨⟨⟨hi, ho⟩, ht⟩, _⟩ := hfits
      unfold InvocationUsage.ofValues
      refine Except.bind_eq_ok (checkedUnits_eq_ok.mpr ⟨rfl, hi⟩) ?_
      refine Except.bind_eq_ok (checkedUnits_eq_ok.mpr ⟨rfl, ho⟩) ?_
      refine Except.bind_eq_ok (checkedUnits_eq_ok.mpr ⟨rfl, ht⟩) ?_
      exact Except.mapError_eq_ok.mpr (InvocationUsage.new_eq_ok.mpr ⟨rfl, rfl, rfl⟩)
  rw [← hof, normalizedUsage]
  split
  · next hok => simp [hok]
  · next herror => simp [herror]

/-- An identity is kept exactly when the Invocation takes it, and only stripped. -/
theorem providerResponseIdOf_eq {value id : Str} :
    providerResponseIdOf value = some id ↔
      id = value.strip ∧ id ≠ "" ∧ id.len ≤ maxProviderResponseIdLength := by
  unfold providerResponseIdOf
  dsimp only
  split
  · next hbad =>
    refine ⟨nofun, ?_⟩
    rintro ⟨rfl, hne, hlen⟩
    rcases hbad with hempty | hlong
    · exact absurd hempty hne
    · omega
  · next hgood =>
    obtain ⟨hne, hlen⟩ := not_or.mp hgood
    constructor
    · rintro ⟨⟩
      exact ⟨rfl, hne, by omega⟩
    · rintro ⟨rfl, _, _⟩
      rfl

/-! ## No success is refused -/

/-- Every integer of the response has at most 31 bits. -/
def ResponseValue.Fits (response : ResponseValue) : Prop :=
  ∀ value ∈ response.usage, ∀ n : Int,
    .int n ∈ [value.inputTokens, value.outputTokens, value.totalTokens] → |n| ≤ 2 ^ 31 - 1

/-- The usage and the response id that are stored are those of the response, or absent. -/
structure Stored (response : ResponseValue) (i : Invocation) : Prop where
  outputText : i.outputText = some response.outputText
  usage : ∀ usage ∈ i.usage, response.usage = some (.of usage)
  responseId : ∀ id ∈ i.providerResponseId, id = response.id.strip

/-- A request that every factory takes: its input is accepted, its Principal has an identity
    and it does not complete before it starts. -/
structure Invocation.Common.Ready (c : Invocation.Common) : Prop where
  input : ∃ text, validatedInput c.inputText = .ok text
  principal : strip c.runtimePrincipalId ≠ ""
  times : c.startedAt.instant ≤ c.completedAt.instant

theorem Invocation.succeeded_ok {c : Common} (hc : c.Ready) {outputText : Str}
    {usage : Option InvocationUsage} {providerResponseId : Option Str}
    {cost : Option InvocationCost} (houtput : outputText.strip ≠ "")
    (hid : ∀ id ∈ providerResponseId,
      id ≠ "" ∧ id.strip = id ∧ id.len ≤ maxProviderResponseIdLength)
    (hcost : cost.isSome → usage.any fun u => u.inputUnits.isSome && u.outputUnits.isSome) :
    ∃ i, succeeded c outputText usage providerResponseId cost = .ok i ∧
      i.outputText = some outputText ∧ i.usage = usage ∧
        i.providerResponseId = providerResponseId := by
  obtain ⟨⟨text, hinput⟩, hprincipal, htimes⟩ := hc
  set duration := (c.completedAt.instant - c.startedAt.instant) / 1000 with hduration
  have hnonneg : ¬duration < 0 := by omega
  have helapsed : elapsedMs c.startedAt c.completedAt = .ok duration :=
    if_neg (not_lt.mpr htimes)
  let fields : InvocationFields := { c.fields .succeeded duration with
    outputText := some outputText
    usage
    providerResponseId
    estimatedCost := cost }
  have hidentity : fields.checkIdentity = .ok () := by
    unfold InvocationFields.checkIdentity
    refine Except.bind_eq_ok (a := ()) (if_neg hprincipal) ?_
    refine Except.bind_eq_ok (a := ()) (if_neg (not_lt.mpr htimes)) ?_
    exact if_neg (by simpa [fields, Common.fields] using hnonneg)
  have htext : fields.checkOutput = .ok () := by
    simp [InvocationFields.checkOutput, fields, Common.fields, houtput]
  have hestimated : fields.checkEstimatedCost = .ok () := by
    unfold InvocationFields.checkEstimatedCost
    split
    · next hsome =>
      refine Except.bind_eq_ok (a := ()) (if_neg (not_not.mpr rfl)) (if_neg (not_not.mpr ?_))
      exact hcost hsome
    · rfl
  have hpost : fields.postInit = .ok { fields with inputText := text } := by
    unfold InvocationFields.postInit
    refine Except.bind_eq_ok (a := text) hinput ?_
    refine Except.bind_eq_ok (a := ()) hidentity ?_
    refine Except.bind_eq_ok (InvocationFields.checkedResponseId_of hid) ?_
    refine Except.bind_eq_ok (a := ()) htext ?_
    refine Except.bind_eq_ok (a := ()) rfl (Except.bind_eq_ok (a := ()) rfl ?_)
    exact Except.bind_eq_ok (a := ()) hestimated rfl
  exact ⟨_, Except.bind_eq_ok helapsed (new_of hpost), rfl, rfl, rfl⟩

theorem normalizedUsage_fits {response : ResponseValue} (hfits : response.Fits) :
    ∀ u ∈ normalizedUsage response.usage,
      (∀ n ∈ u.inputUnits, n < 2 ^ 31) ∧ ∀ n ∈ u.outputUnits, n < 2 ^ 31 := by
  intro u hu
  cases hvalue : response.usage with
  | none =>
    rw [hvalue] at hu
    cases hu
  | some value =>
    rw [hvalue] at hu
    have hof := normalizedUsage_eq_some.mp hu
    subst hof
    have hbound := hfits _ hvalue
    constructor
    · intro n hn
      have hle := hbound n (by simp [ResponseUsageValue.of, Option.mem_def.mp hn, SdkValue.ofUnits])
      have hself := le_abs_self n
      omega
    · intro n hn
      have hle := hbound n (by simp [ResponseUsageValue.of, Option.mem_def.mp hn, SdkValue.ofUnits])
      have hself := le_abs_self n
      omega

/-- Once the SDK has answered, `invoke` raises a `ProviderTransportError` or gives a result of
    which the cost is attributed and the Invocation built, whatever pricing is configured. -/
theorem success_accepted (self : OpenaiResponsesProvider)
    (asyncOpenai : String → Except SdkError OpenaiClient) (modelReference inputText : String)
    {client : OpenaiClient} {response : ResponseValue}
    (hclient : self.connected asyncOpenai = .ok client)
    (hresponse : client.create modelReference inputText false = .ok response)
    (hfits : response.Fits) :
    (∃ message, (self.invoke asyncOpenai modelReference inputText).1 =
      .error (.providerTransportError message)) ∨
    ∃ result, (self.invoke asyncOpenai modelReference inputText).1 = .ok result ∧
      ∀ pricing : Option PricingSnapshot, (∀ p ∈ pricing, ∃ entry, pricingOf entry = .ok p) →
      ∀ c : Invocation.Common, c.Ready →
      ∃ cost i, attributeCost result.usage pricing = .ok cost ∧
        Invocation.succeeded c result.outputText result.usage result.providerResponseId cost =
          .ok i ∧ Stored response i := by
  have hinvoke : (self.invoke asyncOpenai modelReference inputText).1 =
      OpenaiResponsesProvider.resultOf response := by
    rw [OpenaiResponsesProvider.invoke, hclient]
    dsimp only
    rw [hresponse]
    rfl
  rw [hinvoke]
  by_cases hempty : response.outputText.strip = ""
  · exact .inl ⟨_, if_pos hempty⟩
  refine .inr ⟨_, if_neg hempty, ?_⟩
  intro pricing hpricing c hc
  obtain ⟨cost, hcost, hboth⟩ := attributeCost_total (normalizedUsage_fits hfits) hpricing
  have hid : ∀ id ∈ providerResponseIdOf response.id,
      id ≠ "" ∧ id.strip = id ∧ id.len ≤ maxProviderResponseIdLength := by
    intro id hmem
    obtain ⟨rfl, hne, hlen⟩ := providerResponseIdOf_eq.mp hmem
    exact ⟨hne, Str.strip_strip _, hlen⟩
  obtain ⟨i, hi, houtput, husage, hresponseId⟩ := Invocation.succeeded_ok hc hempty hid hboth
  refine ⟨cost, i, hcost, hi, houtput, ?_, ?_⟩
  · intro usage hmem
    rw [husage] at hmem
    cases hvalue : response.usage with
    | none =>
      rw [hvalue] at hmem
      cases hmem
    | some value =>
      rw [hvalue] at hmem
      rw [normalizedUsage_eq_some.mp hmem]
  · intro id hmem
    rw [hresponseId] at hmem
    exact (providerResponseIdOf_eq.mp hmem).1

/-- A response with counts that do not fit together and white space around its identity. -/
def inconsistentResponse : ResponseValue := ⟨" resp_1 ", "text", some ⟨.int 10, .int 2, .int 3⟩⟩

def inconsistentClient : OpenaiClient := ⟨fun _ _ _ => .ok inconsistentResponse⟩

def plainRequest : Invocation.Common where
  invocationId := 3
  tenantId := 1
  agentId := 2
  modelId := 4
  inputText := "hello"
  startedAt := 0
  completedAt := 1500000
  policyDecisionId := 5
  runtimePrincipalId := "client"

theorem success_accepted_inconsistent :
    ∃ result, ((⟨none, some inconsistentClient⟩ : OpenaiResponsesProvider).invoke
        (fun _ => .error .other) "model" "hello").1 = .ok result ∧
      ∃ cost i, attributeCost result.usage (some PricedUsage.tiedUsage.pricing) = .ok cost ∧
        Invocation.succeeded plainRequest result.outputText result.usage result.providerResponseId
          cost = .ok i ∧ Stored inconsistentResponse i := by
  have hfits : inconsistentResponse.Fits := by
    rintro value ⟨⟩ n hn
    simp only [List.mem_cons, SdkValue.int.injEq, List.not_mem_nil, or_false] at hn
    rcases hn with rfl | rfl | rfl <;> decide
  rcases success_accepted ⟨none, some inconsistentClient⟩ (fun _ => .error .other) "model" "hello"
      rfl rfl hfits with ⟨message, hmessage⟩ | ⟨result, hresult, hall⟩
  · have hok : OpenaiResponsesProvider.resultOf inconsistentResponse = .ok ⟨"text", _, _⟩ :=
      if_neg (by decide +kernel)
    cases hmessage.symm.trans hok
  · refine ⟨result, hresult, hall _ ?_ plainRequest ⟨⟨"hello", ?_⟩, ?_, ?_⟩⟩
    · rintro p ⟨⟩
      exact ⟨_, PricedUsage.tiedUsage.pricing_eq⟩
    · decide +kernel
    · decide +kernel
    · decide

end Valor.RuntimeGateway
