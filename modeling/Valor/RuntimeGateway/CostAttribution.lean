/-
  Cost attribution rounds once.

  A component is `units * rate / basis`, divided at 50 digits and then rounded half-even to
  12 decimals. In units of the last decimal the exact quotient is `n / basis` for integers
  below 10 ^ 28, so it is a tie or at least `1 / (2 * basis)` away from one. A tie has few
  enough digits for the division to be exact, and away from ties the error of the division
  is far too small to matter: both roundings together are one rounding of the exact
  quotient. The sum of two components has at most 28 digits, which the default context
  holds.
-/
import Valor.Python.DecimalValue
import Valor.RuntimeGateway.Usage
import Valor.Settings

namespace Valor.RuntimeGateway

open Python Decimal Rounding Settings

/-- The exact quotient, rounded half-even to 12 decimals. -/
def roundedCost (units : Int) (rate : Decimal) (basisUnits : Int) : ℚ :=
  roundHalfEven ((units : ℚ) * rate.toRat / basisUnits * 10 ^ 12) / 10 ^ 12

/-- The pricing that `ConfiguredInvocationPricing` makes of an entry. -/
def pricingOf (entry : PricingEntrySettings) : Except ValueError PricingSnapshot :=
  PricingSnapshot.new entry.provider entry.providerModelReference entry.pricingVersion
    entry.priceBasisUnits entry.inputPricePerBasis entry.outputPricePerBasis entry.currency

theorem pricingOf_ok {entry : PricingEntrySettings} {pricing : PricingSnapshot}
    (h : pricingOf entry = .ok pricing) :
    pricing.basisUnits = entry.priceBasisUnits ∧ pricing.inputRate = entry.inputPricePerBasis ∧
      pricing.outputRate = entry.outputPricePerBasis := by
  unfold pricingOf PricingSnapshot.new at h
  split_ifs at h
  cases h
  exact ⟨rfl, rfl, rfl⟩

/-! ## One component -/

theorem coefficient_nonneg {a : Decimal} (h : 0 ≤ a.toRat) : 0 ≤ a.coefficient := by
  have hpow : (0 : ℚ) < 10 ^ a.exponent := by positivity
  by_contra hneg
  have hlt : (a.coefficient : ℚ) < 0 := by exact_mod_cast not_le.mp hneg
  have hval : a.toRat < 0 := mul_neg_of_neg_of_pos hlt hpow
  linarith

/-- The units of a rate with at most 18 digits, 12 of them decimals. -/
theorem rate_units {rate : Decimal} (h : 0 ≤ rate ∧ rate.Fits 18 12) :
    ∃ r : Int, rate.toRat = r * 10 ^ (-12 : ℤ) ∧ 0 ≤ r ∧ r < 10 ^ 18 := by
  obtain ⟨hnonneg, hfits⟩ := h
  obtain ⟨r, hr, hlt⟩ := fits_iff.mp hfits
  have hpos : (0 : ℚ) < 10 ^ (-12 : ℤ) := by positivity
  have hr0 : 0 ≤ r := by
    rw [le_iff_toRat, toRat_zero, hr] at hnonneg
    exact_mod_cast nonneg_of_mul_nonneg_left hnonneg hpos
  exact ⟨r, hr, hr0, by omega⟩

section Component

variable {units basisUnits r : Int} {rate : Decimal} (hunits : 0 ≤ units ∧ units < 2 ^ 31)
  (hbasis : 0 < basisUnits ∧ basisUnits < 2 ^ 31) (hrate : rate.toRat = r * 10 ^ (-12 : ℤ))
  (hr : 0 ≤ r ∧ r < 10 ^ 18)

include hunits hr

theorem product_bound : 0 ≤ units * r ∧ units * r < 2 ^ 31 * 10 ^ 18 := by
  obtain ⟨hu, hu'⟩ := hunits
  obtain ⟨hr, hr'⟩ := hr
  exact ⟨mul_nonneg hu hr, mul_lt_mul'' hu' hr' hu hr⟩

include hrate

/-- The product needs no rounding. -/
theorem toRat_product : ((ofInt units).mul 50 rate).toRat = (units * r : ℤ) * 10 ^ (-12 : ℤ) := by
  obtain ⟨hnonneg, hlt⟩ := product_bound hunits hr
  have hexact : (ofInt units).toRat * rate.toRat = (units * r : ℤ) * 10 ^ (-12 : ℤ) := by
    rw [toRat_ofInt, hrate]
    push_cast
    ring
  rw [toRat_mul (by decide) hexact]
  exact roundDigits_of_lt _ (by decide) (by omega)

/-- Whatever the basis, there is a component. -/
theorem componentCost_ok {basis : Int} (hpos : 0 < basis) :
    ∃ c : Int, componentCost units rate basis = .ok ⟨c, costExponent⟩ ∧
      0 ≤ c ∧ c < 2 ^ 32 * 10 ^ 18 := by
  obtain ⟨hnonneg, hlt⟩ := product_bound hunits hr
  have hproduct := toRat_product hunits hrate hr
  have hone : (1 : ℚ) ≤ basis := by exact_mod_cast hpos
  have hN0 : (0 : ℚ) ≤ (units * r : ℤ) := by exact_mod_cast hnonneg
  have hscale : (0 : ℚ) < 10 ^ (-12 : ℤ) := by positivity
  have hcoefficient : 0 ≤ ((ofInt units).mul 50 rate).coefficient := by
    refine coefficient_nonneg ?_
    rw [hproduct]
    positivity
  have hprec : 1 < 50 := by decide
  have herror := abs_toRat_div_sub_le hprec hcoefficient (b := ofInt basis) hpos
  have hquotient : ((ofInt units).mul 50 rate).toRat / (ofInt basis).toRat =
      ((units * r : ℤ) : ℚ) / basis * 10 ^ (-12 : ℤ) := by
    rw [hproduct, toRat_ofInt, mul_div_right_comm]
  rw [hquotient] at herror
  have hX : 0 ≤ ((units * r : ℤ) : ℚ) / basis := by positivity
  have hX' : ((units * r : ℤ) : ℚ) / basis ≤ (units * r : ℤ) := div_le_self hN0 hone
  set q := ((units * r : ℤ) : ℚ) / basis * 10 ^ (-12 : ℤ) with hq
  have hq0 : 0 ≤ q := by positivity
  have hsmall : 3 * q / 10 ^ (50 - 1) ≤ q := by
    rw [div_le_iff₀ (by positivity), mul_comm q]
    exact mul_le_mul_of_nonneg_right (by norm_num) hq0
  obtain ⟨hlow, hhigh⟩ := abs_le.mp (herror.trans hsmall)
  -- The error of the division is at most the quotient itself.
  have hc0 : roundHalfEven ((0 : ℤ) : ℚ) ≤
      roundHalfEven ((((ofInt units).mul 50 rate).div 50 (ofInt basis)).toRat / 10 ^ (-12 : ℤ)) := by
    refine roundHalfEven_mono ?_
    rw [Int.cast_zero]
    exact div_nonneg (by linarith) hscale.le
  have hc1 : roundHalfEven ((((ofInt units).mul 50 rate).div 50 (ofInt basis)).toRat /
      10 ^ (-12 : ℤ)) ≤ roundHalfEven ((2 * (units * r) : ℤ) : ℚ) := by
    refine roundHalfEven_mono ?_
    rw [div_le_iff₀ hscale, Int.cast_mul]
    calc _ ≤ 2 * q := by linarith
      _ = 2 * (((units * r : ℤ) : ℚ) / basis) * 10 ^ (-12 : ℤ) := by rw [hq]; ring
      _ ≤ 2 * ((units * r : ℤ) : ℚ) * 10 ^ (-12 : ℤ) := by gcongr
  rw [roundHalfEven_intCast] at hc0 hc1
  refine ⟨_, ?_, hc0, by omega⟩
  unfold componentCost
  rw [quantize_eq, costExponent, if_pos ((digitCount_le_iff (by decide)).mpr (by omega))]

include hbasis

/-- Rounding the quotient of 50 digits rounds the exact quotient. -/
theorem round_quotient :
    roundHalfEven ((((ofInt units).mul 50 rate).div 50 (ofInt basisUnits)).toRat / 10 ^ (-12 : ℤ)) =
      roundHalfEven (((units * r : ℤ) : ℚ) / basisUnits) := by
  obtain ⟨hnonneg, hlt⟩ := product_bound hunits hr
  obtain ⟨hb, hb'⟩ := hbasis
  have hproduct := toRat_product hunits hrate hr
  generalize hN : units * r = N at *
  have hbq : (0 : ℚ) < basisUnits := by exact_mod_cast hb
  have hone : (1 : ℚ) ≤ basisUnits := by exact_mod_cast hb
  have hN0 : (0 : ℚ) ≤ N := by exact_mod_cast hnonneg
  have hN1 : (N : ℚ) < 2 ^ 31 * 10 ^ 18 := by exact_mod_cast hlt
  have hcoefficient : 0 ≤ ((ofInt units).mul 50 rate).coefficient := by
    refine coefficient_nonneg ?_
    rw [hproduct]
    positivity
  have hquotient : ((ofInt units).mul 50 rate).toRat / (ofInt basisUnits).toRat =
      (N : ℚ) / basisUnits * 10 ^ (-12 : ℤ) := by
    rw [hproduct, toRat_ofInt, mul_div_right_comm]
  have hX : 0 ≤ (N : ℚ) / basisUnits := by positivity
  have hX' : (N : ℚ) / basisUnits ≤ N := div_le_self hN0 hone
  have hscale : (0 : ℚ) < 10 ^ (-12 : ℤ) := by positivity
  rcases tie_or_far (K := ℚ) N hb with ⟨k, hk⟩ | hfar
  · -- A tie ends one decimal later.
    have hk0 : 0 ≤ k := by
      have hlow : ((-1 : ℤ) : ℚ) < k := by
        push_cast
        linarith
      have hlow' := Int.cast_lt.mp hlow
      omega
    have hk1 : k < 2 ^ 31 * 10 ^ 18 := by
      have hhigh : (k : ℚ) < ((2 ^ 31 * 10 ^ 18 : ℤ) : ℚ) := by
        push_cast
        linarith
      exact Int.cast_lt.mp hhigh
    have htie : ((ofInt units).mul 50 rate).toRat / (ofInt basisUnits).toRat =
        ((10 * k + 5 : ℤ) : ℚ) * 10 ^ (-13 : ℤ) := by
      rw [hquotient, hk, show (-12 : ℤ) = -13 + 1 by norm_num, zpow_add_one₀ (by norm_num)]
      push_cast
      ring
    rw [toRat_div_exact (by decide) hcoefficient hb htie (by omega), hquotient,
      mul_div_cancel_right₀ _ hscale.ne']
  · refine roundHalfEven_eq_of_close hfar ?_
    have hprec : 1 < 50 := by decide
    have herror := abs_toRat_div_sub_le hprec hcoefficient (b := ofInt basisUnits) hb
    rw [hquotient] at herror
    have hrescale : (((ofInt units).mul 50 rate).div 50 (ofInt basisUnits)).toRat / 10 ^ (-12 : ℤ) -
        (N : ℚ) / basisUnits =
        ((((ofInt units).mul 50 rate).div 50 (ofInt basisUnits)).toRat -
          (N : ℚ) / basisUnits * 10 ^ (-12 : ℤ)) / 10 ^ (-12 : ℤ) := by
      rw [sub_div, mul_div_cancel_right₀ _ hscale.ne']
    have hsmall : (3 * 2 ^ 31 * 10 ^ 18 : ℚ) / 10 ^ 49 < 1 / (2 * 2 ^ 31) := by norm_num
    have hbound : (1 : ℚ) / (2 * 2 ^ 31) ≤ 1 / (2 * basisUnits) := by
      have hle : (basisUnits : ℚ) ≤ 2 ^ 31 := by exact_mod_cast hb'.le
      gcongr
    have hfew : 3 * ((N : ℚ) / basisUnits) / 10 ^ 49 < 1 / (2 * basisUnits) := by
      refine lt_of_le_of_lt ?_ (hsmall.trans_le hbound)
      refine div_le_div_of_nonneg_right ?_ (by positivity)
      linarith
    rw [hrescale, abs_div, abs_of_pos hscale, div_lt_iff₀ hscale]
    calc _ ≤ 3 * ((N : ℚ) / basisUnits * 10 ^ (-12 : ℤ)) / 10 ^ (50 - 1) := herror
      _ = 3 * ((N : ℚ) / basisUnits) / 10 ^ 49 * 10 ^ (-12 : ℤ) := by ring
      _ < 1 / (2 * basisUnits) * 10 ^ (-12 : ℤ) := mul_lt_mul_of_pos_right hfew hscale

/-- A component is the exact quotient, rounded once. -/
theorem componentCost_eq :
    ∃ c : Int, componentCost units rate basisUnits = .ok ⟨c, costExponent⟩ ∧
      (c : ℚ) = roundHalfEven ((units : ℚ) * rate.toRat / basisUnits * 10 ^ 12) ∧
      0 ≤ c ∧ c < 2 ^ 31 * 10 ^ 18 := by
  obtain ⟨hnonneg, hlt⟩ := product_bound hunits hr
  have hround := round_quotient hunits hbasis hrate hr
  have hexact : (units : ℚ) * rate.toRat / basisUnits * 10 ^ 12 =
      ((units * r : ℤ) : ℚ) / basisUnits := by
    rw [hrate]
    push_cast
    rw [show (10 : ℚ) ^ (-12 : ℤ) = 1 / 10 ^ 12 by norm_num]
    field_simp
  obtain ⟨hb, hb'⟩ := hbasis
  have hone : (1 : ℚ) ≤ basisUnits := by exact_mod_cast hb
  have hbq : (0 : ℚ) < basisUnits := by exact_mod_cast hb
  have hN0 : (0 : ℚ) ≤ (units * r : ℤ) := by exact_mod_cast hnonneg
  have hc0 : roundHalfEven ((0 : ℤ) : ℚ) ≤ roundHalfEven (((units * r : ℤ) : ℚ) / basisUnits) := by
    refine roundHalfEven_mono ?_
    push_cast at hN0 ⊢
    positivity
  have hc1 : roundHalfEven (((units * r : ℤ) : ℚ) / basisUnits) ≤
      roundHalfEven (((units * r : ℤ)) : ℚ) :=
    roundHalfEven_mono (div_le_self hN0 hone)
  rw [roundHalfEven_intCast] at hc0 hc1
  refine ⟨roundHalfEven (((units * r : ℤ) : ℚ) / basisUnits), ?_, by rw [hexact], hc0, by omega⟩
  have hdigits : digitCount (roundHalfEven (((units * r : ℤ) : ℚ) / basisUnits)).natAbs ≤ 50 :=
    (digitCount_le_iff (by decide)).mpr (by omega)
  unfold componentCost
  rw [quantize_eq, costExponent, hround, if_pos hdigits]

end Component

/-! ## Both components and their sum -/

/-- The counts of a provider and the pricing of its model, within 32 bits. -/
structure PricedUsage where
  usage : InvocationUsage
  inputUnits : Int
  outputUnits : Int
  entry : PricingEntrySettings
  pricing : PricingSnapshot
  usage_eq : usage.inputUnits = some inputUnits ∧ usage.outputUnits = some outputUnits
  units_nonneg : 0 ≤ inputUnits ∧ 0 ≤ outputUnits
  units_fit : inputUnits < 2 ^ 31 ∧ outputUnits < 2 ^ 31
  basis_fits : entry.priceBasisUnits < 2 ^ 31
  pricing_eq : pricingOf entry = .ok pricing

namespace PricedUsage

/-- The cost that exact arithmetic gives, in columns of `NUMERIC(30, 12)`. -/
structure Exact (x : PricedUsage) (cost : InvocationCost) : Prop where
  input : cost.inputCost.toRat =
    roundedCost x.inputUnits x.entry.inputPricePerBasis x.entry.priceBasisUnits
  output : cost.outputCost.toRat =
    roundedCost x.outputUnits x.entry.outputPricePerBasis x.entry.priceBasisUnits
  total : cost.totalCost.toRat = cost.inputCost.toRat + cost.outputCost.toRat
  fits : cost.inputCost.Fits 30 12 ∧ cost.outputCost.Fits 30 12 ∧ cost.totalCost.Fits 30 12

theorem toRat_costUnits (c : Int) : (⟨c, costExponent⟩ : Decimal).toRat = c / 10 ^ 12 := by
  have hscale : (10 : ℚ) ^ costExponent = 1 / 10 ^ 12 := by norm_num [costExponent]
  rw [toRat, hscale]
  ring

theorem fits_costUnits {c : Int} (h : c.natAbs < 10 ^ 30) :
    (⟨c, costExponent⟩ : Decimal).Fits 30 12 :=
  fits_iff.mpr ⟨c, rfl, h⟩

/-- The sum of two components has room in the default context. -/
theorem add_costUnits {c d : Int} (hc : 0 ≤ c ∧ c < 2 ^ 32 * 10 ^ 18)
    (hd : 0 ≤ d ∧ d < 2 ^ 32 * 10 ^ 18) :
    (⟨c, costExponent⟩ : Decimal).add defaultPrec ⟨d, costExponent⟩ = ⟨c + d, costExponent⟩ := by
  obtain ⟨hc, hc'⟩ := hc
  obtain ⟨hd, hd'⟩ := hd
  have hroom : (c + d).natAbs < 10 ^ defaultPrec := by
    rw [defaultPrec]
    omega
  have hadd := @add_of_lt defaultPrec ⟨c, costExponent⟩ ⟨d, costExponent⟩ (by decide)
    (by simpa only [min_self, scaled_self] using hroom)
  simpa only [min_self, scaled_self] using hadd

theorem nonneg_costUnits {c : Int} (hc : 0 ≤ c) : (0 : Decimal) ≤ ⟨c, costExponent⟩ := by
  have hc' : (0 : ℚ) ≤ c := by exact_mod_cast hc
  rw [le_iff_toRat, toRat_zero, toRat_costUnits]
  positivity

theorem attributeCost_eq (x : PricedUsage) :
    ∃ cost, attributeCost (some x.usage) (some x.pricing) = .ok (some cost) ∧ x.Exact cost := by
  obtain ⟨hbasis, hinput, houtput⟩ := pricingOf_ok x.pricing_eq
  obtain ⟨r, hr, hr0⟩ := rate_units x.entry.inputPrice_accepted
  obtain ⟨s, hs, hs0⟩ := rate_units x.entry.outputPrice_accepted
  have hb : 0 < x.entry.priceBasisUnits ∧ x.entry.priceBasisUnits < 2 ^ 31 :=
    ⟨x.entry.priceBasisUnits_pos, x.basis_fits⟩
  obtain ⟨c, hcost, hc, hc0⟩ :=
    componentCost_eq ⟨x.units_nonneg.1, x.units_fit.1⟩ hb hr hr0
  obtain ⟨d, hcost', hd, hd0⟩ :=
    componentCost_eq ⟨x.units_nonneg.2, x.units_fit.2⟩ hb hs hs0
  have hadd := add_costUnits (c := c) (d := d) (by omega) (by omega)
  have hnonneg : (0 : Decimal) ≤ ⟨c, costExponent⟩ ∧ (0 : Decimal) ≤ ⟨d, costExponent⟩ ∧
      (0 : Decimal) ≤ (⟨c, costExponent⟩ : Decimal).add defaultPrec ⟨d, costExponent⟩ := by
    rw [hadd]
    exact ⟨nonneg_costUnits hc0.1, nonneg_costUnits hd0.1, nonneg_costUnits (by omega)⟩
  have htotal : ((⟨c, costExponent⟩ : Decimal).add defaultPrec ⟨d, costExponent⟩).toRat =
      (⟨c, costExponent⟩ : Decimal).toRat + (⟨d, costExponent⟩ : Decimal).toRat := by
    rw [hadd, toRat_costUnits, toRat_costUnits, toRat_costUnits, ← add_div]
    push_cast
    rfl
  have hfits : ((⟨c, costExponent⟩ : Decimal).add defaultPrec ⟨d, costExponent⟩).Fits 30 12 := by
    rw [hadd]
    exact fits_costUnits (by omega)
  refine ⟨_, attributeCost_some x.usage_eq.1 x.usage_eq.2 (by rw [hbasis, hinput, hcost])
    (by rw [hbasis, houtput, hcost'])
    (InvocationCost.new_eq_ok x.pricing.usd hnonneg (eq_iff_toRat.mpr rfl)), ?_⟩
  exact {
    input := by rw [toRat_costUnits, hc, roundedCost]
    output := by rw [toRat_costUnits, hd, roundedCost]
    total := htotal
    fits := ⟨fits_costUnits (by omega), fits_costUnits (by omega), hfits⟩ }

theorem roundedCost_mono {units units' basisUnits : Int} {rate rate' : Decimal}
    (hbasis : 0 < basisUnits) (hnonneg : 0 ≤ units' ∧ 0 ≤ rate.toRat) (hunits : units ≤ units')
    (hrate : rate ≤ rate') :
    roundedCost units rate basisUnits ≤ roundedCost units' rate' basisUnits := by
  have hb : (0 : ℚ) < basisUnits := by exact_mod_cast hbasis
  have hu : (units : ℚ) ≤ units' := by exact_mod_cast hunits
  have hu0 : (0 : ℚ) ≤ units' := by exact_mod_cast hnonneg.1
  have hproduct : (units : ℚ) * rate.toRat ≤ units' * rate'.toRat :=
    mul_le_mul hu (le_iff_toRat.mp hrate) hnonneg.2 hu0
  have hround : roundHalfEven ((units : ℚ) * rate.toRat / basisUnits * 10 ^ 12) ≤
      roundHalfEven ((units' : ℚ) * rate'.toRat / basisUnits * 10 ^ 12) := by
    refine roundHalfEven_mono ?_
    gcongr
  unfold roundedCost
  gcongr

/-- Attribution never raises and rounds each component once; more units or a higher rate
    never cost less. -/
theorem attributeCost_exact (x : PricedUsage) :
    ∃ cost, attributeCost (some x.usage) (some x.pricing) = .ok (some cost) ∧ x.Exact cost ∧
      ∀ (y : PricedUsage) (cost' : InvocationCost),
        attributeCost (some y.usage) (some y.pricing) = .ok (some cost') →
        y.entry.priceBasisUnits = x.entry.priceBasisUnits →
        (x.inputUnits ≤ y.inputUnits → x.entry.inputPricePerBasis ≤ y.entry.inputPricePerBasis →
          cost.inputCost ≤ cost'.inputCost) ∧
        (x.outputUnits ≤ y.outputUnits → x.entry.outputPricePerBasis ≤ y.entry.outputPricePerBasis →
          cost.outputCost ≤ cost'.outputCost) := by
  obtain ⟨cost, hcost, hexact⟩ := attributeCost_eq x
  refine ⟨cost, hcost, hexact, ?_⟩
  intro y cost' hcost' hbasis
  obtain ⟨cost'', hcost'', hexact'⟩ := attributeCost_eq y
  rw [hcost'] at hcost''
  cases hcost''
  have hb := x.entry.priceBasisUnits_pos
  have hinput := le_iff_toRat.mp x.entry.inputPrice_accepted.1
  have houtput := le_iff_toRat.mp x.entry.outputPrice_accepted.1
  rw [toRat_zero] at hinput houtput
  constructor
  · intro hunits hrate
    rw [le_iff_toRat, hexact.input, hexact'.input, hbasis]
    exact roundedCost_mono hb ⟨y.units_nonneg.1, hinput⟩ hunits hrate
  · intro hunits hrate
    rw [le_iff_toRat, hexact.output, hexact'.output, hbasis]
    exact roundedCost_mono hb ⟨y.units_nonneg.2, houtput⟩ hunits hrate

/-- A usage of which both components are ties. -/
def tiedUsage : PricedUsage where
  usage := ⟨some 1, some 3, some 4, by decide⟩
  inputUnits := 1
  outputUnits := 3
  entry := {
    provider := "openai"
    providerModelReference := "model"
    pricingVersion := "1"
    priceBasisUnits := 2
    inputPricePerBasis := ⟨1, -12⟩
    outputPricePerBasis := ⟨1, -12⟩
    currency := "USD"
    texts_stripped := by decide +kernel
    provider_length := by decide +kernel
    providerModelReference_length := by decide +kernel
    pricingVersion_length := by decide +kernel
    priceBasisUnits_pos := by decide
    inputPrice_accepted := by decide +kernel
    outputPrice_accepted := by decide +kernel
    usd := rfl }
  pricing := {
    provider := "openai"
    providerModelReference := "model"
    version := "1"
    basisUnits := 2
    inputRate := ⟨1, -12⟩
    outputRate := ⟨1, -12⟩
    currency := "USD"
    names := by decide +kernel
    version_length := by decide +kernel
    usd := rfl
    rates := by decide +kernel }
  usage_eq := ⟨rfl, rfl⟩
  units_nonneg := by decide
  units_fit := by decide
  basis_fits := by decide
  pricing_eq := by decide +kernel

/-- Both ties go to the even units: 0.5 to none, 1.5 to two. -/
example : componentCost 1 ⟨1, -12⟩ 2 = .ok ⟨0, -12⟩ ∧ componentCost 3 ⟨1, -12⟩ 2 = .ok ⟨2, -12⟩ := by
  decide +kernel

theorem attributeCost_exact_of_ties :
    ∃ cost, attributeCost (some tiedUsage.usage) (some tiedUsage.pricing) = .ok (some cost) ∧
      tiedUsage.Exact cost := by
  obtain ⟨cost, hcost, hexact, _⟩ := attributeCost_exact tiedUsage
  exact ⟨cost, hcost, hexact⟩

end PricedUsage

/-- Attribution raises for no accepted pricing and no counts of 32 bits, and only both counts
    have a cost. -/
theorem attributeCost_total {usage : Option InvocationUsage} {pricing : Option PricingSnapshot}
    (hunits : ∀ u ∈ usage, (∀ n ∈ u.inputUnits, n < 2 ^ 31) ∧ ∀ n ∈ u.outputUnits, n < 2 ^ 31)
    (hpricing : ∀ p ∈ pricing, ∃ entry, pricingOf entry = .ok p) :
    ∃ cost, attributeCost usage pricing = .ok cost ∧
      (cost.isSome → usage.any fun u => u.inputUnits.isSome && u.outputUnits.isSome) := by
  rcases usage with _ | ⟨_ | m, _ | n, total, hfits⟩ <;> rcases pricing with _ | p
  case some.some.some.some =>
    obtain ⟨entry, hentry⟩ := hpricing p rfl
    obtain ⟨hbasis, hinput, houtput⟩ := pricingOf_ok hentry
    obtain ⟨r, hr, hr0⟩ := rate_units entry.inputPrice_accepted
    obtain ⟨s, hs, hs0⟩ := rate_units entry.outputPrice_accepted
    obtain ⟨hm, hn⟩ := hunits _ rfl
    have hnonneg : 0 ≤ m ∧ 0 ≤ n := by
      simp only [usageFits, Option.all_some, Bool.and_eq_true, decide_eq_true_eq] at hfits
      exact ⟨hfits.1.1.1, hfits.1.1.2⟩
    obtain ⟨c, hcost, hc0⟩ :=
      componentCost_ok ⟨hnonneg.1, hm m rfl⟩ hr hr0 entry.priceBasisUnits_pos
    obtain ⟨d, hcost', hd0⟩ :=
      componentCost_ok ⟨hnonneg.2, hn n rfl⟩ hs hs0 entry.priceBasisUnits_pos
    rw [← hbasis, ← hinput] at hcost
    rw [← hbasis, ← houtput] at hcost'
    have hsum : (0 : Decimal) ≤ ⟨c, costExponent⟩ ∧ (0 : Decimal) ≤ ⟨d, costExponent⟩ ∧
        (0 : Decimal) ≤ (⟨c, costExponent⟩ : Decimal).add defaultPrec ⟨d, costExponent⟩ := by
      rw [PricedUsage.add_costUnits hc0 hd0]
      exact ⟨PricedUsage.nonneg_costUnits hc0.1, PricedUsage.nonneg_costUnits hd0.1,
        PricedUsage.nonneg_costUnits (by omega)⟩
    refine ⟨_, attributeCost_some rfl rfl hcost hcost'
      (InvocationCost.new_eq_ok p.usd hsum (eq_iff_toRat.mpr rfl)), ?_⟩
    intro _
    rfl
  all_goals exact ⟨none, rfl, nofun⟩

end Valor.RuntimeGateway
