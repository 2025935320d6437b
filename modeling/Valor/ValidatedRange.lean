/-
  The ranges of the three readers of history.

  The readers of audit records, of authentication evidence and of runtime reports each
  have a copy of one validator, with an error of their own. The copies accept the same
  pairs, and all three let through the OverflowError of `astimezone`.
-/
import Valor.Python.Datetime

namespace Valor

open Python Python.Datetime

/-- What a validator raises: the error of its reader, or what `astimezone` raises. -/
inductive RangeFailure (E : Type) where
  | invalid (error : E)
  | overflow (error : OverflowError)
  deriving DecidableEq

/-- `timedelta(days=31)`. -/
def maxRange : Int := 31 * day

section Validator

variable {E : Type} (invalid : String → E) (tooLong : String)

/-- `_validated_range` with the error of its reader and the text for a range too long. -/
def validatedUtcRangeOf : Datetime → Datetime → Except (RangeFailure E) (Utc × Utc)
  | .naive .., _ => .error (.invalid (invalid "start must include a timezone offset"))
  | .aware _, .naive .. => .error (.invalid (invalid "end must include a timezone offset"))
  | .aware start, .aware «end» => do
      let utcStart ← start.astimezone.mapError .overflow
      let utcEnd ← «end».astimezone.mapError .overflow
      if utcStart.instant ≥ utcEnd.instant then
        throw (.invalid (invalid "start must be earlier than end"))
      if utcEnd.instant - utcStart.instant > maxRange then
        throw (.invalid (invalid tooLong))
      return (utcStart, utcEnd)

end Validator

namespace ManagementAudit

structure InvalidAuditRange where
  message : String
  deriving DecidableEq

/-- `_validated_range` of the audit query. -/
def validatedRange : Datetime → Datetime → Except (RangeFailure InvalidAuditRange) (Utc × Utc) :=
  validatedUtcRangeOf InvalidAuditRange.mk "audit range must not exceed 31 days"

end ManagementAudit

namespace ManagementIdentity

structure InvalidAuthenticationEvidenceQuery where
  message : String
  deriving DecidableEq

/-- `_validated_range` of the query of authentication evidence. -/
def validatedRange :
    Datetime → Datetime → Except (RangeFailure InvalidAuthenticationEvidenceQuery) (Utc × Utc) :=
  validatedUtcRangeOf InvalidAuthenticationEvidenceQuery.mk
    "authentication evidence range must not exceed 31 days"

end ManagementIdentity

namespace RuntimeGateway

structure InvalidReportRange where
  message : String
  deriving DecidableEq

/-- `_validated_utc_range`. -/
def validatedUtcRange :
    Datetime → Datetime → Except (RangeFailure InvalidReportRange) (Utc × Utc) :=
  validatedUtcRangeOf InvalidReportRange.mk "reporting range must not exceed 31 days"

end RuntimeGateway

/-! ## What the validators are for -/

/-- Both ends are aware, in order, and at most 31 days apart. -/
def RangeValid (start «end» : Datetime) : Prop :=
  ∃ s e : Aware, start = .aware s ∧ «end» = .aware e ∧ s.instant < e.instant ∧
    e.instant - s.instant ≤ maxRange

/-- The two ends in UTC. -/
def SameInstants (start «end» : Datetime) (range : Utc × Utc) : Prop :=
  ∃ s e : Aware, start = .aware s ∧ «end» = .aware e ∧ range.1.instant = s.instant ∧
    range.2.instant = e.instant

/-- A valid range is returned in UTC, and any other is refused with the error of the reader. -/
structure Validates {E : Type} (outcome : Except (RangeFailure E) (Utc × Utc))
    (start «end» : Datetime) : Prop where
  accepts : RangeValid start «end» → ∃ range, outcome = .ok range ∧ SameInstants start «end» range
  refuses : ¬ RangeValid start «end» → ∃ error, outcome = .error (.invalid error)

/-- `datetime` holds the UTC value of `a`. -/
abbrev Python.Aware.Representable (a : Aware) : Prop := 0 ≤ a.instant ∧ a.instant < maxWall

/-- Where both ends are aware, both have a UTC value. -/
def EndsRepresentable (start «end» : Datetime) : Prop :=
  ∀ s e : Aware, start = .aware s → «end» = .aware e → s.Representable ∧ e.Representable

section Validator

variable {E : Type} {invalid : String → E} {tooLong : String} {start «end» : Datetime}

/-- What the validator does on two aware times, without the two conversions. -/
theorem validatedUtcRangeOf_aware {s e : Aware} (hs : s.Representable) (he : e.Representable) :
    validatedUtcRangeOf invalid tooLong (.aware s) (.aware e) =
      if s.instant ≥ e.instant then .error (.invalid (invalid "start must be earlier than end"))
      else if e.instant - s.instant > maxRange then .error (.invalid (invalid tooLong))
      else .ok (⟨s.instant, hs⟩, ⟨e.instant, he⟩) := by
  have hstart : s.astimezone = .ok ⟨s.instant, hs⟩ := dif_pos hs
  have hend : e.astimezone = .ok ⟨e.instant, he⟩ := dif_pos he
  simp only [validatedUtcRangeOf, hstart, hend, Except.mapError, bind, Except.bind, pure,
    Except.pure, throw, throwThe, MonadExceptOf.throw]

theorem validatedUtcRangeOf_overflow {s e : Aware} (h : ¬ (s.Representable ∧ e.Representable)) :
    validatedUtcRangeOf invalid tooLong (.aware s) (.aware e) = .error (.overflow ⟨⟩) := by
  by_cases hs : s.Representable
  · have he : ¬ e.Representable := fun he => h ⟨hs, he⟩
    have hstart : s.astimezone = .ok ⟨s.instant, hs⟩ := dif_pos hs
    have hend : e.astimezone = .error ⟨⟩ := dif_neg he
    simp [validatedUtcRangeOf, hstart, hend, Except.mapError, bind, Except.bind]
  · have hstart : s.astimezone = .error ⟨⟩ := dif_neg hs
    simp [validatedUtcRangeOf, hstart, Except.mapError, bind, Except.bind]

theorem validates_of_representable (h : EndsRepresentable start «end») :
    Validates (validatedUtcRangeOf invalid tooLong start «end») start «end» := by
  cases start with
  | naive wall range =>
    refine ⟨?_, fun _ => ⟨_, rfl⟩⟩
    rintro ⟨s, e, hs, -⟩
    cases hs
  | aware s =>
    cases «end» with
    | naive wall range =>
      refine ⟨?_, fun _ => ⟨_, rfl⟩⟩
      rintro ⟨s, e, -, he, -⟩
      cases he
    | aware e =>
      obtain ⟨hs, he⟩ := h s e rfl rfl
      rw [validatedUtcRangeOf_aware hs he]
      constructor
      · rintro ⟨s', e', hs', he', hlt, hle⟩
        cases hs'
        cases he'
        rw [if_neg (Int.not_le.mpr hlt), if_neg (Int.not_lt.mpr hle)]
        exact ⟨_, rfl, s, e, rfl, rfl, rfl, rfl⟩
      · intro hinvalid
        by_cases hlt : s.instant < e.instant
        · rw [if_neg (Int.not_le.mpr hlt)]
          by_cases hle : e.instant - s.instant ≤ maxRange
          · exact absurd ⟨s, e, rfl, rfl, hlt, hle⟩ hinvalid
          · rw [if_pos (Int.not_le.mp hle)]
            exact ⟨_, rfl⟩
        · rw [if_pos (Int.not_lt.mp hlt)]
          exact ⟨_, rfl⟩

/-- An overflow is no outcome of a total validator. -/
theorem representable_of_validates
    (h : Validates (validatedUtcRangeOf invalid tooLong start «end») start «end») :
    EndsRepresentable start «end» := by
  rintro s e rfl rfl
  by_contra hnot
  have hoverflow : validatedUtcRangeOf invalid tooLong (.aware s) (.aware e) =
      .error (.overflow ⟨⟩) := validatedUtcRangeOf_overflow hnot
  by_cases hvalid : RangeValid (.aware s) (.aware e)
  · obtain ⟨range, hok, -⟩ := h.accepts hvalid
    rw [hoverflow] at hok
    cases hok
  · obtain ⟨error, herror⟩ := h.refuses hvalid
    rw [hoverflow] at herror
    cases herror

theorem SameInstants.unique {range range' : Utc × Utc} (h : SameInstants start «end» range)
    (h' : SameInstants start «end» range') : range = range' := by
  obtain ⟨s, e, rfl, rfl, hstart, hend⟩ := h
  obtain ⟨s', e', hs, he, hstart', hend'⟩ := h'
  cases hs
  cases he
  exact Prod.ext (Utc.ext_instant (hstart.trans hstart'.symm))
    (Utc.ext_instant (hend.trans hend'.symm))

/-- What is accepted does not depend on the reader. -/
theorem accepted_iff {range : Utc × Utc} :
    validatedUtcRangeOf invalid tooLong start «end» = .ok range ↔
      EndsRepresentable start «end» ∧ RangeValid start «end» ∧ SameInstants start «end» range := by
  by_cases hends : EndsRepresentable start «end»
  · have hvalidates : Validates (validatedUtcRangeOf invalid tooLong start «end») start «end» :=
      validates_of_representable hends
    by_cases hvalid : RangeValid start «end»
    · obtain ⟨range', hok, hsame⟩ := hvalidates.accepts hvalid
      rw [hok]
      constructor
      · intro h
        cases h
        exact ⟨hends, hvalid, hsame⟩
      · rintro ⟨-, -, h⟩
        rw [hsame.unique h]
    · obtain ⟨error, herror⟩ := hvalidates.refuses hvalid
      rw [herror]
      constructor
      · intro h
        cases h
      · rintro ⟨-, h, -⟩
        exact absurd h hvalid
  · constructor
    · intro h
      unfold EndsRepresentable at hends
      push Not at hends
      obtain ⟨s, e, rfl, rfl, hnot⟩ := hends
      rw [validatedUtcRangeOf_overflow fun both => hnot both.1 both.2] at h
      cases h
    · rintro ⟨h, -⟩
      exact absurd h hends

end Validator

/-! ## The three readers -/

/-- Each of the three validators returns or refuses the range, with no other outcome. -/
structure ThreeValidate (start «end» : Datetime) : Prop where
  audit : Validates (ManagementAudit.validatedRange start «end») start «end»
  evidence : Validates (ManagementIdentity.validatedRange start «end») start «end»
  report : Validates (RuntimeGateway.validatedUtcRange start «end») start «end»

/-- The validators accept the same pairs. They are total exactly where the conversion to
    UTC is. -/
theorem ranges_validated_iff (start «end» : Datetime) :
    (ThreeValidate start «end» ↔ EndsRepresentable start «end») ∧
      ∀ range, (ManagementAudit.validatedRange start «end» = .ok range ↔
          ManagementIdentity.validatedRange start «end» = .ok range) ∧
        (ManagementAudit.validatedRange start «end» = .ok range ↔
          RuntimeGateway.validatedUtcRange start «end» = .ok range) := by
  refine ⟨⟨?_, ?_⟩, fun range => ⟨accepted_iff.trans accepted_iff.symm,
    accepted_iff.trans accepted_iff.symm⟩⟩
  · intro h
    exact representable_of_validates h.audit
  · intro h
    exact ⟨validates_of_representable h, validates_of_representable h,
      validates_of_representable h⟩

/-- 0001-01-01T00:00+14:00. -/
def firstDayStart : Aware := (0 : Utc).withTimezone 14

/-- 0001-01-02T00:00+14:00. -/
def firstDayEnd : Aware := (86400000000 : Utc).withTimezone 14

/-- The first day of the calendar, in a zone that is ahead of UTC. -/
theorem ranges_overflow :
    RangeValid (.aware firstDayStart) (.aware firstDayEnd) ∧
      ManagementAudit.validatedRange (.aware firstDayStart) (.aware firstDayEnd) =
        .error (.overflow ⟨⟩) ∧
      ManagementIdentity.validatedRange (.aware firstDayStart) (.aware firstDayEnd) =
        .error (.overflow ⟨⟩) ∧
      RuntimeGateway.validatedUtcRange (.aware firstDayStart) (.aware firstDayEnd) =
        .error (.overflow ⟨⟩) := by
  refine ⟨⟨firstDayStart, firstDayEnd, rfl, rfl, by decide, by decide⟩, ?_⟩
  decide

end Valor
