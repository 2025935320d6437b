/-
  Days and hours in UTC.

  Three functions truncate a time after its conversion to UTC: `utc_day_window`, the start
  of the day in `_continuity_preflight`, and `hourly_bucket`. The windows tile time: each
  time that has a window is in exactly one, whatever its offset, and the ledgers charge
  an Invocation to the day that it started on.
-/
import Valor.Lib.Tiles
import Valor.ManagementIdentity.Domain
import Valor.RuntimeGateway.Readers
import Valor.RuntimeIdentity.Service

namespace Valor

open Python Python.Datetime Tiles RuntimeGateway

/-! ## The three truncations -/

/-- What the functions of a time raise. -/
inductive TimeError where
  | valueError (message : String)
  | overflowError
  deriving DecidableEq

def orTimeError {α : Type} : Except OverflowError α → Except TimeError α
  | .ok a => .ok a
  | .error _ => .error .overflowError

/-- `utc_day_window`. -/
def utcDayWindowOf : Datetime → Except TimeError UsageWindow
  | .naive .. => .error (.valueError "Usage window time must be timezone-aware.")
  | .aware at' => do
      let utcAt ← orTimeError at'.astimezone
      orTimeError (utcDayWindow utcAt)

/-- `hourly_bucket`. -/
def hourlyBucketOf : Datetime → Except TimeError Utc
  | .naive .. => .error (.valueError "authentication evidence timestamp must be timezone-aware")
  | .aware at' => orTimeError (ManagementIdentity.hourlyBucket at')

/-- `day_start` of `_continuity_preflight`. -/
def continuityDayStart (now : Aware) : Except TimeError Utc := do
  let utcNow ← orTimeError now.astimezone
  return utcNow.midnight

/-- The preflight of a store at the time of the clock starts its day there. -/
theorem continuityDayStart_now (env : RuntimeIdentity.Env) :
    continuityDayStart env.now = .ok env.now.midnight := by
  simp [continuityDayStart, orTimeError, bind, Except.bind, pure, Except.pure]

/-! ## Dates -/

/-- The days between 0001-01-01 and the date of `a` in UTC. -/
def Python.Aware.utcDate (a : Aware) : ℤ := a.instant / day

/-- 9999-12-31. -/
def lastDate : ℤ := 3652058

/-- `datetime` holds the UTC date of `a`, and the next one. -/
structure Python.Aware.Dated (a : Aware) : Prop where
  representable : 0 ≤ a.utcDate
  not_last : a.utcDate < lastDate

theorem dated_iff {a : Aware} : a.Dated ↔ 0 ≤ a.instant ∧ a.instant < maxWall - day := by
  constructor
  · rintro ⟨hrepresentable, hlast⟩
    simp only [Aware.utcDate, lastDate, maxWall, day] at *
    omega
  · rintro ⟨hrepresentable, hlast⟩
    constructor <;> simp only [Aware.utcDate, lastDate, maxWall, day] at * <;> omega

theorem midnight_instant (u : Utc) : u.midnight.instant = tileStart day u.instant := rfl

theorem startOfHour_instant (u : Utc) : u.startOfHour.instant = tileStart hour u.instant := rfl

theorem astimezone_ok {a : Aware} (h : 0 ≤ a.instant ∧ a.instant < maxWall) :
    a.astimezone = .ok ⟨a.instant, h⟩ := dif_pos h

/-! ## Windows -/

/-- The window of the UTC date of `a`. -/
structure WindowOf (a : Aware) (window : UsageWindow) : Prop where
  start : window.start.instant = tileStart day a.instant
  «end» : window.end.instant = tileStart day a.instant + day

theorem utcDayWindow_ok {u : Utc} {window : UsageWindow} :
    utcDayWindow u = .ok window ↔
      u.instant < maxWall - day ∧ window.start = u.midnight ∧
        window.end.instant = u.midnight.instant + day := by
  have hrange := u.range
  have hstart := midnight_instant u
  have hmidnight := u.midnight.range
  have hunits : 0 ≤ u.midnight.instant + day ∧ u.midnight.instant + day < maxWall ↔
      u.instant < maxWall - day := by
    simp only [hstart, tileStart, maxWall, day] at *
    omega
  obtain ⟨start, «end»⟩ := window
  by_cases h : 0 ≤ u.midnight.instant + day ∧ u.midnight.instant + day < maxWall
  · have hadd : u.midnight.addDay = .ok ⟨u.midnight.instant + day, h⟩ := dif_pos h
    simp only [utcDayWindow, hadd, bind, Except.bind, pure, Except.pure, Except.ok.injEq,
      UsageWindow.mk.injEq]
    constructor
    · rintro ⟨rfl, rfl⟩
      exact ⟨hunits.mp h, rfl, rfl⟩
    · rintro ⟨-, rfl, hend⟩
      exact ⟨rfl, Utc.ext_instant hend.symm⟩
  · have hadd : u.midnight.addDay = .error ⟨⟩ := dif_neg h
    simp only [utcDayWindow, hadd, bind, Except.bind]
    constructor
    · intro hok
      cases hok
    · rintro ⟨hlast, -⟩
      exact absurd (hunits.mpr hlast) h

/-- A time has a window if and only if its date and the next one are representable. -/
theorem utcDayWindowOf_ok {a : Aware} {window : UsageWindow} :
    utcDayWindowOf (.aware a) = .ok window ↔ a.Dated ∧ WindowOf a window := by
  rw [dated_iff]
  by_cases h : 0 ≤ a.instant ∧ a.instant < maxWall
  · have hokay : utcDayWindowOf (.aware a) = .ok window ↔
        utcDayWindow ⟨a.instant, h⟩ = .ok window := by
      simp only [utcDayWindowOf, astimezone_ok h, orTimeError, bind, Except.bind]
      cases utcDayWindow ⟨a.instant, h⟩ <;> simp
    rw [hokay, utcDayWindow_ok]
    constructor
    · rintro ⟨hlast, hstart, hend⟩
      exact ⟨⟨h.1, hlast⟩, by rw [hstart]; rfl, hend⟩
    · rintro ⟨⟨-, hlast⟩, hstart, hend⟩
      exact ⟨hlast, Utc.ext_instant hstart, hend⟩
  · have hraise : utcDayWindowOf (.aware a) = .error .overflowError := by
      simp [utcDayWindowOf, Aware.astimezone, h, orTimeError, bind, Except.bind]
    rw [hraise]
    constructor
    · intro hok
      cases hok
    · rintro ⟨⟨hrepresentable, hlast⟩, -⟩
      simp only [maxWall, day] at *
      omega

theorem exists_window {a : Aware} (h : a.Dated) : ∃ window, utcDayWindowOf (.aware a) = .ok window := by
  have hrange := dated_iff.mp h
  have hstart : 0 ≤ tileStart day a.instant ∧ tileStart day a.instant < maxWall - day := by
    simp only [tileStart, maxWall, day] at *
    omega
  refine ⟨⟨⟨tileStart day a.instant, ?_⟩, ⟨tileStart day a.instant + day, ?_⟩⟩,
    utcDayWindowOf_ok.mpr ⟨h, rfl, rfl⟩⟩
  all_goals
    simp only [maxWall, day] at *
    omega

theorem WindowOf.eq_iff {a b : Aware} {w v : UsageWindow} (hw : WindowOf a w) (hv : WindowOf b v) :
    w = v ↔ a.utcDate = b.utcDate := by
  have hdate := tileStart_eq_iff (t := a.instant) (u := b.instant) (show (0 : ℤ) < day by decide)
  rw [Aware.utcDate, Aware.utcDate, ← hdate, ← hw.start, ← hv.start]
  constructor
  · rintro rfl
    rfl
  · intro h
    have hend : w.end.instant = v.end.instant := by
      rw [hw.end, hv.end, ← hw.start, ← hv.start, h]
    cases w
    cases v
    simp only [UsageWindow.mk.injEq]
    exact ⟨Utc.ext_instant h, Utc.ext_instant hend⟩

/-- Windows that share a time are equal. -/
theorem WindowOf.eq_of_common {a b : Aware} {w v : UsageWindow} (hw : WindowOf a w)
    (hv : WindowOf b v) {t : ℤ} (ht : w.start.instant ≤ t ∧ t < w.end.instant)
    (ht' : v.start.instant ≤ t ∧ t < v.end.instant) : w = v := by
  rw [hw.start, hw.end] at ht
  rw [hv.start, hv.end] at ht'
  have hpos : (0 : ℤ) < day := by decide
  exact (hw.eq_iff hv).mpr ((tileStart_eq_iff hpos).mp
    (tileStart_eq_of_common hpos ht.1 ht.2 ht'.1 ht'.2))

/-- What the window of `a` and the other two truncations of `a` are. -/
structure IsDayOf (a : Aware) (window : UsageWindow) : Prop where
  midnight : window.start.instant % day = 0
  length : window.end.instant = window.start.instant + day
  contains : window.start.instant ≤ a.instant ∧ a.instant < window.end.instant
  continuity : continuityDayStart a = .ok window.start
  hourly : ∃ bucket, hourlyBucketOf (.aware a) = .ok bucket ∧
    window.start.instant ≤ bucket.instant ∧ bucket.instant < window.end.instant ∧
    bucket.instant ≤ a.instant ∧ a.instant < bucket.instant + hour

theorem WindowOf.isDayOf {a : Aware} {window : UsageWindow} (ha : a.Dated)
    (h : WindowOf a window) : IsDayOf a window := by
  have hday : (0 : ℤ) < day := by decide
  have hhour : (0 : ℤ) < hour := by decide
  have hrange : 0 ≤ a.instant ∧ a.instant < maxWall := by
    have hdated := dated_iff.mp ha
    simp only [maxWall, day] at *
    omega
  have hcontains : window.start.instant ≤ a.instant ∧ a.instant < window.end.instant := by
    rw [h.end, h.start]
    exact ⟨tileStart_le hday, lt_tileStart_add hday⟩
  refine ⟨?midnight, ?length, hcontains, ?continuity, ?hourly⟩
  case midnight =>
    rw [h.start]
    exact tileStart_emod day a.instant
  case length => rw [h.end, h.start]
  case continuity =>
    have hstart : window.start = (⟨a.instant, hrange⟩ : Utc).midnight := Utc.ext_instant h.start
    rw [hstart]
    simp [continuityDayStart, astimezone_ok hrange, orTimeError, bind, Except.bind, pure,
      Except.pure]
  case hourly =>
    have hle : tileStart hour a.instant ≤ a.instant := tileStart_le hhour
    refine ⟨(⟨a.instant, hrange⟩ : Utc).startOfHour, ?_, ?_, ?_, hle, lt_tileStart_add hhour⟩
    · simp [hourlyBucketOf, ManagementIdentity.hourlyBucket, astimezone_ok hrange, orTimeError,
        bind, Except.bind, pure, Except.pure]
    · rw [startOfHour_instant, h.start]
      exact tileStart_le_tileStart hday hhour ⟨24, by decide⟩
    · rw [startOfHour_instant]
      exact hle.trans_lt hcontains.2

/-! ## The day of an Invocation -/

def DayWindow (window : UsageWindow) : Prop := ∃ a : Aware, utcDayWindowOf (.aware a) = .ok window

/-- Storing the row raises the usage of the window by the units of the row, for its principal. -/
def ChargedTo (row : InvocationRow) (window : UsageWindow) : Prop :=
  ∀ rows principalId,
    consumedTotalUnits (row :: rows) principalId window.start window.end =
      consumedTotalUnits rows principalId window.start window.end +
        if row.runtimePrincipalId = some principalId then row.totalUnits.getD 0 else 0

/-- Storing the row leaves the usage of the window as it was, for every principal. -/
def NotChargedTo (row : InvocationRow) (window : UsageWindow) : Prop :=
  ∀ rows principalId,
    consumedTotalUnits (row :: rows) principalId window.start window.end =
      consumedTotalUnits rows principalId window.start window.end

theorem chargedTo_of_startedIn {row : InvocationRow} {window : UsageWindow}
    (h : row.startedIn window.start window.end) : ChargedTo row window := by
  intro rows principalId
  by_cases hid : row.runtimePrincipalId = some principalId
  · cases hunits : row.totalUnits <;>
      simp [consumedTotalUnits, h, hid, hunits, add_comm]
  · simp [consumedTotalUnits, hid]

theorem notChargedTo_of_startedIn {row : InvocationRow} {window : UsageWindow}
    (h : row.startedIn window.start window.end = false) : NotChargedTo row window := by
  intro rows principalId
  simp [consumedTotalUnits, h]

/-- A row that started on a day with a window is in that window and no other. -/
theorem startedIn_iff {row : InvocationRow} {w v : UsageWindow}
    (hw : utcDayWindowOf (.aware row.startedAt) = .ok w) (hv : DayWindow v) :
    row.startedIn v.start v.end ↔ v = w := by
  obtain ⟨hdated, hwindow⟩ := utcDayWindowOf_ok.mp hw
  obtain ⟨b, hb⟩ := hv
  obtain ⟨-, hother⟩ := utcDayWindowOf_ok.mp hb
  have hcontains : w.start.instant ≤ row.startedAt.instant ∧
      row.startedAt.instant < w.end.instant := by
    have h := (hwindow.isDayOf hdated).contains
    simpa using h
  constructor
  · intro h
    simp only [InvocationRow.startedIn, Bool.and_eq_true, decide_eq_true_eq] at h
    exact hother.eq_of_common hwindow h hcontains
  · rintro rfl
    simp [InvocationRow.startedIn, hcontains]

/-- The windows of the times that have one tile time, the other truncations agree with them,
    and each Invocation that started on such a day is charged to that day only. -/
theorem utc_windows_tile :
    (∀ a : Aware, a.Dated →
      ∃ window, utcDayWindowOf (.aware a) = .ok window ∧ IsDayOf a window) ∧
    (∀ (a b : Aware) (w v : UsageWindow), utcDayWindowOf (.aware a) = .ok w →
      utcDayWindowOf (.aware b) = .ok v →
        (w = v ↔ a.utcDate = b.utcDate) ∧
        (w ≠ v → ∀ t : ℤ, ¬ ((w.start.instant ≤ t ∧ t < w.end.instant) ∧
          (v.start.instant ≤ t ∧ t < v.end.instant)))) ∧
    ∀ row : InvocationRow, row.startedAt.toAware.Dated →
      ∃ window, utcDayWindowOf (.aware row.startedAt) = .ok window ∧ ChargedTo row window ∧
        ∀ other, DayWindow other → other ≠ window → NotChargedTo row other := by
  refine ⟨?windows, ?tiles, ?invocations⟩
  case windows =>
    intro a ha
    obtain ⟨window, hwindow⟩ := exists_window ha
    exact ⟨window, hwindow, (utcDayWindowOf_ok.mp hwindow).2.isDayOf ha⟩
  case tiles =>
    intro a b w v hw hv
    obtain ⟨-, hw⟩ := utcDayWindowOf_ok.mp hw
    obtain ⟨-, hv⟩ := utcDayWindowOf_ok.mp hv
    refine ⟨hw.eq_iff hv, fun hne t ht => ?_⟩
    exact hne (hw.eq_of_common hv ht.1 ht.2)
  case invocations =>
    intro row hrow
    obtain ⟨window, hwindow⟩ := exists_window hrow
    have hself : DayWindow window := ⟨_, hwindow⟩
    refine ⟨window, hwindow, chargedTo_of_startedIn ((startedIn_iff hwindow hself).mpr rfl), ?_⟩
    intro other hother hne
    apply notChargedTo_of_startedIn
    have hnot := mt (startedIn_iff hwindow hother).mp hne
    simpa using hnot

/-- 2023-12-31T22:00-05:00, which is 2024-01-01T03:00 in UTC. -/
def newYearInNewYork : Aware := ⟨738884 * day + 22 * hour, -5 * hour, by decide, by decide⟩

theorem utc_windows_tile_newYear :
    newYearInNewYork.Dated ∧
      ∃ window, utcDayWindowOf (.aware newYearInNewYork) = .ok window ∧
        IsDayOf newYearInNewYork window := by
  have hdated : newYearInNewYork.Dated := ⟨by decide, by decide⟩
  exact ⟨hdated, utc_windows_tile.1 newYearInNewYork hdated⟩

/-- 0001-01-01T00:00+14:00. -/
def firstMidnightInKiritimati : Aware := (0 : Utc).withTimezone 14

/-- A time whose UTC date is not the last, and not representable. -/
theorem no_window_before_first_day :
    firstMidnightInKiritimati.utcDate ≠ lastDate ∧
      utcDayWindowOf (.aware firstMidnightInKiritimati) = .error .overflowError := by
  decide

end Valor
