import NightScout.Core.Python
import NightScout.Lib.Calendar
import NightScout.Lib.FixedWidth

/-!
# Stored points of time

`UTCDateTime` of `recon/storage/models.py`: a point of time is stored as its ISO text in UTC and compared by SQL as a
text. Every aware `datetime` whose UTC time has a year from 1 to 9999 comes back as the same point of time, and the texts
compare as the points of time do (`utc_texts_keep_time`). Near both ends of the calendar an offset leads out of these
years, and such a value is refused (`first_hour_is_refused`).
-/

namespace NightScout

open Lib

/-! ## `datetime` -/

/-- Microseconds of a day. -/
def dayLength : ℕ := 86400000000

/-- A `datetime`; a naive one has no offset. -/
structure DateTime where
  date : Date
  hour : ℕ
  minute : ℕ
  second : ℕ
  microsecond : ℕ
  utcoffset : Option Duration
  date_valid : date.Valid
  year_le : date.year ≤ 9999
  hour_lt : hour < 24
  minute_lt : minute < 60
  second_lt : second < 60
  microsecond_lt : microsecond < 1000000
  offset_lt : ∀ offset ∈ utcoffset, |offset| < dayLength

namespace DateTime

/-- The microseconds of the day. -/
def timeOfDay (value : DateTime) : ℕ :=
  ((value.hour * 60 + value.minute) * 60 + value.second) * 1000000 + value.microsecond

/-- What the clock on the wall shows, as if it showed UTC. -/
def wall (value : DateTime) : Instant :=
  minInstant + (((value.date.toOrdinal - 1) * dayLength + value.timeOfDay : ℕ) : ℤ)

/-- The point of time of an aware value. -/
def instant (value : DateTime) : Instant := value.wall - value.utcoffset.getD 0

theorem timeOfDay_lt (value : DateTime) : value.timeOfDay < dayLength := by
  have hhour := value.hour_lt
  have hminute := value.minute_lt
  have hsecond := value.second_lt
  have hmicrosecond := value.microsecond_lt
  unfold timeOfDay dayLength
  omega

end DateTime

/-- The days up to `datetime.max`. -/
theorem daysBeforeYear_max : Date.daysBeforeYear 10000 = 3652059 := rfl

theorem year_le_of_ordinal {date : Date} (h : date.Valid) (hordinal : date.toOrdinal ≤ 3652059) : date.year ≤ 9999 := by
  by_contra hlater
  rw [not_le] at hlater
  have hmono := Date.daysBeforeYear_mono (by decide) hlater
  have hlt := h.daysBeforeYear_lt
  rw [daysBeforeYear_max] at hmono
  omega

/-- The value in UTC at a point of time, by the microseconds since `datetime.min`. -/
def utcDateTime (micros : ℕ) (h : micros < 3652059 * dayLength) : DateTime where
  date := .ofOrdinal (micros / dayLength + 1)
  hour := micros % dayLength / 3600000000
  minute := micros % dayLength / 60000000 % 60
  second := micros % dayLength / 1000000 % 60
  microsecond := micros % 1000000
  utcoffset := some 0
  date_valid := (Date.ofOrdinal_spec (Nat.le_add_left 1 _)).1
  year_le := by
    refine year_le_of_ordinal (Date.ofOrdinal_spec (Nat.le_add_left 1 _)).1 ?_
    rw [(Date.ofOrdinal_spec (Nat.le_add_left 1 _)).2]
    exact Nat.div_lt_of_lt_mul (by rwa [mul_comm])
  hour_lt := by
    unfold dayLength
    omega
  minute_lt := Nat.mod_lt _ (by decide)
  second_lt := Nat.mod_lt _ (by decide)
  microsecond_lt := Nat.mod_lt _ (by decide)
  offset_lt := by
    intro offset hoffset
    rw [← Option.some.inj hoffset]
    decide

/-- A year from 1 to 9999. -/
def InCalendar (t : Instant) : Prop := minInstant ≤ t ∧ t ≤ maxInstant

instance (t : Instant) : Decidable (InCalendar t) := inferInstanceAs (Decidable (_ ∧ _))

theorem micros_lt {t : Instant} (h : InCalendar t) : (t - minInstant).toNat < 3652059 * dayLength := by
  have hspan : t - minInstant ≤ maxInstant - minInstant := Int.sub_le_sub_right h.2 _
  have hdays : maxInstant - minInstant < ((3652059 * dayLength : ℕ) : ℤ) := by decide
  exact (Int.toNat_lt (Int.sub_nonneg.mpr h.1)).mpr (hspan.trans_lt hdays)

/-- `value.astimezone(timezone.utc)` of an aware value. -/
def astimezoneUtc (value : DateTime) : Except PyError DateTime :=
  if h : InCalendar value.instant then .ok (utcDateTime (value.instant - minInstant).toNat (micros_lt h))
  else .error (.overflowError "date value out of range")

/-- `isoformat(timespec="microseconds")` in UTC: `YYYY-MM-DDTHH:MM:SS.ffffff+00:00`. -/
def isoLayout : Layout :=
  [(4, ['-']), (2, ['-']), (2, ['T']), (2, [':']), (2, [':']), (2, ['.']), (6, ['+']), (2, [':']), (2, [])]

def isoFields (value : DateTime) : List ℕ :=
  [value.date.year, value.date.month, value.date.day, value.hour, value.minute, value.second, value.microsecond, 0, 0]

def isoformatUtc (value : DateTime) : String := String.ofList (written isoLayout (isoFields value))

/-- `datetime(year, ..., tzinfo=timezone(offset))`. -/
def makeDateTime (date : Date) (hour minute second microsecond : ℕ) (offset : Duration) : Except PyError DateTime :=
  if h : date.Valid ∧ date.year ≤ 9999 ∧ hour < 24 ∧ minute < 60 ∧ second < 60 ∧ microsecond < 1000000 ∧
      |offset| < dayLength then
    .ok { date, hour, minute, second, microsecond, utcoffset := some offset, date_valid := h.1, year_le := h.2.1
          hour_lt := h.2.2.1, minute_lt := h.2.2.2.1, second_lt := h.2.2.2.2.1, microsecond_lt := h.2.2.2.2.2.1
          offset_lt := fun _ ho => Option.some.inj ho ▸ h.2.2.2.2.2.2 }
  else .error (.valueError "Invalid isoformat string")

section Codec

-- what `datetime.fromisoformat` makes of a text that is not of the layout above
variable (otherIso : String → Except PyError DateTime)

def fromisoformat (text : String) : Except PyError DateTime :=
  match readFields isoLayout text.toList with
  | some ([year, month, day, hour, minute, second, microsecond, offsetHour, offsetMinute], []) =>
    makeDateTime ⟨year, month, day⟩ hour minute second microsecond ((offsetHour * 60 + offsetMinute) * 60000000 : ℕ)
  | _ => otherIso text

def processBindParam : Option DateTime → Except PyError (Option String)
  | none => .ok none
  | some value =>
    if value.utcoffset = none then .error (.valueError "Night Scout timestamps must be timezone-aware")
    else do
      let utc ← astimezoneUtc value
      return some (isoformatUtc utc)

def processResultValue : Option String → Except PyError (Option DateTime)
  | none => .ok none
  | some text => do
    let parsed ← fromisoformat otherIso text
    if parsed.utcoffset = none then
      throw (.valueError "database contained a timezone-naive Night Scout timestamp")
    let utc ← astimezoneUtc parsed
    return some utc

end Codec

/-! ## The value in UTC -/

section Utc

variable {micros micros' : ℕ} {h : micros < 3652059 * dayLength} {h' : micros' < 3652059 * dayLength}

theorem utcDateTime_timeOfDay : (utcDateTime micros h).timeOfDay = micros % dayLength := by
  show ((micros % dayLength / 3600000000 * 60 + micros % dayLength / 60000000 % 60) * 60 +
    micros % dayLength / 1000000 % 60) * 1000000 + micros % 1000000 = micros % dayLength
  unfold dayLength
  omega

theorem utcDateTime_ordinal : (utcDateTime micros h).date.toOrdinal = micros / dayLength + 1 :=
  (Date.ofOrdinal_spec (Nat.le_add_left 1 _)).2

/-- Its microseconds are those it was made of. -/
theorem utcDateTime_wall : (utcDateTime micros h).wall = minInstant + micros := by
  unfold DateTime.wall
  rw [utcDateTime_timeOfDay, utcDateTime_ordinal, Nat.add_sub_cancel, Nat.div_add_mod']

theorem isoFields_fits (value : DateTime) : Fits isoLayout (isoFields value) := by
  have hyear := value.year_le
  have hmonth := value.date_valid.month_le
  have hday := value.date_valid.day_le
  have hdays : Date.daysInMonth (Date.isLeap value.date.year) value.date.month ≤ 31 := by
    unfold Date.daysInMonth
    split
    · split <;> decide
    · split <;> decide
  have hhour := value.hour_lt
  have hminute := value.minute_lt
  have hsecond := value.second_lt
  have hmicrosecond := value.microsecond_lt
  unfold Fits isoLayout isoFields
  simp only [List.forall₂_cons, List.Forall₂.nil, and_true]
  omega

end Utc

/-! ## Order -/

section Order

variable (a b : DateTime)

theorem timeOfDay_lt_iff : a.timeOfDay < b.timeOfDay ↔
    a.hour < b.hour ∨ a.hour = b.hour ∧ (a.minute < b.minute ∨ a.minute = b.minute ∧
      (a.second < b.second ∨ a.second = b.second ∧ a.microsecond < b.microsecond)) := by
  have hminute := a.minute_lt
  have hsecond := a.second_lt
  have hmicrosecond := a.microsecond_lt
  have hminute' := b.minute_lt
  have hsecond' := b.second_lt
  have hmicrosecond' := b.microsecond_lt
  unfold DateTime.timeOfDay
  omega

/-- The day decides, and then the time of the day. -/
theorem wall_lt_iff_day : a.wall < b.wall ↔
    a.date.toOrdinal < b.date.toOrdinal ∨ a.date.toOrdinal = b.date.toOrdinal ∧ a.timeOfDay < b.timeOfDay := by
  have htime := a.timeOfDay_lt
  have htime' := b.timeOfDay_lt
  have hday := a.date_valid.daysBeforeYear_lt
  have hday' := b.date_valid.daysBeforeYear_lt
  unfold DateTime.wall
  rw [add_lt_add_iff_left, Nat.cast_lt]
  unfold dayLength at htime htime' ⊢
  omega

theorem date_before_time {y y' m m' d d' t : Prop} : (y ∨ y' ∧ (m ∨ m' ∧ d)) ∨ (y' ∧ m' ∧ d') ∧ t ↔
    y ∨ y' ∧ (m ∨ m' ∧ (d ∨ d' ∧ t)) := by
  constructor
  · rintro ((hy | ⟨hy, hm | ⟨hm, hd⟩⟩) | ⟨⟨hy, hm, hd⟩, ht⟩)
    · exact .inl hy
    · exact .inr ⟨hy, .inl hm⟩
    · exact .inr ⟨hy, .inr ⟨hm, .inl hd⟩⟩
    · exact .inr ⟨hy, .inr ⟨hm, .inr ⟨hd, ht⟩⟩⟩
  · rintro (hy | ⟨hy, hm | ⟨hm, hd | ⟨hd, ht⟩⟩⟩)
    · exact .inl (.inl hy)
    · exact .inl (.inr ⟨hy, .inl hm⟩)
    · exact .inl (.inr ⟨hy, .inr ⟨hm, hd⟩⟩)
    · exact .inr ⟨⟨hy, hm, hd⟩, ht⟩

/-- **The fields come in the order of the clock.** -/
theorem isoFields_lt_iff : isoFields a < isoFields b ↔ a.wall < b.wall := by
  rw [wall_lt_iff_day, timeOfDay_lt_iff, Date.toOrdinal_lt_iff a.date_valid b.date_valid]
  have hsame : a.date.toOrdinal = b.date.toOrdinal ↔
      a.date.year = b.date.year ∧ a.date.month = b.date.month ∧ a.date.day = b.date.day := by
    constructor
    · intro h
      rw [Date.toOrdinal_inj a.date_valid b.date_valid h]
      exact ⟨rfl, rfl, rfl⟩
    · rintro ⟨hyear, hmonth, hday⟩
      unfold Date.toOrdinal
      rw [hyear, hmonth, hday]
  have hzeros : ¬ ([0, 0] : List ℕ) < [0, 0] := lt_irrefl _
  rw [hsame, date_before_time]
  unfold isoFields
  simp only [List.cons_lt_cons_iff, hzeros, and_false, or_false]

theorem isoformatUtc_lt_iff : isoformatUtc a < isoformatUtc b ↔ a.wall < b.wall := by
  unfold isoformatUtc
  rw [String.lt_iff_toList_lt, String.toList_ofList, String.toList_ofList,
    written_lt_iff (isoFields_fits a) (isoFields_fits b), isoFields_lt_iff]

end Order

/-! ## Storing and reading back -/

section Stored

variable {otherIso : String → Except PyError DateTime} {value a b : DateTime} {text : String}

/-- A value with an offset. -/
def DateTime.IsAware (value : DateTime) : Prop := value.utcoffset.isSome

theorem fromisoformat_isoformatUtc (value : DateTime) :
    fromisoformat otherIso (isoformatUtc value) = .ok { value with
      utcoffset := some 0, offset_lt := fun offset ho => Option.some.inj ho ▸ (by decide) } := by
  unfold fromisoformat isoformatUtc
  rw [String.toList_ofList, readFields_written (isoFields_fits value)]
  exact dif_pos ⟨value.date_valid, value.year_le, value.hour_lt, value.minute_lt, value.second_lt,
    value.microsecond_lt, by decide⟩

/-- The value in UTC that is stored of one in the calendar. -/
def DateTime.utc (value : DateTime) (h : InCalendar value.instant) : DateTime :=
  utcDateTime (value.instant - minInstant).toNat (micros_lt h)

theorem DateTime.utc_wall (h : InCalendar value.instant) : (value.utc h).wall = value.instant := by
  unfold DateTime.utc
  rw [utcDateTime_wall, Int.toNat_of_nonneg (Int.sub_nonneg.mpr h.1)]
  exact add_sub_cancel _ _

theorem DateTime.utc_utcoffset (h : InCalendar value.instant) : (value.utc h).utcoffset = some 0 := by
  rw [DateTime.utc, utcDateTime]

theorem DateTime.utc_instant (h : InCalendar value.instant) : (value.utc h).instant = value.instant := by
  refine Eq.trans ?_ (utc_wall h)
  exact sub_zero _

theorem astimezoneUtc_ok (h : InCalendar value.instant) : astimezoneUtc value = .ok (value.utc h) := by
  unfold astimezoneUtc DateTime.utc
  rw [dif_pos h]

theorem bindParam_aware (haware : value.IsAware) :
    processBindParam (some value) = (astimezoneUtc value).map fun utc => some (isoformatUtc utc) := by
  have hsome : ¬ value.utcoffset = none := by
    intro hnone
    rw [DateTime.IsAware, hnone] at haware
    cases haware
  simp only [processBindParam, if_neg hsome]
  cases astimezoneUtc value with
  | error e => rfl
  | ok utc => rfl

theorem bindParam_ok (haware : value.IsAware) (h : InCalendar value.instant) :
    processBindParam (some value) = .ok (some (isoformatUtc (value.utc h))) := by
  rw [bindParam_aware haware, astimezoneUtc_ok h]
  rfl

theorem bindParam_overflow (haware : value.IsAware) (h : ¬ InCalendar value.instant) :
    processBindParam (some value) = .error (.overflowError "date value out of range") := by
  rw [bindParam_aware haware, astimezoneUtc, dif_neg h]
  rfl

/-- **What is stored is read back as the same point of time.** -/
theorem resultValue_ok (h : InCalendar value.instant) : ∃ decoded : DateTime,
    processResultValue otherIso (some (isoformatUtc (value.utc h))) = .ok (some decoded) ∧
      decoded.instant = value.instant ∧ decoded.utcoffset = some 0 := by
  obtain ⟨parsed, hparsed, hoffset, hinstant⟩ : ∃ parsed : DateTime,
      fromisoformat otherIso (isoformatUtc (value.utc h)) = .ok parsed ∧ parsed.utcoffset = some 0 ∧
        parsed.instant = value.instant := by
    refine ⟨_, fromisoformat_isoformatUtc (value.utc h), rfl, ?_⟩
    rw [← DateTime.utc_wall h]
    exact sub_zero _
  have hin : InCalendar parsed.instant := by
    rw [hinstant]
    exact h
  refine ⟨parsed.utc hin, ?_, (DateTime.utc_instant hin).trans hinstant, DateTime.utc_utcoffset hin⟩
  simp only [processResultValue, hparsed, ok_bind, hoffset, astimezoneUtc_ok hin]
  rfl

/-- Texts that are stored compare as the points of time they stand for. -/
theorem stored_lt_iff (ha : InCalendar a.instant) (hb : InCalendar b.instant) :
    isoformatUtc (a.utc ha) < isoformatUtc (b.utc hb) ↔ a.instant < b.instant := by
  rw [isoformatUtc_lt_iff, DateTime.utc_wall, DateTime.utc_wall]

/-- **`UTCDateTime` keeps time.** What can be stored is read back as the same point of time, and the texts of any two
    values compare as strings as these do; a value whose UTC time is out of the calendar is refused. -/
theorem utc_texts_keep_time (haware : a.IsAware) (hin : InCalendar a.instant) (haware' : b.IsAware)
    (hin' : InCalendar b.instant) :
    ∃ text text' decoded, processBindParam (some a) = .ok (some text) ∧ processBindParam (some b) = .ok (some text') ∧
      processResultValue otherIso (some text) = .ok (some decoded) ∧ decoded.instant = a.instant ∧
      decoded.utcoffset = some 0 ∧ (text < text' ↔ a.instant < b.instant) ∧ (text = text' ↔ a.instant = b.instant) ∧
      ∀ value : DateTime, value.IsAware → ¬ InCalendar value.instant →
        processBindParam (some value) = .error (.overflowError "date value out of range") := by
  obtain ⟨decoded, hdecoded, hinstant, hutc⟩ := @resultValue_ok otherIso a hin
  refine ⟨_, _, decoded, bindParam_ok haware hin, bindParam_ok haware' hin', hdecoded, hinstant, hutc,
    stored_lt_iff hin hin', ?_, fun value => bindParam_overflow⟩
  have hlt := stored_lt_iff hin hin'
  have hgt := stored_lt_iff hin' hin
  constructor
  · intro heq
    rw [heq] at hlt hgt
    exact le_antisymm (not_lt.mp fun h => lt_irrefl _ (hgt.mpr h)) (not_lt.mp fun h => lt_irrefl _ (hlt.mpr h))
  · intro heq
    rw [heq] at hlt hgt
    exact le_antisymm (not_lt.mp fun h => lt_irrefl _ (hgt.mp h)) (not_lt.mp fun h => lt_irrefl _ (hlt.mp h))

end Stored

/-! ## Small values -/

/-- Noon of a summer day, two hours east of Greenwich. -/
def summerNoon : DateTime where
  date := ⟨2026, 8, 19⟩
  hour := 12
  minute := 0
  second := 0
  microsecond := 0
  utcoffset := some 7200000000
  date_valid := by decide
  year_le := by decide
  hour_lt := by decide
  minute_lt := by decide
  second_lt := by decide
  microsecond_lt := by decide
  offset_lt := by decide

/-- The last microsecond before it in UTC. -/
def beforeNoon : DateTime where
  date := ⟨2026, 8, 19⟩
  hour := 9
  minute := 59
  second := 59
  microsecond := 999999
  utcoffset := some 0
  date_valid := by decide
  year_le := by decide
  hour_lt := by decide
  minute_lt := by decide
  second_lt := by decide
  microsecond_lt := by decide
  offset_lt := by decide

theorem utc_texts_keep_noon : ∃ text text' decoded, processBindParam (some summerNoon) = .ok (some text) ∧
      processBindParam (some beforeNoon) = .ok (some text') ∧
      processResultValue (fun _ => .error (.valueError "Invalid isoformat string")) (some text) = .ok (some decoded) ∧
      decoded.instant = summerNoon.instant ∧ decoded.utcoffset = some 0 ∧
      (text < text' ↔ summerNoon.instant < beforeNoon.instant) ∧
      (text = text' ↔ summerNoon.instant = beforeNoon.instant) ∧
      ∀ value : DateTime, value.IsAware → ¬ InCalendar value.instant →
        processBindParam (some value) = .error (.overflowError "date value out of range") :=
  utc_texts_keep_time rfl (by decide +kernel) rfl (by decide +kernel)

/-- The first hour of the calendar, an hour east of Greenwich. -/
def firstHour : DateTime where
  date := ⟨1, 1, 1⟩
  hour := 0
  minute := 30
  second := 0
  microsecond := 0
  utcoffset := some 3600000000
  date_valid := by decide
  year_le := by decide
  hour_lt := by decide
  minute_lt := by decide
  second_lt := by decide
  microsecond_lt := by decide
  offset_lt := by decide

/-- It is aware, and cannot be stored. -/
theorem first_hour_is_refused : firstHour.IsAware ∧
    processBindParam (some firstHour) = .error (.overflowError "date value out of range") :=
  ⟨rfl, bindParam_overflow rfl (by decide +kernel)⟩

example : processBindParam (some summerNoon) = .ok (some "2026-08-19T10:00:00.000000+00:00") := by decide +kernel

end NightScout
