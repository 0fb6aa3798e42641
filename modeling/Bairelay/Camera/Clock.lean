import Bairelay.Rtsp.Request

/-!
# The clock of a camera

Setting and reading the clock (`time.rs`). What is written is the local time with its offset, or,
when the camera itself adds an hour to what it displays, the time of UTC with the offset that
remains; what is read is always taken as local time. Dates, times of day and offsets are those of
the `time` crate, a parameter (`TimeCrate`) with what its documentation says of it
(`TimeCrate.Lawful`).

`clock_agrees_iff`: reading gives back the instant that was set exactly if the camera adds nothing,
or as much as the whole offset.
-/

namespace Bairelay

/-- The days of the week, of the crate. -/
inductive Weekday where
  | monday
  | tuesday
  | wednesday
  | thursday
  | friday
  | saturday
  | sunday
  deriving DecidableEq, Repr

/-- A month of the year. -/
abbrev Month := { month : UInt8 // 1 ≤ month ∧ month ≤ 12 }

/-- `Month::try_from` -/
def month? (month : UInt8) : Option Month :=
  if h : 1 ≤ month ∧ month ≤ 12 then some ⟨month, h⟩ else none

/-- The dates and times of day of the `time` crate. -/
structure TimeCrate where
  Date : Type
  Time : Type
  /-- `Date::from_calendar_date` -/
  fromCalendarDate : ℤ → Month → UInt8 → Option Date
  year : Date → ℤ
  month : Date → Month
  day : Date → UInt8
  weekday : Date → Weekday
  /-- `Month::length` -/
  monthLength : ℤ → Month → UInt8
  /-- `Date::to_julian_day` -/
  toJulianDay : Date → ℤ
  /-- `Time::from_hms` -/
  fromHms : UInt8 → UInt8 → UInt8 → Option Time
  hour : Time → UInt8
  minute : Time → UInt8
  second : Time → UInt8
  /-- `UtcOffset::from_whole_seconds` accepts this. -/
  isOffset : ℤ → Bool
  /-- `OffsetDateTime::to_offset` with the offset of UTC; `none` where it panics. -/
  toUtc : Date → Time → ℤ → Option (Date × Time)

namespace TimeCrate

variable (tc : TimeCrate)

/-- The seconds up to a time of a day. -/
def seconds (date : tc.Date) (time : tc.Time) : ℤ :=
  tc.toJulianDay date * 86400 + (tc.hour time).toNat * 3600 + (tc.minute time).toNat * 60 +
    (tc.second time).toNat

/-- A date is made of its year, its month and its day, a time of its hour, minute and second; an
    offset is less than 26 hours, and may be zero; the time of UTC is the same instant. -/
structure Lawful : Prop where
  fromCalendarDate_year : ∀ date,
    tc.fromCalendarDate (tc.year date) (tc.month date) (tc.day date) = some date
  day_ne_zero : ∀ date, tc.day date ≠ 0
  fromHms_hour : ∀ time, tc.fromHms (tc.hour time) (tc.minute time) (tc.second time) = some time
  isOffset_zero : tc.isOffset 0 = true
  isOffset_lt : ∀ offset, tc.isOffset offset = true → -93600 < offset ∧ offset < 93600
  toUtc_seconds : ∀ date time offset date' time', tc.toUtc date time offset = some (date', time') →
    tc.seconds date' time' = tc.seconds date time - offset

/-- A local time in whole seconds with its offset from UTC. -/
structure OffsetDateTime where
  date : tc.Date
  time : tc.Time
  offset : ℤ
  isOffset : tc.isOffset offset = true

variable {tc}

/-- The seconds of UTC. -/
def OffsetDateTime.instant (timestamp : tc.OffsetDateTime) : ℤ :=
  tc.seconds timestamp.date timestamp.time - timestamp.offset

end TimeCrate

/-- Cut to the range of `i32`. -/
def saturateI32 (n : ℤ) : ℤ := max (-2 ^ 31) (min n (2 ^ 31 - 1))

/-- The negation of an `i32`, which overflows for the least one. -/
def negI32 (n : ℤ) : Option ℤ := if n = -2 ^ 31 then none else some (-n)

/-! ## Daylight saving time -/

/-- What a camera adds to the time it displays, and when. -/
structure Dst where
  enable : Option UInt32 := none
  offset : Option ℤ := none
  startMonth : Option UInt8 := none
  startWeekIndex : Option UInt8 := none
  startWeekday : Option Bytes := none
  startHour : Option UInt8 := none
  startMinute : Option UInt8 := none
  startSecond : Option UInt8 := none
  endMonth : Option UInt8 := none
  endWeekIndex : Option UInt8 := none
  endWeekday : Option Bytes := none
  endHour : Option UInt8 := none
  endMinute : Option UInt8 := none
  endSecond : Option UInt8 := none
  deriving DecidableEq, Repr

/-- The English names of the days of the week, in full and in short. -/
def parseWeekday (s : Bytes) : Option Weekday :=
  let name := (trim s).map toAsciiLowercase
  if name = [0x6d, 0x6f, 0x6e, 0x64, 0x61, 0x79] ∨ name = [0x6d, 0x6f, 0x6e] then some .monday
  else if name = [0x74, 0x75, 0x65, 0x73, 0x64, 0x61, 0x79] ∨ name = [0x74, 0x75, 0x65] then
    some .tuesday
  else if name = [0x77, 0x65, 0x64, 0x6e, 0x65, 0x73, 0x64, 0x61, 0x79] ∨
      name = [0x77, 0x65, 0x64] then
    some .wednesday
  else if name = [0x74, 0x68, 0x75, 0x72, 0x73, 0x64, 0x61, 0x79] ∨ name = [0x74, 0x68, 0x75] then
    some .thursday
  else if name = [0x66, 0x72, 0x69, 0x64, 0x61, 0x79] ∨ name = [0x66, 0x72, 0x69] then some .friday
  else if name = [0x73, 0x61, 0x74, 0x75, 0x72, 0x64, 0x61, 0x79] ∨ name = [0x73, 0x61, 0x74] then
    some .saturday
  else if name = [0x73, 0x75, 0x6e, 0x64, 0x61, 0x79] ∨ name = [0x73, 0x75, 0x6e] then some .sunday
  else none

section

variable (tc : TimeCrate)

/-- The date, if it falls on this day of the week. -/
def dateOn (year : ℤ) (month : Month) (weekday : Weekday) (day : UInt8) : Option tc.Date :=
  (tc.fromCalendarDate year month day).filter fun date => tc.weekday date = weekday

/-- The last day of the month that falls on this day of the week, or the first one and some weeks
    later. -/
def nthWeekdayOfMonth (year : ℤ) (month : Month) (weekIndex : UInt8) (weekday : Weekday) :
    Option tc.Date :=
  if weekIndex = 0 ∨ 5 < weekIndex then none
  else
    let lastDay := tc.monthLength year month
    if weekIndex = 5 then
      ((List.range' 1 lastDay.toNat).reverse.findSome? fun d =>
        dateOn tc year month weekday (UInt8.ofNat d))
    else
      match (List.range' 1 7).find? fun d =>
          (dateOn tc year month weekday (UInt8.ofNat d)).isSome with
      | none => none
      | some d =>
        let dayOfTarget := UInt8.ofNat d + (weekIndex - 1) * 7
        if lastDay < dayOfTarget then none else tc.fromCalendarDate year month dayOfTarget

/-- An entry of the schedule, in this year. -/
def dstTransitionForYear (year : ℤ) (month weekIndex : Option UInt8) (weekday : Option Bytes)
    (hour minute second : Option UInt8) : Option (tc.Date × tc.Time) := do
  let month ← month >>= month?
  let weekIndex ← weekIndex
  let weekday ← weekday >>= parseWeekday
  let date ← nthWeekdayOfMonth tc year month weekIndex weekday
  let time ← tc.fromHms (hour.getD 0) (minute.getD 0) (second.getD 0)
  some (date, time)

/-- The seconds that the camera adds at a local time. -/
def dstOffsetSeconds (dst : Dst) (date : tc.Date) (time : tc.Time) : ℤ :=
  if dst.enable ≠ some 1 then 0
  else if dst.offset.getD 0 = 0 then 0
  else
    match dstTransitionForYear tc (tc.year date) dst.startMonth dst.startWeekIndex dst.startWeekday
        dst.startHour dst.startMinute dst.startSecond,
      dstTransitionForYear tc (tc.year date) dst.endMonth dst.endWeekIndex dst.endWeekday
        dst.endHour dst.endMinute dst.endSecond with
    | some start, some stop =>
      let now := tc.seconds date time
      let startSeconds := tc.seconds start.1 start.2
      let endSeconds := tc.seconds stop.1 stop.2
      let inWindow :=
        if startSeconds < endSeconds then startSeconds ≤ now ∧ now < endSeconds
        else startSeconds ≤ now ∨ now < endSeconds
      if inWindow then saturateI32 (dst.offset.getD 0 * 3600) else 0
    | _, _ => 0

end

/-! ## Setting and reading -/

/-- The general settings of a camera, the clock among them. -/
structure SystemGeneral where
  version : String := ""
  /-- The seconds to add to get to UTC. -/
  timeZone : Option ℤ := none
  year : Option ℤ := none
  month : Option UInt8 := none
  day : Option UInt8 := none
  hour : Option UInt8 := none
  minute : Option UInt8 := none
  second : Option UInt8 := none
  osdFormat : Option String := none
  timeFormat : Option UInt8 := none
  language : Option String := none
  deviceName : Option String := none
  deriving DecidableEq, Repr

/-- `xml_ver` -/
def xmlVer : String := "1.1"

section

variable (tc : TimeCrate)

/-- A date and a time of day, with this time zone, in the settings. -/
def SystemGeneral.withTime (general : SystemGeneral) (timeZone : ℤ) (date : tc.Date)
    (time : tc.Time) : SystemGeneral :=
  { general with
    version := xmlVer
    timeZone := some timeZone
    year := some (tc.year date)
    month := some (tc.month date).1
    day := some (tc.day date)
    hour := some (tc.hour time)
    minute := some (tc.minute time)
    second := some (tc.second time) }

/-- What the camera is known to add; nothing, if it did not answer. -/
def dstSeconds (dst : Option Dst) (timestamp : tc.OffsetDateTime) : ℤ :=
  match dst with
  | some dst => dstOffsetSeconds tc dst timestamp.date timestamp.time
  | none => 0

/-- The settings that are written, or `none` for a panic. -/
def setTime (dst : Option Dst) (timestamp : tc.OffsetDateTime) (general : SystemGeneral) :
    Option SystemGeneral :=
  if dstSeconds tc dst timestamp ≠ 0 then do
    let (date, time) ← tc.toUtc timestamp.date timestamp.time timestamp.offset
    let baseOffsetSeconds := saturateI32 (timestamp.offset - dstSeconds tc dst timestamp)
    let timeZone ← negI32 baseOffsetSeconds
    some (general.withTime tc timeZone date time)
  else do
    let timeZone ← negI32 timestamp.offset
    some (general.withTime tc timeZone timestamp.date timestamp.time)

/-- The moment that the fields give, if they give one. The camera's zone is the negated offset. -/
def tryBuildTimestamp (timezone year : ℤ) (month day hour minute second : UInt8) :
    Option tc.OffsetDateTime := do
  let month ← month? month
  let date ← (if day = 0 then none else tc.fromCalendarDate year month day)
  let time ← tc.fromHms hour minute second
  let offset ← negI32 timezone
  if h : tc.isOffset offset = true then some ⟨date, time, offset, h⟩ else none

/-- The 1st of January 2019. -/
def boundary : ℤ := 2458485

/-- The clock, unless it was never set. -/
def getTime (general : SystemGeneral) : Except String (Option tc.OffsetDateTime) :=
  match general.timeZone, general.year, general.month, general.day, general.hour, general.minute,
    general.second with
  | some timeZone, some year, some month, some day, some hour, some minute, some second =>
    match tryBuildTimestamp tc timeZone year month day hour minute second with
    | none => .error "Could not parse date"
    | some datetime =>
      if tc.toJulianDay datetime.date < boundary then .ok none else .ok (some datetime)
  | _, _, _, _, _, _, _ => .error "SystemGeneral reply missing one or more time fields"

end

/-! ## Round trips -/

section

variable {tc : TimeCrate}

/-- Saturating leaves zero alone, and nothing else becomes it. -/
theorem saturateI32_eq_zero_iff {n : ℤ} : saturateI32 n = 0 ↔ n = 0 := by
  rw [saturateI32]
  omega

/-- The number of a month is read as the month. -/
theorem month?_val (month : Month) : month? month.1 = some month := dif_pos month.2

/-- What the time in the settings is read as. -/
def SystemGeneral.timestamp (tc : TimeCrate) (general : SystemGeneral) :
    Option tc.OffsetDateTime := do
  let timeZone ← general.timeZone
  let year ← general.year
  let month ← general.month
  let day ← general.day
  let hour ← general.hour
  let minute ← general.minute
  let second ← general.second
  tryBuildTimestamp tc timeZone year month day hour minute second

/-- A time in the settings is read as that time, at the offset that was written. -/
theorem timestamp_withTime (hlaw : tc.Lawful) (general : SystemGeneral) {timeZone offset : ℤ}
    (hneg : negI32 timeZone = some offset) (date : tc.Date) (time : tc.Time) :
    (general.withTime tc timeZone date time).timestamp tc =
      if h : tc.isOffset offset = true then some ⟨date, time, offset, h⟩ else none := by
  change tryBuildTimestamp tc timeZone (tc.year date) (tc.month date).1 (tc.day date)
    (tc.hour time) (tc.minute time) (tc.second time) = _
  simp only [tryBuildTimestamp, month?_val, hneg, Option.bind_eq_bind, Option.bind_some,
    if_neg (hlaw.day_ne_zero date), hlaw.fromCalendarDate_year, hlaw.fromHms_hour]

/-- The fields that are written are read as the instant that was set. -/
def Agrees (dst : Option Dst) (timestamp : tc.OffsetDateTime) : Prop :=
  ∀ general, ∃ written decoded, setTime tc dst timestamp general = some written ∧
    written.timestamp tc = some decoded ∧ decoded.instant = timestamp.instant

/-- Negating twice. -/
theorem negI32_neg {n m : ℤ} (h : negI32 n = some m) (hle : n ≤ 2 ^ 31 - 1) :
    m = -n ∧ negI32 m = some n := by
  rw [negI32] at h
  split at h
  · exact nomatch h
  · obtain rfl := Option.some.inj h
    refine ⟨rfl, ?_⟩
    rw [negI32, if_neg (by omega), neg_neg]

/-- Without an offset of the camera, the local time is written with its offset, and read. -/
theorem setTime_of_zero (hlaw : tc.Lawful) {dst : Option Dst} {timestamp : tc.OffsetDateTime}
    (hdst : dstSeconds tc dst timestamp = 0) (general : SystemGeneral) :
    ∃ written, setTime tc dst timestamp general = some written ∧
      written = general.withTime tc (-timestamp.offset) timestamp.date timestamp.time ∧
      written.timestamp tc = some timestamp := by
  obtain ⟨hlow, hhigh⟩ := hlaw.isOffset_lt _ timestamp.isOffset
  have hneg : negI32 timestamp.offset = some (-timestamp.offset) := if_neg (by omega)
  obtain ⟨-, hback⟩ := negI32_neg hneg (by omega)
  refine ⟨general.withTime tc (-timestamp.offset) timestamp.date timestamp.time, ?_, rfl, ?_⟩
  · rw [setTime, if_neg (not_not.2 hdst), hneg]
    rfl
  · rw [timestamp_withTime hlaw general hback, dif_pos timestamp.isOffset]

/-- Outside of daylight saving time the camera's clock and the host's agree. -/
theorem agrees_of_zero (hlaw : tc.Lawful) {dst : Option Dst} {timestamp : tc.OffsetDateTime}
    (hdst : dstSeconds tc dst timestamp = 0) : Agrees dst timestamp := by
  intro general
  obtain ⟨written, hwritten, -, hread⟩ := setTime_of_zero hlaw hdst general
  exact ⟨written, timestamp, hwritten, hread, rfl⟩

/-- From 2019 on, the clock that was set is what `get_time` gives. -/
theorem getTime_setTime (hlaw : tc.Lawful) {dst : Option Dst} {timestamp : tc.OffsetDateTime}
    (hdst : dstSeconds tc dst timestamp = 0) (hdate : boundary ≤ tc.toJulianDay timestamp.date)
    (general : SystemGeneral) :
    (setTime tc dst timestamp general).map (getTime tc) = some (.ok (some timestamp)) := by
  obtain ⟨written, hwritten, rfl, hread⟩ := setTime_of_zero hlaw hdst general
  have hbuild : tryBuildTimestamp tc (-timestamp.offset) (tc.year timestamp.date)
      (tc.month timestamp.date).1 (tc.day timestamp.date) (tc.hour timestamp.time)
      (tc.minute timestamp.time) (tc.second timestamp.time) = some timestamp := hread
  rw [hwritten, Option.map_some, getTime]
  dsimp only [SystemGeneral.withTime]
  rw [hbuild]
  dsimp only
  rw [if_neg (Int.not_lt.2 hdate)]

/-- With an offset of the camera, the time of UTC is read at what remains of the offset. -/
theorem agrees_of_ne_zero (hlaw : tc.Lawful) {dst : Option Dst} {timestamp : tc.OffsetDateTime}
    (hdst : dstSeconds tc dst timestamp ≠ 0) : Agrees dst timestamp ↔
      timestamp.offset = dstSeconds tc dst timestamp ∧
        (tc.toUtc timestamp.date timestamp.time timestamp.offset).isSome := by
  have hset : ∀ general, setTime tc dst timestamp general =
      (tc.toUtc timestamp.date timestamp.time timestamp.offset >>= fun utc =>
        negI32 (saturateI32 (timestamp.offset - dstSeconds tc dst timestamp)) >>= fun timeZone =>
          some (general.withTime tc timeZone utc.1 utc.2)) := fun general => if_pos hdst
  have hle : saturateI32 (timestamp.offset - dstSeconds tc dst timestamp) ≤ 2 ^ 31 - 1 := by
    rw [saturateI32]
    omega
  constructor
  · intro h
    obtain ⟨written, decoded, hwritten, hdecoded, hinstant⟩ := h {}
    rw [hset] at hwritten
    obtain ⟨⟨date, time⟩, hutc, hwritten⟩ := Option.bind_eq_some_iff.1 hwritten
    obtain ⟨timeZone, hneg, hwritten⟩ := Option.bind_eq_some_iff.1 hwritten
    obtain rfl := Option.some.inj hwritten
    obtain ⟨-, hback⟩ := negI32_neg hneg hle
    rw [timestamp_withTime hlaw _ hback] at hdecoded
    split at hdecoded
    · obtain rfl := Option.some.inj hdecoded
      have hseconds := hlaw.toUtc_seconds _ _ _ _ _ hutc
      have hzero : saturateI32 (timestamp.offset - dstSeconds tc dst timestamp) = 0 := by
        simp only [TimeCrate.OffsetDateTime.instant] at hinstant
        omega
      refine ⟨?_, by rw [hutc]; rfl⟩
      have hsub := saturateI32_eq_zero_iff.1 hzero
      omega
    · exact nomatch hdecoded
  · rintro ⟨hoffset, hsome⟩ general
    obtain ⟨⟨date, time⟩, hutc⟩ := Option.isSome_iff_exists.1 hsome
    have hneg : negI32 0 = some 0 := by decide
    refine ⟨general.withTime tc 0 date time, ⟨date, time, 0, hlaw.isOffset_zero⟩, ?_, ?_, ?_⟩
    · have hbase : saturateI32 (timestamp.offset - dstSeconds tc dst timestamp) = 0 :=
        saturateI32_eq_zero_iff.2 (by omega)
      rw [hset, hutc, hbase, hneg]
      rfl
    · rw [timestamp_withTime hlaw general hneg, dif_pos hlaw.isOffset_zero]
    · have hseconds := hlaw.toUtc_seconds _ _ _ _ _ hutc
      simp only [TimeCrate.OffsetDateTime.instant]
      omega

/-- The clock reads the instant that was set exactly if the camera adds nothing to the time, or the
    whole offset is what it adds, and the time of UTC has a date. -/
theorem clock_agrees_iff (hlaw : tc.Lawful) (dst : Option Dst) (timestamp : tc.OffsetDateTime) :
    Agrees dst timestamp ↔ dstSeconds tc dst timestamp = 0 ∨
      timestamp.offset = dstSeconds tc dst timestamp ∧
        (tc.toUtc timestamp.date timestamp.time timestamp.offset).isSome := by
  by_cases hdst : dstSeconds tc dst timestamp = 0
  · exact iff_of_true (agrees_of_zero hlaw hdst) (.inl hdst)
  · rw [agrees_of_ne_zero hlaw hdst, or_iff_right hdst]

end

/-! ## The Gregorian calendar -/

namespace Gregorian

/-- The days of a month; February has one more in a leap year. -/
def monthLength (year : ℤ) (month : Month) : UInt8 :=
  if month.1 = 2 then
    if year % 4 = 0 ∧ (year % 100 ≠ 0 ∨ year % 400 = 0) then 29 else 28
  else if month.1 = 4 ∨ month.1 = 6 ∨ month.1 = 9 ∨ month.1 = 11 then 30 else 31

/-- A day of the calendar, in the range of the crate. -/
structure Date where
  year : ℤ
  month : Month
  day : UInt8
  valid : (-9999 ≤ year ∧ year ≤ 9999) ∧ 1 ≤ day ∧ day ≤ monthLength year month

/-- A time of day, without leap seconds. -/
structure Time where
  hour : UInt8
  minute : UInt8
  second : UInt8
  valid : hour < 24 ∧ minute < 60 ∧ second < 60

/-- A date, if it is one. -/
def date? (year : ℤ) (month : Month) (day : UInt8) : Option Date :=
  if h : (-9999 ≤ year ∧ year ≤ 9999) ∧ 1 ≤ day ∧ day ≤ monthLength year month then
    some ⟨year, month, day, h⟩
  else none

/-- A time, if it is one. -/
def time? (hour minute second : UInt8) : Option Time :=
  if h : hour < 24 ∧ minute < 60 ∧ second < 60 then some ⟨hour, minute, second, h⟩ else none

/-- The day, counted from March of the year -4800. -/
def julianDay (date : Date) : ℤ :=
  let a := (14 - (date.month.1.toNat : ℤ)) / 12
  let y := date.year + 4800 - a
  let m := date.month.1.toNat + 12 * a - 3
  date.day.toNat + (153 * m + 2) / 5 + 365 * y + y / 4 - y / 100 + y / 400 - 32045

/-- The date of a day. -/
def ofJulianDay (n : ℤ) : Option Date :=
  let f := n + 1401 + (4 * n + 274277) / 146097 * 3 / 4 - 38
  let e := 4 * f + 3
  let h := 5 * (e % 1461 / 4) + 2
  let month := (h / 153 + 2) % 12 + 1
  (month? (UInt8.ofNat month.toNat)).bind fun month' =>
    date? (e / 1461 - 4716 + (14 - month) / 12) month' (UInt8.ofNat (h % 153 / 5 + 1).toNat)

/-- Julian days begin the week with a Monday. -/
def weekday (date : Date) : Weekday :=
  [.monday, .tuesday, .wednesday, .thursday, .friday, .saturday].getD (julianDay date % 7).toNat
    .sunday

/-- Seconds from Julian day zero, as the clock of that place shows them. -/
def seconds (date : Date) (time : Time) : ℤ :=
  julianDay date * 86400 + time.hour.toNat * 3600 + time.minute.toNat * 60 + time.second.toNat

/-- The same moment at offset zero. -/
def toUtc (date : Date) (time : Time) (offset : ℤ) : Option (Date × Time) := do
  let utc := seconds date time - offset
  let secondOfDay := (utc % 86400).toNat
  let date' ← ofJulianDay (utc / 86400)
  let time' ← time? (UInt8.ofNat (secondOfDay / 3600)) (UInt8.ofNat (secondOfDay / 60 % 60))
    (UInt8.ofNat (secondOfDay % 60))
  if seconds date' time' = utc then some (date', time') else none

end Gregorian

/-- The calendar the crate is about. -/
def gregorian : TimeCrate where
  Date := Gregorian.Date
  Time := Gregorian.Time
  fromCalendarDate := Gregorian.date?
  year := Gregorian.Date.year
  month := Gregorian.Date.month
  day := Gregorian.Date.day
  weekday := Gregorian.weekday
  monthLength := Gregorian.monthLength
  toJulianDay := Gregorian.julianDay
  fromHms := Gregorian.time?
  hour := Gregorian.Time.hour
  minute := Gregorian.Time.minute
  second := Gregorian.Time.second
  isOffset offset := -93600 < offset && offset < 93600
  toUtc := Gregorian.toUtc

/-- The Gregorian calendar does what the documentation of the crate says. -/
theorem gregorian_lawful : gregorian.Lawful where
  fromCalendarDate_year date := dif_pos date.valid
  day_ne_zero date h := by
    have hday := date.valid.2.1
    change date.day = 0 at h
    rw [h] at hday
    exact absurd hday (by decide)
  fromHms_hour time := dif_pos time.valid
  isOffset_zero := rfl
  isOffset_lt offset h := by
    simpa [gregorian] using h
  toUtc_seconds date time offset date' time' h := by
    change Gregorian.toUtc date time offset = _ at h
    obtain ⟨date'', -, h⟩ := Option.bind_eq_some_iff.1 h
    obtain ⟨time'', -, h⟩ := Option.bind_eq_some_iff.1 h
    split at h
    · next hseconds =>
      obtain ⟨rfl, rfl⟩ := Prod.mk.inj (Option.some.inj h)
      exact hseconds
    · exact nomatch h

/-- From the last Sunday of March, 2:00, to the last Sunday of October, 3:00, one hour. -/
def euDst : Dst where
  enable := some 1
  offset := some 1
  startMonth := some 3
  startWeekIndex := some 5
  startWeekday := some [0x53, 0x75, 0x6e, 0x64, 0x61, 0x79]
  startHour := some 2
  endMonth := some 10
  endWeekIndex := some 5
  endWeekday := some [0x53, 0x75, 0x6e, 0x64, 0x61, 0x79]
  endHour := some 3

/-- The 3rd of May 2026, 17:30:45. -/
def summer (offset : ℤ) (h : gregorian.isOffset offset = true) : gregorian.OffsetDateTime where
  date := (⟨2026, ⟨5, by decide⟩, 3, by decide⟩ : Gregorian.Date)
  time := (⟨17, 30, 45, by decide⟩ : Gregorian.Time)
  offset
  isOffset := h

theorem isOffset_summer : gregorian.isOffset 3600 = true ∧ gregorian.isOffset 7200 = true :=
  ⟨rfl, rfl⟩

theorem dstSeconds_summer :
    dstSeconds gregorian (some euDst) (summer 3600 isOffset_summer.1) = 3600 := by
  decide +kernel

/-- At an offset of one hour, of which the camera adds everything. -/
theorem summer_agrees : Agrees (some euDst) (summer 3600 isOffset_summer.1) :=
  (clock_agrees_iff gregorian_lawful _ _).2 (.inr ⟨dstSeconds_summer.symm, by decide +kernel⟩)

/-- At an offset of two hours, 15:30:45 is written with an hour's offset. -/
theorem summer_not_agrees : ¬ Agrees (some euDst) (summer 7200 isOffset_summer.2) := by
  intro h
  have hdst : dstSeconds gregorian (some euDst) (summer 7200 isOffset_summer.2) = 3600 :=
    dstSeconds_summer
  have hne : dstSeconds gregorian (some euDst) (summer 7200 isOffset_summer.2) ≠ 0 := by
    rw [hdst]
    decide
  have hoffset := ((agrees_of_ne_zero gregorian_lawful hne).1 h).1
  rw [hdst] at hoffset
  exact absurd hoffset (show ¬ (7200 : ℤ) = 3600 by decide)

end Bairelay
