import Mathlib.Tactic.IntervalCases
import NostrBbs.Lib.Calendar
import NostrBbs.Lib.Decimals
import NostrBbs.Pay.Dispatch

/-!
# Timestamps as texts

The times at which jobs expire are kept as ISO 8601 texts and compared as texts with the
time of a sweep.  Within four-digit years the texts are the calendar's dates and times, and
are ordered as the times are.
-/

namespace NostrBbs
namespace Pay

open Lib (Date digitsOf)

/-! ## The date of a day -/

/-- The civil date of a day, counted from the first of January 1970. -/
def civilDate (days : Int) : Date :=
  let z := days + 719468
  let era := z / 146097
  let doe := z - era * 146097
  let yoe := (doe - doe / 1460 + doe / 36524 - doe / 146096) / 365
  let doy := doe - (365 * yoe + yoe / 4 - yoe / 100)
  let mp := (5 * doy + 2) / 153
  let d := doy - (153 * mp + 2) / 5 + 1
  let m := if mp < 10 then mp + 3 else mp - 9
  let y := yoe + era * 400 + if m ≤ 2 then 1 else 0
  ⟨y, m, d⟩

/-- A time is written by its date and its time of day. -/
theorem iso8601FromEpoch_eq
    (epochSecs : Int) :
    iso8601FromEpoch epochSecs =
      padded 4 (civilDate (epochSecs / 86400)).year ++ "-" ++
        padded 2 (civilDate (epochSecs / 86400)).month ++ "-" ++
        padded 2 (civilDate (epochSecs / 86400)).day ++ "T" ++
        padded 2 (epochSecs % 86400 / 3600) ++ ":" ++
        padded 2 (epochSecs % 86400 % 3600 / 60) ++ ":" ++
        padded 2 (epochSecs % 86400 % 60) ++ ".000Z" := by
  rfl

/-! ## The year of an era -/

/-- The days before a year of an era, the years beginning in March. -/
def daysBeforeYear (year : Nat) : Nat :=
  365 * year + year / 4 - year / 100

/-- The days of an era without its leap days. -/
def withoutLeapDays (doe : Nat) : Nat :=
  doe - doe / 1460 + doe / 36524 - doe / 146096

theorem withoutLeapDays_mono :
    Monotone withoutLeapDays := by
  apply monotone_nat_of_le_succ
  intro doe
  unfold withoutLeapDays
  omega

/-- At the bounds of each year the count without leap days is a multiple of 365. -/
theorem withoutLeapDays_bounds :
    ∀ year < 400, 365 * year ≤ withoutLeapDays (daysBeforeYear year) ∧
      (0 < year → withoutLeapDays (daysBeforeYear year - 1) < 365 * year) := by
  decide +kernel

/-- A day of an era lies in the year that is computed for it. -/
theorem yearOfEra_bounds
    {doe year : Nat}
    (inEra : doe < 146097)
    (isYear : year = withoutLeapDays doe / 365) :
    year < 400 ∧ daysBeforeYear year ≤ doe ∧
      doe < daysBeforeYear (year + 1) + (year + 1) / 400 := by
  have below : year < 400 := by
    unfold withoutLeapDays at isYear
    omega
  refine ⟨below, ?_, ?_⟩
  · by_contra isBefore
    have positive : 0 < year := by
      by_contra isZero
      rw [show year = 0 by omega] at isBefore
      exact isBefore (Nat.zero_le doe)
    have earlier : withoutLeapDays doe ≤ withoutLeapDays (daysBeforeYear year - 1) :=
      withoutLeapDays_mono (by omega)
    have bound := (withoutLeapDays_bounds year below).2 positive
    omega
  · by_cases isLast : year + 1 < 400
    · by_contra isAfter
      have later : withoutLeapDays (daysBeforeYear (year + 1)) ≤ withoutLeapDays doe :=
        withoutLeapDays_mono (by omega)
      have bound := (withoutLeapDays_bounds (year + 1) isLast).1
      omega
    · have isYearLast : year = 399 := by omega
      rw [isYearLast]
      exact inEra.trans_le (by decide)

/-! ## Days, years and months from March on -/

/-- The days before a year that begins in March, from the March of the year 0 on. -/
def yearStart (year : Int) : Int :=
  365 * year + year / 4 - year / 100 + year / 400

/-- The days of such a year before a month, March being the month 0. -/
def monthStart (month : Int) : Int :=
  (153 * month + 2) / 5

/-- A day, by its year and month from March on and the days of the month before it. -/
structure MarchDate (days year month before : Int) : Prop where
  isDay : days + 719468 = yearStart year + monthStart month + before
  firstMonth : 0 ≤ month
  lastMonth : month ≤ 11
  firstDay : 0 ≤ before
  inMonth : monthStart month + before < monthStart (month + 1)
  inYear : yearStart year + monthStart month + before < yearStart (year + 1)

/-- The date of a day by its year and month from March on. -/
def dateOfMarch (year month before : Int) : Date :=
  if month < 10 then ⟨year, month + 3, before + 1⟩ else ⟨year + 1, month - 9, before + 1⟩

theorem yearStart_era
    (year : Nat)
    (era : Int) :
    yearStart (year + era * 400) =
      daysBeforeYear year + ((year / 400 : Nat) : Int) + era * 146097 := by
  have fours : ((year : Int) + era * 400) / 4 = (year : Int) / 4 + era * 100 := by omega
  have hundreds : ((year : Int) + era * 400) / 100 = (year : Int) / 100 + era * 4 := by omega
  have fourHundreds : ((year : Int) + era * 400) / 400 = (year : Int) / 400 + era := by omega
  unfold yearStart daysBeforeYear
  rw [fours, hundreds, fourHundreds]
  omega

/-- A year has at most 366 days. -/
theorem daysBeforeYear_succ
    (year : Nat) :
    daysBeforeYear (year + 1) + (year + 1) / 400 ≤ daysBeforeYear year + year / 400 + 366 := by
  unfold daysBeforeYear
  omega

/-- A day of a year lies in the month that is computed for it. -/
theorem month_bounds
    {doy month : Nat}
    (inYear : doy ≤ 365)
    (isMonth : month = (5 * doy + 2) / 153) :
    month ≤ 11 ∧ (153 * month + 2) / 5 ≤ doy ∧ doy < (153 * (month + 1) + 2) / 5 := by
  omega

/-- The year of an era, in signed numbers. -/
theorem yearOfEra_cast
    (doe : Nat) :
    ((doe : Int) - doe / 1460 + doe / 36524 - doe / 146096) / 365 =
      ((withoutLeapDays doe / 365 : Nat) : Int) := by
  unfold withoutLeapDays
  omega

/-- The civil date of a day is that of its year and month from March on. -/
theorem civilDate_march
    (days : Int) :
    ∃ year month before, MarchDate days year month before ∧
      civilDate days = dateOfMarch year month before := by
  obtain ⟨era, isEra⟩ : ∃ era, era = (days + 719468) / 146097 := ⟨_, rfl⟩
  obtain ⟨doe, isDoe⟩ : ∃ doe : Nat, (doe : Int) = days + 719468 - era * 146097 :=
    ⟨(days + 719468 - era * 146097).toNat, by omega⟩
  have inEra : doe < 146097 := by omega
  obtain ⟨yoe, isYoe⟩ : ∃ yoe, yoe = withoutLeapDays doe / 365 := ⟨_, rfl⟩
  obtain ⟨yoeBelow, yearBegins, yearEnds⟩ := yearOfEra_bounds inEra isYoe
  obtain ⟨doy, isDoy⟩ : ∃ doy, doe = daysBeforeYear yoe + doy := Nat.exists_eq_add_of_le yearBegins
  have inYear : doy ≤ 365 := by
    have longest := daysBeforeYear_succ yoe
    omega
  obtain ⟨mp, isMp⟩ : ∃ mp, mp = (5 * doy + 2) / 153 := ⟨_, rfl⟩
  obtain ⟨lastMonth, monthBegins, monthEnds⟩ := month_bounds inYear isMp
  have start := yearStart_era yoe era
  have nextStart := yearStart_era (yoe + 1) era
  refine ⟨yoe + era * 400, mp, doy - (153 * mp + 2) / 5, ?_, ?_⟩
  · constructor
    case isDay =>
      rw [start, monthStart]
      omega
    case firstMonth => omega
    case lastMonth => omega
    case firstDay => omega
    case inMonth =>
      unfold monthStart
      omega
    case inYear =>
      have isNext : (yoe : Int) + era * 400 + 1 = ((yoe + 1 : Nat) : Int) + era * 400 := by omega
      rw [isNext, nextStart, start, monthStart]
      omega
  · have codeYoe := yearOfEra_cast doe
    rw [← isYoe] at codeYoe
    have codeDoy : (doe : Int) - (365 * yoe + yoe / 4 - yoe / 100) = doy := by
      unfold daysBeforeYear at isDoy
      omega
    have codeMp : (5 * (doy : Int) + 2) / 153 = mp := by omega
    unfold civilDate dateOfMarch
    dsimp only
    rw [← isEra, ← isDoe, codeYoe, codeDoy, codeMp]
    split
    · rw [if_neg (by omega), Int.add_zero]
    · rw [if_pos (by omega)]

theorem yearStart_succ
    (year : Int) :
    yearStart (year + 1) = yearStart year + if Lib.isLeapYear (year + 1) then 366 else 365 := by
  have leap : Lib.isLeapYear (year + 1) ↔
      (year + 1) % 4 = 0 ∧ ((year + 1) % 100 ≠ 0 ∨ (year + 1) % 400 = 0) := by
    simp [Lib.isLeapYear]
  unfold yearStart
  by_cases isLeap : Lib.isLeapYear (year + 1)
  · rw [if_pos isLeap]
    rw [leap] at isLeap
    omega
  · rw [if_neg isLeap]
    rw [leap] at isLeap
    omega

theorem yearStart_mono
    {first second : Int}
    (later : first ≤ second) :
    yearStart first ≤ yearStart second := by
  unfold yearStart
  omega

/-- The days of a month, March being the month 0: those to the next month, and in February
to the end of the year. -/
theorem daysInMonth_march
    (year : Int)
    {month : Int}
    (firstMonth : 0 ≤ month)
    (lastMonth : month ≤ 11)
    (before : Int) :
    Lib.daysInMonth (dateOfMarch year month before).year (dateOfMarch year month before).month =
      if month < 11 then monthStart (month + 1) - monthStart month
      else yearStart (year + 1) - yearStart year - monthStart month := by
  have length := yearStart_succ year
  interval_cases month
  all_goals
    simp [dateOfMarch, Lib.daysInMonth, monthStart]
  rw [length]
  split <;> omega

/-- The year of the next day is the same one, or the next one when this one is over. -/
theorem year_of_next
    {days year month before nextYear nextMonth nextBefore : Int}
    (date : MarchDate days year month before)
    (next : MarchDate (days + 1) nextYear nextMonth nextBefore) :
    nextYear = if days + 719469 < yearStart (year + 1) then year else year + 1 := by
  obtain ⟨isDay, firstMonth, lastMonth, firstDay, inMonth, inYear⟩ := date
  obtain ⟨isNext, nextFirstMonth, nextLastMonth, nextFirstDay, nextInMonth, nextInYear⟩ := next
  have started : 0 ≤ monthStart month := by
    unfold monthStart
    omega
  have nextStarted : 0 ≤ monthStart nextMonth := by
    unfold monthStart
    omega
  have notBefore : year ≤ nextYear := by
    by_contra earlier
    have ends := yearStart_mono (show nextYear + 1 ≤ year by omega)
    omega
  have notAfter : nextYear ≤ year + 1 := by
    by_contra later
    have begins := yearStart_mono (show year + 1 + 1 ≤ nextYear by omega)
    have length := yearStart_succ (year + 1)
    split at length <;> omega
  by_cases same : nextYear = year
  · have notOver : days + 719469 < yearStart (year + 1) := by
      rw [same] at nextInYear isNext
      omega
    rw [if_pos notOver, same]
  · have isNextYear : nextYear = year + 1 := by omega
    have isOver : ¬days + 719469 < yearStart (year + 1) := by
      rw [isNextYear] at isNext
      omega
    rw [if_neg isOver, isNextYear]

/-- A day of a year is in one month only. -/
theorem month_unique
    {month before other otherBefore : Int}
    (firstDay : 0 ≤ before)
    (inMonth : monthStart month + before < monthStart (month + 1))
    (otherFirstDay : 0 ≤ otherBefore)
    (inOther : monthStart other + otherBefore < monthStart (other + 1))
    (same : monthStart month + before = monthStart other + otherBefore) :
    month = other ∧ before = otherBefore := by
  have sameMonth : month = other := by
    unfold monthStart at *
    omega
  refine ⟨sameMonth, ?_⟩
  rw [sameMonth] at same
  omega

theorem day_dateOfMarch
    (year month before : Int) :
    (dateOfMarch year month before).day = before + 1 := by
  unfold dateOfMarch
  split <;> rfl

/-- The civil date of the next day is the next date. -/
theorem civilDate_next
    (days : Int) :
    civilDate (days + 1) = (civilDate days).next := by
  obtain ⟨year, month, before, date, isDate⟩ := civilDate_march days
  obtain ⟨nextYear, nextMonth, nextBefore, next, isNextDate⟩ := civilDate_march (days + 1)
  have sameYear := year_of_next date next
  have length := daysInMonth_march year date.firstMonth date.lastMonth before
  obtain ⟨isDay, firstMonth, lastMonth, firstDay, inMonth, inYear⟩ := date
  obtain ⟨isNext, nextFirstMonth, nextLastMonth, nextFirstDay, nextInMonth, nextInYear⟩ := next
  have yearLength := yearStart_succ year
  rw [isDate, isNextDate]
  unfold Date.next
  rw [length, day_dateOfMarch]
  by_cases isFebruary : month = 11
  · rw [if_neg (show ¬month < 11 by omega)]
    by_cases isLast : before + 1 < yearStart (year + 1) - yearStart year - monthStart month
    · rw [if_pos isLast]
      rw [if_pos (show days + 719469 < yearStart (year + 1) by omega)] at sameYear
      rw [sameYear] at isNext ⊢
      have nextInMonth' : monthStart month + (before + 1) < monthStart (month + 1) := by
        rw [isFebruary] at isLast ⊢
        unfold monthStart at isLast ⊢
        split at yearLength <;> omega
      obtain ⟨rfl, rfl⟩ := month_unique (by omega) nextInMonth' nextFirstDay nextInMonth (by omega)
      unfold dateOfMarch
      rw [if_neg (show ¬month < 10 by omega), if_neg (show ¬month < 10 by omega)]
    · rw [if_neg isLast]
      rw [if_neg (show ¬days + 719469 < yearStart (year + 1) by omega)] at sameYear
      rw [sameYear] at isNext ⊢
      have isFirst : nextMonth = 0 ∧ nextBefore = 0 := by
        have begins : monthStart 0 = 0 := rfl
        have ends : monthStart (0 + 1) = 31 := rfl
        obtain ⟨isMarch, isFirst⟩ := month_unique (Int.le_refl 0) (by rw [begins, ends]; decide)
          nextFirstDay nextInMonth (by rw [begins]; omega)
        exact ⟨isMarch.symm, isFirst.symm⟩
      rw [isFirst.1, isFirst.2, isFebruary]
      rfl
  · rw [if_pos (show month < 11 by omega)]
    have monthEnds : monthStart (month + 1) ≤ 337 := by
      unfold monthStart
      omega
    have goesOn : days + 719469 < yearStart (year + 1) := by
      split at yearLength <;> omega
    rw [if_pos goesOn] at sameYear
    rw [sameYear] at isNext ⊢
    by_cases isLast : before + 1 < monthStart (month + 1) - monthStart month
    · rw [if_pos isLast]
      obtain ⟨rfl, rfl⟩ := month_unique (by omega)
        (show monthStart month + (before + 1) < monthStart (month + 1) by omega)
        nextFirstDay nextInMonth (by omega)
      unfold dateOfMarch
      split <;> rfl
    · rw [if_neg isLast]
      have isFirst : monthStart (month + 1) + 0 < monthStart (month + 1 + 1) := by
        unfold monthStart
        omega
      obtain ⟨rfl, rfl⟩ := month_unique (Int.le_refl 0) isFirst nextFirstDay nextInMonth (by omega)
      unfold dateOfMarch
      by_cases toDecember : month < 9
      · rw [if_pos (show month + 1 < 10 by omega), if_pos (show month < 10 by omega),
          if_pos (show month + 3 < 12 by omega)]
        rw [show month + 1 + 3 = month + 3 + 1 by omega]
        rfl
      · by_cases isDecember : month = 9
        · rw [isDecember]
          rfl
        · rw [if_neg (show ¬month + 1 < 10 by omega), if_neg (show ¬month < 10 by omega),
            if_pos (show month - 9 < 12 by omega)]
          rw [show month + 1 - 9 = month - 9 + 1 by omega]
          rfl

/-- Every civil date is a date of the calendar. -/
theorem civilDate_valid
    (days : Int) :
    (civilDate days).Valid := by
  obtain ⟨year, month, before, date, isDate⟩ := civilDate_march days
  have length := daysInMonth_march year date.firstMonth date.lastMonth before
  obtain ⟨isDay, firstMonth, lastMonth, firstDay, inMonth, inYear⟩ := date
  rw [isDate]
  constructor
  case firstMonth =>
    unfold dateOfMarch
    split <;> dsimp only <;> omega
  case lastMonth =>
    unfold dateOfMarch
    split <;> dsimp only <;> omega
  case firstDay =>
    rw [day_dateOfMarch]
    omega
  case lastDay =>
    rw [length, day_dateOfMarch]
    split <;> omega

/-- The date of the first day. -/
def epochDate : Date :=
  ⟨1970, 1, 1⟩

/-- The civil date of a day is the calendar's. -/
theorem civilDate_eq
    (days : Int) :
    civilDate days = epochDate.after days :=
  Lib.dates_eq_after civilDate_valid civilDate_next days

/-! ## Texts -/

/-- A time in a year of four digits. -/
def InFourDigits (epochSecs : Int) : Prop :=
  0 ≤ (epochDate.after (epochSecs / 86400)).year ∧
    (epochDate.after (epochSecs / 86400)).year ≤ 9999

theorem toList_padded
    {width : Nat}
    (positive : 0 < width)
    {value : Int}
    (notNegative : 0 ≤ value)
    (fits : value < 10 ^ width) :
    (padded width value).toList = digitsOf width value.toNat := by
  have digits : (toString value.natAbs).toList = Nat.toDigits 10 value.toNat := by
    rw [show value.natAbs = value.toNat by omega]
    exact Nat.toList_repr
  unfold padded
  dsimp only
  rw [if_neg (by omega), String.toList_append, String.toList_ofList, ← String.length_toList, digits]
  apply Lib.zeroPadded_eq positive
  rw [Int.toNat_lt notNegative]
  exact_mod_cast fits

/-- A date and a time of day as ISO 8601 spells them. -/
def spelledTime (date : Date) (hour minute second : Int) : List Char :=
  digitsOf 4 date.year.toNat ++ '-' :: (digitsOf 2 date.month.toNat ++ '-' ::
    (digitsOf 2 date.day.toNat ++ 'T' :: (digitsOf 2 hour.toNat ++ ':' ::
      (digitsOf 2 minute.toNat ++ ':' :: (digitsOf 2 second.toNat ++ ".000Z".toList)))))

theorem day_le
    {date : Date}
    (valid : date.Valid) :
    date.day ≤ 31 := by
  have lastDay := valid.lastDay
  unfold Lib.daysInMonth at lastDay
  split at lastDay
  · split at lastDay <;> omega
  · split at lastDay <;> omega

/-- Times of a day are ordered by hour, minute and second. -/
theorem timeOfDay_lt_iff
    (first second : Int) :
    first < second ↔ first / 3600 < second / 3600 ∨ first / 3600 = second / 3600 ∧
      (first % 3600 / 60 < second % 3600 / 60 ∨ first % 3600 / 60 = second % 3600 / 60 ∧
        first % 60 < second % 60) := by
  omega

/-- Within four digits a time is written as it is spelled. -/
theorem toList_iso8601FromEpoch
    {epochSecs : Int}
    (fits : InFourDigits epochSecs) :
    (iso8601FromEpoch epochSecs).toList =
      spelledTime (epochDate.after (epochSecs / 86400)) (epochSecs % 86400 / 3600)
        (epochSecs % 86400 % 3600 / 60) (epochSecs % 86400 % 60) := by
  obtain ⟨firstYear, lastYear⟩ := fits
  rw [← civilDate_eq] at firstYear lastYear
  have shortMonth := day_le (civilDate_valid (epochSecs / 86400))
  obtain ⟨firstMonth, lastMonth, firstDay, lastDay⟩ := civilDate_valid (epochSecs / 86400)
  rw [iso8601FromEpoch_eq]
  unfold spelledTime
  simp only [String.toList_append]
  rw [← civilDate_eq, toList_padded (by decide) firstYear (by omega),
    toList_padded (by decide) (by omega) (by omega),
    toList_padded (by decide) (by omega) (by omega),
    toList_padded (by decide) (by omega) (by omega),
    toList_padded (by decide) (by omega) (by omega),
    toList_padded (by decide) (by omega) (by omega)]
  simp

/-- Texts that begin with numbers of one width are ordered by these first. -/
theorem digitsOf_append_lt_iff
    {width : Nat}
    {first second : Int}
    (firstNotNegative : 0 ≤ first)
    (firstFits : first < 10 ^ width)
    (secondNotNegative : 0 ≤ second)
    (secondFits : second < 10 ^ width)
    (firstRest secondRest : List Char) :
    digitsOf width first.toNat ++ firstRest < digitsOf width second.toNat ++ secondRest ↔
      first < second ∨ first = second ∧ firstRest < secondRest := by
  have firstWidth : first.toNat < 10 ^ width := by
    rw [Int.toNat_lt firstNotNegative]
    exact_mod_cast firstFits
  have secondWidth : second.toNat < 10 ^ width := by
    rw [Int.toNat_lt secondNotNegative]
    exact_mod_cast secondFits
  rw [Lib.append_lt_append_iff (by simp), Lib.digitsOf_lt_iff firstWidth secondWidth,
    Lib.digitsOf_inj firstWidth secondWidth]
  have sameOrder : first.toNat < second.toNat ↔ first < second := by omega
  have sameNumber : first.toNat = second.toNat ↔ first = second := by omega
  rw [sameOrder, sameNumber]

/-- The texts of times within four digits are ordered as the times. -/
theorem iso8601FromEpoch_lt_iff
    {first second : Int}
    (firstFits : InFourDigits first)
    (secondFits : InFourDigits second) :
    iso8601FromEpoch first < iso8601FromEpoch second ↔ first < second := by
  have firstValid := civilDate_valid (first / 86400)
  have secondValid := civilDate_valid (second / 86400)
  have sameSeparator : ∀ (separator : Char) (rest other : List Char),
      separator :: rest < separator :: other ↔ rest < other := by
    intro separator rest other
    rw [List.cons_lt_cons_iff]
    simp
  have dates : (civilDate (first / 86400)).Before (civilDate (second / 86400)) ↔
      first / 86400 < second / 86400 := Lib.before_iff_lt civilDate_next _ _
  have sameDates : civilDate (first / 86400) = civilDate (second / 86400) ↔
      first / 86400 = second / 86400 :=
    (Lib.dates_injective civilDate_next).eq_iff
  rw [String.lt_iff, toList_iso8601FromEpoch firstFits, toList_iso8601FromEpoch secondFits,
    ← civilDate_eq, ← civilDate_eq]
  obtain ⟨firstYear, firstLastYear⟩ := firstFits
  obtain ⟨secondYear, secondLastYear⟩ := secondFits
  rw [← civilDate_eq] at firstYear firstLastYear secondYear secondLastYear
  have firstDay := day_le firstValid
  have secondDay := day_le secondValid
  obtain ⟨firstMonth, firstLastMonth, firstFirstDay, -⟩ := firstValid
  obtain ⟨secondMonth, secondLastMonth, secondFirstDay, -⟩ := secondValid
  rw [Date.ext_iff] at sameDates
  unfold Date.Before at dates
  have notBeforeItself : ¬".000Z".toList < ".000Z".toList := List.lt_irrefl _
  unfold spelledTime
  rw [digitsOf_append_lt_iff firstYear (by omega) secondYear (by omega), sameSeparator,
    digitsOf_append_lt_iff (by omega) (by omega) (by omega) (by omega), sameSeparator,
    digitsOf_append_lt_iff (by omega) (by omega) (by omega) (by omega), sameSeparator,
    digitsOf_append_lt_iff (by omega) (by omega) (by omega) (by omega), sameSeparator,
    digitsOf_append_lt_iff (by omega) (by omega) (by omega) (by omega), sameSeparator,
    digitsOf_append_lt_iff (by omega) (by omega) (by omega) (by omega)]
  have timeOfDay := timeOfDay_lt_iff (first % 86400) (second % 86400)
  have byDay : first < second ↔ first / 86400 < second / 86400 ∨
      first / 86400 = second / 86400 ∧ first % 86400 < second % 86400 := by omega
  refine Iff.trans ?_ byDay.symm
  refine Iff.trans ?_ (or_congr dates (and_congr sameDates timeOfDay.symm))
  simp only [notBeforeItself, and_false, or_false, and_or_left, or_assoc, and_assoc]

/-! ## Expired jobs -/

/-- A job that expires at a time is selected at another when it is still open and its time
is over. -/
theorem mem_expired_iff
    {ledger : Ledger}
    {job : Job}
    (held : job ∈ ledger.database.jobs.rows)
    {expiry now : Int}
    (expiryFits : InFourDigits expiry)
    (nowFits : InFourDigits now)
    (expires : job.expiresAt = some (iso8601FromEpoch expiry)) :
    job.jobId ∈ ledger.expired (iso8601FromEpoch now) ↔
      (job.status = .held ∨ job.status = .running) ∧ expiry < now := by
  have textOrder := iso8601FromEpoch_lt_iff expiryFits nowFits
  unfold Ledger.expired
  rw [List.mem_map]
  constructor
  · rintro ⟨row, selected, sameId⟩
    rw [List.mem_filter] at selected
    obtain ⟨rowHeld, selected⟩ := selected
    obtain rfl := ledger.database.jobs.eq_of_key rowHeld held sameId
    simp only [expires, Option.any_some, Bool.and_eq_true, Bool.or_eq_true, beq_iff_eq,
      decide_eq_true_eq, textOrder] at selected
    exact selected
  · intro isOver
    refine ⟨job, List.mem_filter.mpr ⟨held, ?_⟩, rfl⟩
    simp only [expires, Option.any_some, Bool.and_eq_true, Bool.or_eq_true, beq_iff_eq,
      decide_eq_true_eq, textOrder]
    exact isOver

/-- Within four-digit years the text of a time is its date and time of day in the calendar,
the texts are ordered as the times are, and a sweep selects the open jobs whose time is
over. -/
theorem iso8601FromEpoch_orders
    {first second : Int}
    (firstFits : InFourDigits first)
    (secondFits : InFourDigits second) :
    (iso8601FromEpoch first < iso8601FromEpoch second ↔ first < second) ∧
      (∃ days hour minute secs : Int,
        (0 ≤ hour ∧ hour < 24) ∧ (0 ≤ minute ∧ minute < 60) ∧ (0 ≤ secs ∧ secs < 60) ∧
        first = days * 86400 + hour * 3600 + minute * 60 + secs ∧
        (iso8601FromEpoch first).toList =
          spelledTime (epochDate.after days) hour minute secs) ∧
      ∀ (ledger : Ledger) (job : Job), job ∈ ledger.database.jobs.rows →
        job.expiresAt = some (iso8601FromEpoch first) →
          (job.jobId ∈ ledger.expired (iso8601FromEpoch second) ↔
            (job.status = .held ∨ job.status = .running) ∧ first < second) := by
  refine ⟨iso8601FromEpoch_lt_iff firstFits secondFits, ?_, ?_⟩
  · refine ⟨first / 86400, first % 86400 / 3600, first % 86400 % 3600 / 60, first % 86400 % 60,
      by omega, by omega, by omega, by omega, ?_⟩
    exact toList_iso8601FromEpoch firstFits
  · intro ledger job held expires
    exact mem_expired_iff held firstFits secondFits expires

theorem iso8601FromEpoch_orders_leap_day :
    (iso8601FromEpoch 951868799 < iso8601FromEpoch 951868800 ↔ (951868799 : Int) < 951868800) ∧
      iso8601FromEpoch 951868799 = "2000-02-29T23:59:59.000Z" := by
  have firstFits : InFourDigits 951868799 := by
    unfold InFourDigits
    rw [← civilDate_eq]
    decide
  have secondFits : InFourDigits 951868800 := by
    unfold InFourDigits
    rw [← civilDate_eq]
    decide
  exact ⟨(iso8601FromEpoch_orders firstFits secondFits).1, by decide +kernel⟩

end Pay
end NostrBbs
