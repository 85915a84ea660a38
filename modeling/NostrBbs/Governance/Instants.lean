import NostrBbs.Governance.Ingress
import NostrBbs.Lib.Decimals
import NostrBbs.Pay.Timestamps

/-!
# The expiry of a proposal

A proposal's expiry is a date, a time of day and an offset.  The relay reads the bytes of
its text by their places, with a slice that may fall within a character and a number parser
that takes a sign for a digit of the offset.
-/

namespace NostrBbs
namespace Governance

open Lib (Date digitsOf digitsValue AreDigits byteLength splitBytes)
open Relay (NostrEvent parseSigned parseUnsigned parseUnsigned_iff)

/-! ## Days of dates -/

section Days

open Pay (MarchDate dateOfMarch yearStart monthStart civilDate epochDate)

variable {date : Date}

/-- The year of a date, from March on. -/
def marchYear (date : Date) : Int :=
  if date.month ≤ 2 then date.year - 1 else date.year

/-- The month of a date, March being the month 0. -/
def marchMonth (date : Date) : Int :=
  if date.month ≤ 2 then date.month + 9 else date.month - 3

theorem era_eq
    (year : Int) :
    (if year ≥ 0 then year else year - 399).tdiv 400 = year / 400 := by
  split
  · rename_i notNegative
    exact Int.tdiv_eq_ediv_of_nonneg notNegative
  · rw [Int.tdiv_eq_ediv, show Int.sign 400 = 1 from rfl]
    split <;> omega

/-- The day of a date, by its year and month from March on. -/
theorem daysFromCivil_eq
    (valid : date.Valid) :
    daysFromCivil date.year date.month date.day + 719468 =
      yearStart (marchYear date) + monthStart (marchMonth date) + (date.day - 1) := by
  obtain ⟨firstMonth, lastMonth, firstDay, lastDay⟩ := valid
  have month : (date.month + 9).tmod 12 = marchMonth date := by
    rw [Int.tmod_eq_emod_of_nonneg (by omega)]
    unfold marchMonth
    split <;> omega
  have fromMarch : 0 ≤ marchMonth date := by
    unfold marchMonth
    split <;> omega
  unfold daysFromCivil
  dsimp only
  rw [era_eq, month, ← marchYear]
  generalize marchYear date = year
  have inEra : 0 ≤ year - year / 400 * 400 := by omega
  have monthDays : 0 ≤ 153 * marchMonth date + 2 := by omega
  rw [Int.tdiv_eq_ediv_of_nonneg monthDays, Int.tdiv_eq_ediv_of_nonneg inEra,
    Int.tdiv_eq_ediv_of_nonneg inEra]
  unfold yearStart monthStart
  omega

theorem dateOfMarch_eq
    (valid : date.Valid) :
    dateOfMarch (marchYear date) (marchMonth date) (date.day - 1) = date := by
  obtain ⟨firstMonth, lastMonth, firstDay, lastDay⟩ := valid
  unfold dateOfMarch marchYear marchMonth
  by_cases early : date.month ≤ 2
  · rw [if_pos early, if_pos early, if_neg (by omega)]
    ext <;> dsimp only <;> omega
  · rw [if_neg early, if_neg early, if_pos (by omega)]
    ext <;> dsimp only <;> omega

theorem marchDate_of_valid
    (valid : date.Valid) :
    MarchDate (daysFromCivil date.year date.month date.day) (marchYear date) (marchMonth date)
      (date.day - 1) := by
  have firstMonth : 0 ≤ marchMonth date := by
    have := valid.firstMonth
    unfold marchMonth
    split <;> omega
  have lastMonth : marchMonth date ≤ 11 := by
    have := valid.lastMonth
    unfold marchMonth
    split <;> omega
  have length := Pay.daysInMonth_march (marchYear date) firstMonth lastMonth (date.day - 1)
  rw [dateOfMarch_eq valid] at length
  have firstDay := valid.firstDay
  have lastDay := valid.lastDay
  rw [length] at lastDay
  have yearLength := Pay.yearStart_succ (marchYear date)
  constructor
  case isDay => exact daysFromCivil_eq valid
  case firstMonth => exact firstMonth
  case lastMonth => exact lastMonth
  case firstDay => omega
  case inMonth =>
    split at lastDay
    · omega
    · rw [show marchMonth date = 11 by omega] at lastDay ⊢
      unfold monthStart at lastDay ⊢
      split at yearLength <;> omega
  case inYear =>
    split at lastDay
    · have monthEnds : monthStart (marchMonth date + 1) ≤ 337 := by
        unfold monthStart
        omega
      split at yearLength <;> omega
    · omega

/-- A day has one date. -/
theorem marchDate_unique
    {days year month before otherYear otherMonth otherBefore : Int}
    (first : MarchDate days year month before)
    (second : MarchDate days otherYear otherMonth otherBefore) :
    dateOfMarch year month before = dateOfMarch otherYear otherMonth otherBefore := by
  obtain ⟨isDay, firstMonth, lastMonth, firstDay, inMonth, inYear⟩ := first
  obtain ⟨isOther, otherFirstMonth, otherLastMonth, otherFirstDay, inOtherMonth, inOtherYear⟩ :=
    second
  have started : 0 ≤ monthStart month ∧ 0 ≤ monthStart otherMonth := by
    unfold monthStart
    omega
  have sameYear : year = otherYear := by
    rcases Int.lt_trichotomy year otherYear with earlier | same | later
    · have ends := Pay.yearStart_mono (show year + 1 ≤ otherYear by omega)
      omega
    · exact same
    · have ends := Pay.yearStart_mono (show otherYear + 1 ≤ year by omega)
      omega
  rw [sameYear] at isDay ⊢
  obtain ⟨rfl, rfl⟩ := Pay.month_unique firstDay inMonth otherFirstDay inOtherMonth (by omega)
  rfl

/-- The number computed for a date is the day that has it. -/
theorem after_daysFromCivil
    (valid : date.Valid) :
    epochDate.after (daysFromCivil date.year date.month date.day) = date := by
  obtain ⟨year, month, before, isMarch, isCivil⟩ :=
    Pay.civilDate_march (daysFromCivil date.year date.month date.day)
  rw [← Pay.civilDate_eq, isCivil, marchDate_unique isMarch (marchDate_of_valid valid),
    dateOfMarch_eq valid]

theorem after_eq_iff
    (valid : date.Valid)
    (days : Int) :
    epochDate.after days = date ↔ days = daysFromCivil date.year date.month date.day := by
  constructor
  · intro isDate
    apply Lib.dates_injective Pay.civilDate_next
    rw [Pay.civilDate_eq, Pay.civilDate_eq, isDate, after_daysFromCivil valid]
  · rintro rfl
    exact after_daysFromCivil valid

end Days

/-! ## Written instants -/

/-- A date and a time of day, and the character that parts them. -/
structure Clock where
  date : Date
  parting : Char
  hour : Nat
  minute : Nat
  second : Nat
deriving DecidableEq, Repr

namespace Clock

/-- A date of the calendar, and a time of day or a leap second. -/
structure Valid (clock : Clock) : Prop where
  firstYear : 0 ≤ clock.date.year
  lastYear : clock.date.year ≤ 9999
  date : clock.date.Valid
  parting : clock.parting ∈ ['T', 't', ' ']
  hour : clock.hour ≤ 23
  minute : clock.minute ≤ 59
  second : clock.second ≤ 60

/-- Numbers that fit their places, be they a date or not. -/
structure Fits (clock : Clock) : Prop where
  firstYear : 0 ≤ clock.date.year
  lastYear : clock.date.year < 10 ^ 4
  firstMonth : 0 ≤ clock.date.month
  lastMonth : clock.date.month < 10 ^ 2
  firstDay : 0 ≤ clock.date.day
  lastDay : clock.date.day < 10 ^ 2
  parting : clock.parting ∈ ['T', 't', ' ']
  hour : clock.hour < 10 ^ 2
  minute : clock.minute < 10 ^ 2
  second : clock.second < 10 ^ 2

/-- `YYYY-MM-DD`, the parting character and `HH:MM:SS`. -/
def chars (clock : Clock) : List Char :=
  digitsOf 4 clock.date.year.toNat ++ '-' :: (digitsOf 2 clock.date.month.toNat ++ '-' ::
    (digitsOf 2 clock.date.day.toNat ++ clock.parting :: (digitsOf 2 clock.hour ++ ':' ::
      (digitsOf 2 clock.minute ++ ':' :: digitsOf 2 clock.second))))

/-- The second of the day. -/
def secondOfDay (clock : Clock) : Int :=
  clock.hour * 3600 + clock.minute * 60 + clock.second

theorem Valid.fits
    {clock : Clock}
    (valid : clock.Valid) :
    clock.Fits := by
  obtain ⟨firstYear, lastYear, ⟨firstMonth, lastMonth, firstDay, lastDay⟩, parting, hour, minute,
    second⟩ := valid
  have longest := Lib.daysInMonth_le clock.date.year clock.date.month
  constructor
  case parting => exact parting
  all_goals omega

end Clock

/-- What follows the seconds: nothing, the letter of universal time or a shift. -/
inductive Zone
  | absent
  | utc (letter : Char)
  | shifted (sign : Char) (hours minutes : Nat)
  deriving DecidableEq, Repr

namespace Zone

def Valid : Zone → Prop
  | absent => True
  | utc letter => letter ∈ ['Z', 'z']
  | shifted sign hours minutes => sign ∈ ['+', '-'] ∧ hours ≤ 23 ∧ minutes ≤ 59

def chars : Zone → List Char
  | absent => []
  | utc letter => [letter]
  | shifted sign hours minutes => sign :: (digitsOf 2 hours ++ ':' :: digitsOf 2 minutes)

/-- The seconds by which a zone is ahead of universal time. -/
def seconds : Zone → Int
  | absent => 0
  | utc _ => 0
  | shifted sign hours minutes =>
      if sign = '-' then -(hours * 3600 + minutes * 60 : Int) else hours * 3600 + minutes * 60

end Zone

/-- A point and the digits after it, or nothing. -/
def fractionChars (digits : List Char) : List Char :=
  if digits = [] then [] else '.' :: digits

/-- A text that writes an instant: a date and a time of day, maybe a fraction of a second,
and a zone; the instant in seconds from the first day's midnight. -/
def Denotes (text : String) (seconds : Int) : Prop :=
  ∃ (clock : Clock) (fraction : List Char) (zone : Zone) (days : Int),
    clock.Valid ∧ AreDigits fraction ∧ zone.Valid ∧
      text.toList = clock.chars ++ (fractionChars fraction ++ zone.chars) ∧
      Pay.epochDate.after days = clock.date ∧
      seconds = days * 86400 + clock.secondOfDay - zone.seconds

/-- Two places of an offset that hold a number up to a bound. -/
def IsNumber (bound : Nat) (places : List Char) : Prop :=
  ∃ value ≤ bound, places = digitsOf 2 value

/-- Two places of an offset that hold a sign and a digit. -/
def IsSigned (places : List Char) : Prop :=
  ∃ sign ∈ ['+', '-'], ∃ digit : Char, digit.isDigit ∧ places = [sign, digit]

/-- The tail of an instant is a shift whose hours or minutes are written with a sign. -/
def SignedTail (tail : List Char) : Prop :=
  ∃ sign ∈ ['+', '-'], ∃ hours minutes, tail = sign :: (hours ++ ':' :: minutes) ∧
    (IsSigned hours ∧ (IsSigned minutes ∨ IsNumber 59 minutes) ∨
      IsNumber 23 hours ∧ IsSigned minutes)

/-- A text that would write an instant but for a sign within its offset. -/
def SignedOffset (text : String) : Prop :=
  ∃ (clock : Clock) (fraction tail : List Char),
    clock.Valid ∧ AreDigits fraction ∧ SignedTail tail ∧
      text.toList = clock.chars ++ (fractionChars fraction ++ tail)

/-- A text whose first nineteen bytes end with a character, if it has as many. -/
def SlicedWhole (text : String) : Prop :=
  19 ≤ text.utf8ByteSize → Lib.IsCharBoundary text.toList 19

/-! ## Numbers of places -/

section Numbers

variable {chars before inner after digits : List Char}

theorem AreDigits.ascii
    (areDigits : AreDigits digits) :
    ∀ char ∈ digits, char.utf8Size = 1 :=
  fun char isChar => Lib.utf8Size_of_isDigit (areDigits char isChar)

theorem byteLength_digitsOf
    (width value : Nat) :
    byteLength (digitsOf width value) = width := by
  rw [Lib.byteLength_of_ascii (AreDigits.ascii (Lib.areDigits_digitsOf width value)),
    Lib.length_digitsOf]

theorem charsBetween_of_parts
    (before inner after : List Char)
    (parts : chars = before ++ (inner ++ after)) :
    charsBetween chars (byteLength before) (byteLength before + byteLength inner) = some inner := by
  unfold charsBetween
  rw [Lib.splitBytes_eq_some_iff.mpr ⟨parts, rfl⟩, Option.bind_some, Nat.add_sub_cancel_left,
    Lib.splitBytes_eq_some_iff.mpr ⟨rfl, rfl⟩]
  rfl

theorem parts_of_charsBetween
    {start stop : Nat}
    (isInner : charsBetween chars start stop = some inner) :
    ∃ before after, chars = before ++ (inner ++ after) ∧ byteLength before = start ∧
      byteLength inner = stop - start := by
  unfold charsBetween at isInner
  obtain ⟨⟨before, rest⟩, splitAll, isInner⟩ := Option.bind_eq_some_iff.mp isInner
  obtain ⟨⟨first, after⟩, splitRest, rfl⟩ := Option.map_eq_some_iff.mp isInner
  obtain ⟨rfl, start⟩ := Lib.splitBytes_eq_some_iff.mp splitAll
  obtain ⟨rfl, stop⟩ := Lib.splitBytes_eq_some_iff.mp splitRest
  exact ⟨before, after, rfl, start, stop⟩

/-- What the signed number parser reads. -/
theorem parseSigned_iff
    {value : Int} :
    parseSigned (String.ofList chars) = some value ↔
      ∃ digits, digits ≠ [] ∧ AreDigits digits ∧
        ((chars = '+' :: digits ∨ chars = digits) ∧ (digitsValue digits : Int) = value ∧
            digitsValue digits < 2 ^ 63 ∨
          chars = '-' :: digits ∧ -(digitsValue digits : Int) = value ∧
            digitsValue digits ≤ 2 ^ 63) := by
  unfold parseSigned
  rw [String.toList_ofList]
  split
  · rename_i rest
    have notMinus : ∀ digits, AreDigits digits → '-' :: rest ≠ digits := by
      rintro digits areDigits rfl
      cases areDigits '-' List.mem_cons_self
    split
    · rename_i isPlus
      refine iff_of_false (fun reads => by cases reads) ?_
      rintro ⟨digits, notEmpty, areDigits, ⟨isChars, -⟩ | ⟨isChars, -⟩⟩
      · rcases isChars with isChars | isChars
        · cases isChars
        · exact notMinus digits areDigits isChars
      · obtain rfl := (List.cons.inj isChars).2
        cases rest with
        | nil => exact notEmpty rfl
        | cons digit digits =>
            cases Option.some.inj isPlus
            cases areDigits '+' List.mem_cons_self
    · rename_i notPlus
      rw [Option.map_eq_some_iff]
      constructor
      · rintro ⟨negated, isNegated, rfl⟩
        obtain ⟨read, isRead, isCast⟩ := Option.bind_eq_some_iff.mp isNegated
        cases isCast
        obtain ⟨isRead, small⟩ := Option.filter_eq_some_iff.mp isRead
        obtain ⟨digits, isRest, notEmpty, areDigits, rfl, -⟩ := parseUnsigned_iff.mp isRead
        have isDigits : rest = digits := by
          rcases isRest with rfl | isDigits
          · exact absurd rfl notPlus
          · exact isDigits
        refine ⟨digits, notEmpty, areDigits, .inr ⟨congrArg _ isDigits, rfl, ?_⟩⟩
        exact of_decide_eq_true small
      · rintro ⟨digits, notEmpty, areDigits, ⟨isChars, -⟩ | ⟨isChars, isValue, small⟩⟩
        · rcases isChars with isChars | isChars
          · cases isChars
          · exact absurd isChars (notMinus digits areDigits)
        · obtain rfl := (List.cons.inj isChars).2
          have isRead : parseUnsigned 64 (String.ofList rest) = some (digitsValue rest) :=
            parseUnsigned_iff.mpr ⟨rest, .inr rfl, notEmpty, areDigits, rfl, by omega⟩
          exact ⟨digitsValue rest, Option.bind_eq_some_iff.mpr ⟨digitsValue rest,
            Option.filter_eq_some_iff.mpr ⟨isRead, decide_eq_true small⟩, rfl⟩, isValue⟩
  · rename_i noMinus
    rw [Option.map_eq_some_iff]
    constructor
    · rintro ⟨read, isRead, rfl⟩
      obtain ⟨digits, isChars, notEmpty, areDigits, rfl, small⟩ := parseUnsigned_iff.mp isRead
      exact ⟨digits, notEmpty, areDigits, .inl ⟨isChars, rfl, small⟩⟩
    · rintro ⟨digits, notEmpty, areDigits, ⟨isChars, isValue, small⟩ | ⟨isChars, -⟩⟩
      · exact ⟨digitsValue digits,
          parseUnsigned_iff.mpr ⟨digits, isChars, notEmpty, areDigits, rfl, small⟩, isValue⟩
      · exact absurd isChars (noMinus digits)

/-- A number in its places reads as itself. -/
theorem numberBetween_digits
    {start width value : Nat}
    (parts : chars = before ++ (digitsOf width value ++ after))
    (begins : byteLength before = start)
    (positive : 0 < width)
    (narrow : width ≤ 18)
    (fits : value < 10 ^ width) :
    numberBetween chars start (start + width) = some (value : Int) := by
  rw [← begins]
  have between := charsBetween_of_parts before _ after parts
  rw [byteLength_digitsOf] at between
  unfold numberBetween
  rw [between, Option.bind_some]
  have notEmpty : digitsOf width value ≠ [] := by
    intro isEmpty
    have length := Lib.length_digitsOf width value
    rw [isEmpty, List.length_nil] at length
    omega
  have isValue := Lib.digitsValue_digitsOf fits
  have small : 10 ^ width ≤ 10 ^ 18 := Nat.pow_le_pow_right (by decide) narrow
  exact parseSigned_iff.mpr ⟨_, notEmpty, Lib.areDigits_digitsOf width value,
    .inl ⟨.inr rfl, congrArg _ isValue, by rw [isValue]; omega⟩⟩

end Numbers

/-! ## The bytes of a date and a time -/

section Bytes

variable {clock : Clock} {front rest : List Char}

/-- Two characters of a byte each are the same when their bytes are. -/
theorem byte_eq_iff
    {char other : Char}
    (ascii : char.utf8Size = 1)
    (otherAscii : other.utf8Size = 1) :
    UInt8.ofNat char.toNat = UInt8.ofNat other.toNat ↔ char = other := by
  rw [← UInt8.toNat_inj, Lib.toNat_of_ascii ascii, Lib.toNat_of_ascii otherAscii]
  exact Char.toNat_inj

theorem isDigit_iff
    {char : Char} :
    char.isDigit ↔ 48 ≤ char.toNat ∧ char.toNat ≤ 57 := by
  simp [Char.isDigit, UInt32.le_iff_toNat_le]

theorem getElem?_bytes
    (ascii : ∀ char ∈ front, char.utf8Size = 1)
    (index : Nat) :
    (Shared.utf8 front)[index]? = front[index]?.map fun char => UInt8.ofNat char.toNat := by
  unfold Shared.utf8
  rw [Lib.bytes_of_ascii ascii, List.getElem?_map]

theorem getElem?_bytes_append
    {index : Nat}
    (within : index < byteLength front) :
    (Shared.utf8 (front ++ rest))[index]? = (Shared.utf8 front)[index]? := by
  unfold Shared.utf8
  rw [List.flatMap_append, List.getElem?_append_left]
  rwa [Lib.length_bytes]

theorem digitsElsewhere_iff
    {bytes : Shared.Bytes} :
    digitsElsewhere bytes = true ↔ ∀ index byte, bytes[index]? = some byte →
      index ∈ separators ∨ 48 ≤ byte.toNat ∧ byte.toNat ≤ 57 := by
  unfold digitsElsewhere
  rw [List.all_eq_true]
  constructor
  · intro all index byte isByte
    have placed := all (byte, index) (List.mk_mem_zipIdx_iff_getElem?.mpr isByte)
    simpa using placed
  · rintro places ⟨byte, index⟩ isPlaced
    have placed := places index byte (List.mk_mem_zipIdx_iff_getElem?.mp isPlaced)
    simpa using placed

theorem separated_iff
    {bytes : Shared.Bytes} :
    separated bytes = true ↔ bytes[4]? = some 45 ∧ bytes[7]? = some 45 ∧ bytes[13]? = some 58 ∧
      bytes[16]? = some 58 ∧ (bytes[10]? = some 84 ∨ bytes[10]? = some 116 ∨ bytes[10]? = some 32) := by
  unfold separated
  simp only [Bool.and_eq_true, Bool.or_eq_true, beq_iff_eq]
  tauto

/-- Bytes that pass the checks are characters of a byte each. -/
theorem ascii_of_checks
    (length : byteLength front = 19)
    (digits : digitsElsewhere (Shared.utf8 front) = true)
    (parted : separated (Shared.utf8 (front ++ rest)) = true) :
    ∀ char ∈ front, char.utf8Size = 1 := by
  apply Lib.ascii_of_bytes
  intro byte isByte
  obtain ⟨index, within, atIndex⟩ := List.getElem_of_mem isByte
  have inBytes : (Shared.utf8 front)[index]? = some byte :=
    List.getElem?_eq_some_iff.mpr ⟨within, atIndex⟩
  rcases digitsElsewhere_iff.mp digits index byte inBytes with isSeparator | isDigit
  · have checks := separated_iff.mp parted
    rw [getElem?_bytes_append (by omega), getElem?_bytes_append (by omega),
      getElem?_bytes_append (by omega), getElem?_bytes_append (by omega),
      getElem?_bytes_append (by omega)] at checks
    obtain ⟨fourth, seventh, thirteenth, sixteenth, tenth⟩ := checks
    simp only [separators, List.mem_cons, List.not_mem_nil, or_false] at isSeparator
    rcases isSeparator with rfl | rfl | rfl | rfl | rfl
    · cases fourth.symm.trans inBytes
      decide
    · cases seventh.symm.trans inBytes
      decide
    · rcases tenth with isParting | isParting | isParting
      · cases isParting.symm.trans inBytes
        decide
      · cases isParting.symm.trans inBytes
        decide
      · cases isParting.symm.trans inBytes
        decide
    · cases thirteenth.symm.trans inBytes
      decide
    · cases sixteenth.symm.trans inBytes
      decide
  · omega

/-- The places of a date and a time: digits but for the separators. -/
structure Places (front : List Char) : Prop where
  length : front.length = 19
  digit : ∀ index char, front[index]? = some char → index ∈ separators ∨ char.isDigit
  firstDash : front[4]? = some '-'
  secondDash : front[7]? = some '-'
  parting : ∃ parting ∈ ['T', 't', ' '], front[10]? = some parting
  firstColon : front[13]? = some ':'
  secondColon : front[16]? = some ':'

/-- A character at a place, by its byte. -/
theorem getElem?_eq_of_byte
    (ascii : ∀ char ∈ front, char.utf8Size = 1)
    {index : Nat}
    (other : Char)
    (otherAscii : other.utf8Size = 1) :
    (Shared.utf8 front)[index]? = some (UInt8.ofNat other.toNat) ↔ front[index]? = some other := by
  rw [getElem?_bytes ascii]
  constructor
  · intro isByte
    obtain ⟨char, isChar, sameByte⟩ := Option.map_eq_some_iff.mp isByte
    rw [isChar, (byte_eq_iff (ascii char (List.mem_of_getElem? isChar)) otherAscii).mp sameByte]
  · intro isChar
    rw [isChar]
    rfl

/-- The checks on the bytes are checks on the characters at their places. -/
theorem checks_iff
    (length : byteLength front = 19) :
    (digitsElsewhere (Shared.utf8 front) = true ∧
        separated (Shared.utf8 (front ++ rest)) = true) ↔
      (∀ char ∈ front, char.utf8Size = 1) ∧ Places front := by
  have bytes : ∀ {index : Nat}, index < 19 →
      (Shared.utf8 (front ++ rest))[index]? = (Shared.utf8 front)[index]? := by
    intro index within
    exact getElem?_bytes_append (by omega)
  rw [separated_iff, bytes (by decide), bytes (by decide), bytes (by decide), bytes (by decide),
    bytes (by decide)]
  constructor
  · rintro ⟨digits, fourth, seventh, thirteenth, sixteenth, tenth⟩
    have ascii : ∀ char ∈ front, char.utf8Size = 1 := by
      refine @ascii_of_checks front rest length digits (separated_iff.mpr ?_)
      rw [bytes (by decide), bytes (by decide), bytes (by decide), bytes (by decide),
        bytes (by decide)]
      exact ⟨fourth, seventh, thirteenth, sixteenth, tenth⟩
    refine ⟨ascii, ?_⟩
    constructor
    case length => rw [← length, Lib.byteLength_of_ascii ascii]
    case digit =>
      intro index char isChar
      have isByte : (Shared.utf8 front)[index]? = some (UInt8.ofNat char.toNat) := by
        rw [getElem?_bytes ascii, isChar]
        rfl
      refine (digitsElsewhere_iff.mp digits index _ isByte).imp_right fun isDigit => ?_
      rw [Lib.toNat_of_ascii (ascii char (List.mem_of_getElem? isChar))] at isDigit
      exact isDigit_iff.mpr isDigit
    case firstDash => exact (getElem?_eq_of_byte ascii '-' rfl).mp fourth
    case secondDash => exact (getElem?_eq_of_byte ascii '-' rfl).mp seventh
    case parting =>
      rcases tenth with isParting | isParting | isParting
      · exact ⟨'T', by decide, (getElem?_eq_of_byte ascii 'T' rfl).mp isParting⟩
      · exact ⟨'t', by decide, (getElem?_eq_of_byte ascii 't' rfl).mp isParting⟩
      · exact ⟨' ', by decide, (getElem?_eq_of_byte ascii ' ' rfl).mp isParting⟩
    case firstColon => exact (getElem?_eq_of_byte ascii ':' rfl).mp thirteenth
    case secondColon => exact (getElem?_eq_of_byte ascii ':' rfl).mp sixteenth
  · rintro ⟨ascii, places⟩
    refine ⟨digitsElsewhere_iff.mpr ?_, ?_, ?_, ?_, ?_, ?_⟩
    · intro index byte isByte
      rw [getElem?_bytes ascii] at isByte
      obtain ⟨char, isChar, rfl⟩ := Option.map_eq_some_iff.mp isByte
      rw [Lib.toNat_of_ascii (ascii char (List.mem_of_getElem? isChar))]
      exact (places.digit index char isChar).imp_right isDigit_iff.mp
    · exact (getElem?_eq_of_byte ascii '-' rfl).mpr places.firstDash
    · exact (getElem?_eq_of_byte ascii '-' rfl).mpr places.secondDash
    · exact (getElem?_eq_of_byte ascii ':' rfl).mpr places.firstColon
    · exact (getElem?_eq_of_byte ascii ':' rfl).mpr places.secondColon
    · obtain ⟨parting, isParting, atTenth⟩ := places.parting
      simp only [List.mem_cons, List.not_mem_nil, or_false] at isParting
      rcases isParting with rfl | rfl | rfl
      · exact .inl ((getElem?_eq_of_byte ascii 'T' rfl).mpr atTenth)
      · exact .inr (.inl ((getElem?_eq_of_byte ascii 't' rfl).mpr atTenth))
      · exact .inr (.inr ((getElem?_eq_of_byte ascii ' ' rfl).mpr atTenth))

end Bytes

/-! ## Reading a date and a time -/

section Clocks

variable {clock : Clock} {front rest tail : List Char}

theorem drop_eq_take_append
    (front : List Char)
    (start width : Nat) :
    front.drop start = (front.drop start).take width ++ front.drop (start + width) := by
  rw [← List.drop_drop, List.take_append_drop]

/-- From a character on: the character, some more and the rest. -/
theorem drop_of_place
    {index : Nat}
    {char : Char}
    (isChar : front[index]? = some char)
    (width : Nat) :
    front.drop index =
      char :: ((front.drop (index + 1)).take width ++ front.drop (index + 1 + width)) := by
  obtain ⟨within, rfl⟩ := List.getElem?_eq_some_iff.mp isChar
  rw [← drop_eq_take_append]
  exact List.drop_eq_getElem_cons within

theorem Places.areDigits
    (places : Places front)
    {start width : Nat}
    (noSeparator : ∀ offset < width, start + offset ∉ separators) :
    AreDigits ((front.drop start).take width) := by
  intro char isChar
  obtain ⟨offset, isPlace⟩ := List.getElem?_of_mem isChar
  rw [List.getElem?_take] at isPlace
  split at isPlace
  · rename_i within
    rw [List.getElem?_drop] at isPlace
    rcases places.digit _ char isPlace with isSeparator | isDigit
    · exact absurd isSeparator (noSeparator offset within)
    · exact isDigit
  · cases isPlace

theorem Places.digitsOf_value
    (places : Places front)
    (start width : Nat)
    (noSeparator : ∀ offset < width, start + offset ∉ separators)
    (within : start + width ≤ 19) :
    digitsOf width (digitsValue ((front.drop start).take width)) = (front.drop start).take width ∧
      digitsValue ((front.drop start).take width) < 10 ^ width := by
  have areDigits := places.areDigits noSeparator
  have length : ((front.drop start).take width).length = width := by
    rw [List.length_take, List.length_drop, places.length]
    omega
  have spelled := Lib.digitsOf_digitsValue areDigits
  have small := Lib.digitsValue_lt areDigits
  rw [length] at spelled small
  exact ⟨spelled, small⟩

/-- Characters at the places of a date and a time write one, be it of the calendar or not. -/
theorem Places.exists_clock
    (places : Places front) :
    ∃ clock : Clock, clock.Fits ∧ front = clock.chars := by
  obtain ⟨parting, isParting, atTenth⟩ := places.parting
  obtain ⟨year, yearFits⟩ := places.digitsOf_value 0 4 (by decide) (by decide)
  obtain ⟨month, monthFits⟩ := places.digitsOf_value 5 2 (by decide) (by decide)
  obtain ⟨day, dayFits⟩ := places.digitsOf_value 8 2 (by decide) (by decide)
  obtain ⟨hour, hourFits⟩ := places.digitsOf_value 11 2 (by decide) (by decide)
  obtain ⟨minute, minuteFits⟩ := places.digitsOf_value 14 2 (by decide) (by decide)
  obtain ⟨second, secondFits⟩ := places.digitsOf_value 17 2 (by decide) (by decide)
  have ends : front.drop 19 = [] := List.drop_eq_nil_of_le (Nat.le_of_eq places.length)
  refine ⟨⟨⟨digitsValue ((front.drop 0).take 4), digitsValue ((front.drop 5).take 2),
    digitsValue ((front.drop 8).take 2)⟩, parting, digitsValue ((front.drop 11).take 2),
    digitsValue ((front.drop 14).take 2), digitsValue ((front.drop 17).take 2)⟩, ?_, ?_⟩
  · constructor
    case parting => exact isParting
    all_goals dsimp only
    all_goals omega
  · unfold Clock.chars
    dsimp only
    rw [Int.toNat_natCast, Int.toNat_natCast, Int.toNat_natCast, year, month, day, hour, minute,
      second]
    calc front
        = front.drop 0 := rfl
      _ = (front.drop 0).take 4 ++ front.drop 4 := drop_eq_take_append front 0 4
      _ = _ := by
          rw [drop_of_place places.firstDash 2, drop_of_place places.secondDash 2,
            drop_of_place atTenth 2, drop_of_place places.firstColon 2,
            drop_of_place places.secondColon 2, ends, List.append_nil]

theorem isDigit_digitChar_mod
    (value : Nat) :
    (Nat.digitChar (value % 10)).isDigit := by
  rw [Nat.isDigit_digitChar, decide_eq_true_eq]
  exact Nat.mod_lt _ (by decide)

/-- A date and a time are written at their places. -/
theorem Clock.Fits.places
    (fits : clock.Fits) :
    Places clock.chars := by
  constructor
  case length => simp [Clock.chars]
  case digit =>
    intro index char isChar
    have within : index < 19 := by
      obtain ⟨within, -⟩ := List.getElem?_eq_some_iff.mp isChar
      simpa [Clock.chars] using within
    unfold Clock.chars at isChar
    simp only [digitsOf, List.nil_append, List.cons_append] at isChar
    interval_cases index
    all_goals
      first
      | exact .inl (by decide)
      | exact .inr (by cases isChar; exact isDigit_digitChar_mod _)
  case parting => exact ⟨clock.parting, fits.parting, rfl⟩
  all_goals rfl

theorem Clock.Fits.ascii
    (fits : clock.Fits) :
    ∀ char ∈ clock.chars, char.utf8Size = 1 := by
  have parting : clock.parting.utf8Size = 1 := by
    have isParting := fits.parting
    simp only [List.mem_cons, List.not_mem_nil, or_false] at isParting
    rcases isParting with isParting | isParting | isParting <;> rw [isParting] <;> rfl
  intro char isChar
  obtain ⟨index, isPlace⟩ := List.getElem?_of_mem isChar
  rcases fits.places.digit index char isPlace with isSeparator | isDigit
  · simp only [separators, List.mem_cons, List.not_mem_nil, or_false] at isSeparator
    rcases isSeparator with rfl | rfl | rfl | rfl | rfl
    all_goals cases isPlace
    all_goals first | rfl | exact parting
  · exact Lib.utf8Size_of_isDigit isDigit

theorem Clock.Fits.byteLength
    (fits : clock.Fits) :
    byteLength clock.chars = 19 := by
  rw [Lib.byteLength_of_ascii fits.ascii, fits.places.length]

/-- A number before a separator is read from its places, and what follows begins after the
separator. -/
theorem number_step
    {chars before after : List Char}
    {start width value : Nat}
    {separator : Char}
    (parts : chars = before ++ (digitsOf width value ++ separator :: after))
    (begins : byteLength before = start)
    (ascii : separator.utf8Size = 1)
    (positive : 0 < width)
    (narrow : width ≤ 18)
    (fits : value < 10 ^ width) :
    numberBetween chars start (start + width) = some (value : Int) ∧
      chars = (before ++ (digitsOf width value ++ [separator])) ++ after ∧
      byteLength (before ++ (digitsOf width value ++ [separator])) = start + width + 1 := by
  refine ⟨numberBetween_digits parts begins positive narrow fits, ?_, ?_⟩
  · rw [parts, List.append_assoc, List.append_assoc]
    rfl
  · rw [Lib.byteLength_append, Lib.byteLength_append, byteLength_digitsOf, Lib.byteLength_cons,
      Lib.byteLength_nil, ascii, begins]
    omega

/-- The numbers of a date and a time are read from their places. -/
theorem Clock.Fits.numbers
    (fits : clock.Fits)
    (rest : List Char) :
    numberBetween (clock.chars ++ rest) 0 4 = some clock.date.year ∧
      numberBetween (clock.chars ++ rest) 5 7 = some clock.date.month ∧
      numberBetween (clock.chars ++ rest) 8 10 = some clock.date.day ∧
      numberBetween (clock.chars ++ rest) 11 13 = some (clock.hour : Int) ∧
      numberBetween (clock.chars ++ rest) 14 16 = some (clock.minute : Int) ∧
      numberBetween (clock.chars ++ rest) 17 19 = some (clock.second : Int) := by
  have parting : clock.parting.utf8Size = 1 :=
    fits.ascii clock.parting (by simp [Clock.chars])
  obtain ⟨firstYear, lastYear, firstMonth, lastMonth, firstDay, lastDay, -, hour, minute, second⟩ :=
    fits
  have parts : clock.chars ++ rest = [] ++ (digitsOf 4 clock.date.year.toNat ++ '-' ::
      (digitsOf 2 clock.date.month.toNat ++ '-' :: (digitsOf 2 clock.date.day.toNat ++
        clock.parting :: (digitsOf 2 clock.hour ++ ':' :: (digitsOf 2 clock.minute ++ ':' ::
          (digitsOf 2 clock.second ++ rest)))))) := by
    simp [Clock.chars]
  obtain ⟨readYear, parts, begins⟩ := number_step parts rfl rfl (by decide) (by decide) (by omega)
  obtain ⟨readMonth, parts, begins⟩ :=
    number_step parts begins rfl (by decide) (by decide) (by omega)
  obtain ⟨readDay, parts, begins⟩ :=
    number_step parts begins parting (by decide) (by decide) (by omega)
  obtain ⟨readHour, parts, begins⟩ := number_step parts begins rfl (by decide) (by decide) hour
  obtain ⟨readMinute, parts, begins⟩ := number_step parts begins rfl (by decide) (by decide) minute
  have readSecond := numberBetween_digits parts begins (by decide) (by decide) second
  rw [Int.toNat_of_nonneg firstYear] at readYear
  rw [Int.toNat_of_nonneg firstMonth] at readMonth
  rw [Int.toNat_of_nonneg firstDay] at readDay
  exact ⟨readYear, readMonth, readDay, readHour, readMinute, readSecond⟩

/-- A date and a time are refused unless they are of the calendar. -/
theorem instantOf_eq_some_iff
    (fits : clock.Fits)
    {seconds : Int} :
    instantOf (clock.chars ++ rest) tail = some seconds ↔
      clock.Valid ∧ ∃ offset, offsetSeconds tail = some offset ∧
        seconds = daysFromCivil clock.date.year clock.date.month clock.date.day * 86400 +
          clock.secondOfDay - offset := by
  obtain ⟨year, month, day, hour, minute, second⟩ := fits.numbers rest
  unfold instantOf
  rw [year, month, day, hour, minute, second]
  simp only [Option.bind_some]
  have valid_iff : clock.Valid ↔ (1 ≤ clock.date.month ∧ clock.date.month ≤ 12) ∧
      (1 ≤ clock.date.day ∧ clock.date.day ≤ 31) ∧
      clock.date.day ≤ Lib.daysInMonth clock.date.year clock.date.month ∧
      clock.hour ≤ 23 ∧ clock.minute ≤ 59 ∧ clock.second ≤ 60 := by
    constructor
    · rintro ⟨-, -, ⟨firstMonth, lastMonth, firstDay, lastDay⟩, -, hour, minute, second⟩
      exact ⟨⟨firstMonth, lastMonth⟩, ⟨firstDay, lastDay.trans (Lib.daysInMonth_le _ _)⟩, lastDay,
        hour, minute, second⟩
    · rintro ⟨⟨firstMonth, lastMonth⟩, ⟨firstDay, -⟩, lastDay, hour, minute, second⟩
      have lastYear := fits.lastYear
      exact ⟨fits.firstYear, by omega, ⟨firstMonth, lastMonth, firstDay, lastDay⟩, fits.parting,
        hour, minute, second⟩
  rw [valid_iff]
  by_cases dated : (1 ≤ clock.date.month ∧ clock.date.month ≤ 12) ∧
      (1 ≤ clock.date.day ∧ clock.date.day ≤ 31)
  · rw [if_neg (by omega)]
    by_cases timed : clock.date.day ≤ Lib.daysInMonth clock.date.year clock.date.month ∧
        clock.hour ≤ 23 ∧ clock.minute ≤ 59 ∧ clock.second ≤ 60
    · rw [if_neg (by omega), Option.map_eq_some_iff]
      unfold Clock.secondOfDay
      constructor
      · rintro ⟨offset, isOffset, rfl⟩
        exact ⟨⟨dated.1, dated.2, timed⟩, offset, isOffset, by omega⟩
      · rintro ⟨-, offset, isOffset, rfl⟩
        exact ⟨offset, isOffset, by omega⟩
    · rw [if_pos (by omega)]
      refine iff_of_false (fun reads => by cases reads) ?_
      rintro ⟨⟨-, -, isTimed⟩, -⟩
      exact timed isTimed
  · rw [if_pos (by omega)]
    refine iff_of_false (fun reads => by cases reads) ?_
    rintro ⟨⟨isMonth, isDay, -⟩, -⟩
    exact dated ⟨isMonth, isDay⟩

end Clocks

/-! ## Reading what follows the seconds -/

section Tails

variable {places hours minutes tail rest fraction : List Char} {value : Int}

theorem splitBytes_digits
    (chars : List Char) :
    splitBytes chars (chars.takeWhile Char.isDigit).length =
      some (chars.takeWhile Char.isDigit, chars.dropWhile Char.isDigit) := by
  have ascii : ∀ char ∈ chars.takeWhile Char.isDigit, char.utf8Size = 1 :=
    fun char isDigit => Lib.utf8Size_of_isDigit (List.mem_takeWhile_imp isDigit)
  exact Lib.splitBytes_eq_some_iff.mpr ⟨List.takeWhile_append_dropWhile.symm,
    Lib.byteLength_of_ascii ascii⟩

/-- What follows a fraction: the point's digits are taken as far as they go. -/
theorem afterFraction_eq_some_iff :
    afterFraction rest = some (some tail) ↔
      ∃ fraction, AreDigits fraction ∧ rest = fractionChars fraction ++ tail ∧
        (fraction = [] → tail.head? ≠ some '.') ∧
        (fraction ≠ [] → ∀ char ∈ tail.head?, char.isDigit = false) := by
  unfold afterFraction
  split
  · rename_i stripped
    dsimp only
    split
    · rename_i noDigit
      refine iff_of_false (fun read => by cases read) ?_
      rintro ⟨fraction, areDigits, isRest, notPoint, notDigit⟩
      unfold fractionChars at isRest
      split at isRest
      · rename_i isEmpty
        rw [List.nil_append] at isRest
        rw [← isRest] at notPoint
        exact notPoint isEmpty rfl
      · rename_i notEmpty
        obtain rfl : stripped = fraction ++ tail := (List.cons.inj isRest).2
        rw [Lib.takeWhile_append_of_stop areDigits (notDigit notEmpty)] at noDigit
        exact notEmpty (List.length_eq_zero_iff.mp noDigit)
    · rename_i someDigit
      rw [splitBytes_digits, Option.map_some, Option.some.injEq, Option.some.injEq]
      constructor
      · rintro rfl
        have notEmpty : stripped.takeWhile Char.isDigit ≠ [] :=
          fun isEmpty => someDigit (List.length_eq_zero_iff.mpr isEmpty)
        refine ⟨stripped.takeWhile Char.isDigit, fun char => List.mem_takeWhile_imp, ?_,
          fun isEmpty => absurd isEmpty notEmpty, fun _ char isHead => ?_⟩
        · unfold fractionChars
          rw [if_neg notEmpty, List.cons_append, List.takeWhile_append_dropWhile]
        · have stops := List.head?_dropWhile_not Char.isDigit stripped
          rw [Option.mem_def.mp isHead] at stops
          simpa using stops
      · rintro ⟨fraction, areDigits, isRest, notPoint, notDigit⟩
        unfold fractionChars at isRest
        split at isRest
        · rename_i isEmpty
          rw [List.nil_append] at isRest
          rw [← isRest] at notPoint
          exact absurd rfl (notPoint isEmpty)
        · rename_i notEmpty
          obtain rfl : stripped = fraction ++ tail := (List.cons.inj isRest).2
          exact Lib.dropWhile_append_of_stop areDigits (notDigit notEmpty)
  · rename_i noPoint
    rw [Option.some.injEq, Option.some.injEq]
    constructor
    · rintro rfl
      refine ⟨[], fun char isChar => (by cases isChar), rfl, fun _ isPoint => ?_,
        fun notEmpty => absurd rfl notEmpty⟩
      cases rest with
      | nil => cases isPoint
      | cons char rest =>
          cases Option.some.inj isPoint
          exact noPoint rest rfl
    · rintro ⟨fraction, -, isRest, -⟩
      unfold fractionChars at isRest
      split at isRest
      · exact isRest
      · exact absurd isRest (noPoint _)

theorem digitsValue_singleton_lt
    {digit : Char}
    (isDigit : digit.isDigit) :
    digitsValue [digit] < 10 := by
  have bound : digitsValue [digit] < 10 ^ [digit].length :=
    Lib.digitsValue_lt (by simpa [AreDigits] using isDigit)
  exact bound

/-- What two places of an offset read as: digits, or a sign and a digit. -/
theorem parseSigned_places_iff
    (length : byteLength places = 2) :
    parseSigned (String.ofList places) = some value ↔
      (∃ number < 100, places = digitsOf 2 number ∧ (number : Int) = value) ∨
        ∃ digit : Char, digit.isDigit ∧ (places = ['+', digit] ∧ (digitsValue [digit] : Int) = value ∨
          places = ['-', digit] ∧ -(digitsValue [digit] : Int) = value) := by
  rw [parseSigned_iff]
  have alone : ∀ {sign : Char} {digits : List Char}, sign.utf8Size = 1 → AreDigits digits →
      places = sign :: digits → ∃ digit : Char, digit.isDigit ∧ digits = [digit] := by
    rintro sign digits ascii areDigits rfl
    rw [Lib.byteLength_cons, ascii] at length
    obtain ⟨digit, -, rfl⟩ := Lib.byteLength_eq_one_iff.mp (show byteLength digits = 1 by omega)
    exact ⟨digit, areDigits digit (List.mem_singleton_self digit), rfl⟩
  constructor
  · rintro ⟨digits, notEmpty, areDigits, ⟨isPlus | rfl, isValue, -⟩ | ⟨isMinus, isValue, -⟩⟩
    · obtain ⟨digit, isDigit, rfl⟩ := alone rfl areDigits isPlus
      exact .inr ⟨digit, isDigit, .inl ⟨isPlus, isValue⟩⟩
    · have isTwo : places.length = 2 := by
        rw [← length, Lib.byteLength_of_ascii (AreDigits.ascii areDigits)]
      have bound := Lib.digitsValue_lt areDigits
      have spelled := Lib.digitsOf_digitsValue areDigits
      rw [isTwo] at bound spelled
      exact .inl ⟨digitsValue places, bound, spelled.symm, isValue⟩
    · obtain ⟨digit, isDigit, rfl⟩ := alone rfl areDigits isMinus
      exact .inr ⟨digit, isDigit, .inr ⟨isMinus, isValue⟩⟩
  · rintro (⟨number, fits, rfl, isValue⟩ | ⟨digit, isDigit, ⟨isPlus, isValue⟩ | ⟨isMinus, isValue⟩⟩)
    · have isNumber := @Lib.digitsValue_digitsOf 2 number fits
      exact ⟨digitsOf 2 number, by simp [digitsOf], Lib.areDigits_digitsOf 2 number,
        .inl ⟨.inr rfl, by rw [isNumber]; exact isValue, by omega⟩⟩
    · have bound := digitsValue_singleton_lt isDigit
      exact ⟨[digit], by simp, by simpa [AreDigits] using isDigit,
        .inl ⟨.inl isPlus, isValue, by omega⟩⟩
    · have bound := digitsValue_singleton_lt isDigit
      exact ⟨[digit], by simp, by simpa [AreDigits] using isDigit,
        .inr ⟨isMinus, isValue, by omega⟩⟩

/-- Two places that read as a number up to a bound of two digits. -/
theorem places_within_iff
    (length : byteLength places = 2)
    {bound : Nat}
    (oneDigit : 9 ≤ bound)
    (twoDigits : bound < 100) :
    (∃ value, parseSigned (String.ofList places) = some value ∧ value ≤ bound) ↔
      IsNumber bound places ∨ IsSigned places := by
  constructor
  · rintro ⟨value, isValue, within⟩
    rcases (parseSigned_places_iff length).mp isValue with
      ⟨number, -, isPlaces, rfl⟩ | ⟨digit, isDigit, ⟨isPlaces, -⟩ | ⟨isPlaces, -⟩⟩
    · exact .inl ⟨number, by omega, isPlaces⟩
    · exact .inr ⟨'+', by decide, digit, isDigit, isPlaces⟩
    · exact .inr ⟨'-', by decide, digit, isDigit, isPlaces⟩
  · rintro (⟨number, within, isPlaces⟩ | ⟨sign, isSign, digit, isDigit, isPlaces⟩)
    · exact ⟨number, (parseSigned_places_iff length).mpr
        (.inl ⟨number, by omega, isPlaces, rfl⟩), by omega⟩
    · have small := digitsValue_singleton_lt isDigit
      rcases List.mem_cons.mp isSign with rfl | isMinus
      · exact ⟨digitsValue [digit], (parseSigned_places_iff length).mpr
          (.inr ⟨digit, isDigit, .inl ⟨isPlaces, rfl⟩⟩), by omega⟩
      · cases List.mem_singleton.mp isMinus
        exact ⟨-digitsValue [digit], (parseSigned_places_iff length).mpr
          (.inr ⟨digit, isDigit, .inr ⟨isPlaces, rfl⟩⟩), by omega⟩

theorem ascii_of_isSign
    {sign : Char}
    (isSign : sign ∈ ['+', '-']) :
    sign.utf8Size = 1 := by
  rcases List.mem_cons.mp isSign with rfl | isMinus
  · rfl
  · cases List.mem_singleton.mp isMinus
    rfl

/-- The places of an offset of six bytes: a sign, two bytes, a colon and two bytes. -/
theorem shift_parts
    {sign : Char}
    (isSign : sign ∈ ['+', '-'])
    (length : byteLength (sign :: rest) = 6)
    (isHours : charsBetween (sign :: rest) 1 3 = some hours)
    (isMinutes : charsBetween (sign :: rest) 4 6 = some minutes)
    (isColon : (Shared.utf8 (sign :: rest))[3]? = some 58) :
    rest = hours ++ ':' :: minutes ∧ byteLength hours = 2 ∧ byteLength minutes = 2 := by
  have ascii := ascii_of_isSign isSign
  obtain ⟨first, afterHours, hourParts, firstLength, hoursLength⟩ := parts_of_charsBetween isHours
  obtain ⟨beforeMinutes, ends, minuteParts, beforeLength, minutesLength⟩ :=
    parts_of_charsBetween isMinutes
  have noEnds : ends = [] := by
    rw [minuteParts, Lib.byteLength_append, Lib.byteLength_append] at length
    cases ends with
    | nil => rfl
    | cons char ends =>
        have positive := char.utf8Size_pos
        rw [Lib.byteLength_cons] at length
        omega
  rw [noEnds, List.append_nil] at minuteParts
  -- The front that ends with the hours is a part of the one that ends before the minutes.
  have hoursFirst : first ++ hours <+: beforeMinutes := by
    have isPrefix : first ++ hours <+: sign :: rest :=
      ⟨afterHours, by rw [hourParts, List.append_assoc]⟩
    rcases List.prefix_or_prefix_of_prefix isPrefix ⟨minutes, minuteParts.symm⟩ with
      inside | ⟨between, isBetween⟩
    · exact inside
    · have total := congrArg byteLength isBetween
      rw [Lib.byteLength_append, Lib.byteLength_append] at total
      omega
  obtain ⟨between, isBetween⟩ := hoursFirst
  have betweenLength : byteLength between = 1 := by
    have total := congrArg byteLength isBetween
    rw [Lib.byteLength_append, Lib.byteLength_append] at total
    omega
  obtain ⟨colon, colonAscii, rfl⟩ := Lib.byteLength_eq_one_iff.mp betweenLength
  obtain ⟨other, -, rfl⟩ := Lib.byteLength_eq_one_iff.mp firstLength
  rw [← isBetween, List.append_assoc, List.append_assoc] at minuteParts
  obtain ⟨rfl, rfl⟩ := List.cons.inj minuteParts
  refine ⟨?_, hoursLength, minutesLength⟩
  have isByte : (Shared.utf8 ([sign] ++ (hours ++ ([colon] ++ minutes))))[3]? =
      some (UInt8.ofNat colon.toNat) := by
    have frontLength : (([sign] ++ hours).flatMap String.utf8EncodeChar).length = 3 := by
      rw [Lib.length_bytes, Lib.byteLength_append, Lib.byteLength_cons, ascii, hoursLength]
      rfl
    unfold Shared.utf8
    rw [← List.append_assoc, List.flatMap_append, List.getElem?_append_right (by omega),
      frontLength, List.flatMap_append, List.flatMap_singleton,
      Lib.utf8EncodeChar_of_ascii colonAscii]
    rfl
  have sameByte : UInt8.ofNat colon.toNat = UInt8.ofNat ':'.toNat :=
    Option.some.inj (isByte.symm.trans isColon)
  rw [(byte_eq_iff colonAscii rfl).mp sameByte]
  rfl

/-- A shift reads as its hours and minutes do. -/
theorem offsetSeconds_shift
    {sign : Char}
    (isSign : sign ∈ ['+', '-'])
    (hoursLength : byteLength hours = 2)
    (minutesLength : byteLength minutes = 2)
    {hour minute : Int}
    (isHour : parseSigned (String.ofList hours) = some hour)
    (isMinute : parseSigned (String.ofList minutes) = some minute)
    (hourWithin : hour ≤ 23)
    (minuteWithin : minute ≤ 59) :
    offsetSeconds (sign :: (hours ++ ':' :: minutes)) =
      some (if sign = '-' then -(hour * 3600 + minute * 60) else hour * 3600 + minute * 60) := by
  have ascii := ascii_of_isSign isSign
  have colon : ':'.utf8Size = 1 := rfl
  have signed : sign = '+' ∨ sign = '-' := by
    rcases List.mem_cons.mp isSign with isPlus | isMinus
    · exact .inl isPlus
    · exact .inr (List.mem_singleton.mp isMinus)
  have length : byteLength (sign :: (hours ++ ':' :: minutes)) = 6 := by
    rw [Lib.byteLength_cons, Lib.byteLength_append, Lib.byteLength_cons, ascii, colon, hoursLength,
      minutesLength]
  have readHours : numberBetween (sign :: (hours ++ ':' :: minutes)) 1 3 = some hour := by
    have between := charsBetween_of_parts [sign] hours (':' :: minutes) rfl
    rw [hoursLength, Lib.byteLength_cons, ascii] at between
    unfold numberBetween
    exact Option.bind_eq_some_iff.mpr ⟨hours, between, isHour⟩
  have readMinutes : numberBetween (sign :: (hours ++ ':' :: minutes)) 4 6 = some minute := by
    have parts : sign :: (hours ++ ':' :: minutes) = sign :: (hours ++ [':']) ++ (minutes ++ []) := by
      simp
    have between := charsBetween_of_parts _ _ _ parts
    rw [minutesLength, Lib.byteLength_cons, Lib.byteLength_append, Lib.byteLength_cons, ascii,
      hoursLength, colon] at between
    unfold numberBetween
    exact Option.bind_eq_some_iff.mpr ⟨minutes, between, isMinute⟩
  have isColon : (Shared.utf8 (sign :: (hours ++ ':' :: minutes)))[3]? = some 58 := by
    have frontLength : ((sign :: hours).flatMap String.utf8EncodeChar).length = 3 := by
      rw [Lib.length_bytes, Lib.byteLength_cons, ascii, hoursLength]
    unfold Shared.utf8
    rw [← List.cons_append, List.flatMap_append, List.getElem?_append_right (by omega),
      frontLength]
    rfl
  unfold offsetSeconds
  split
  · rename_i isNil
    cases isNil
  · rename_i isLetter
    cases (List.cons.inj isLetter).1
    rcases signed with isPlus | isMinus
    · cases isPlus
    · cases isMinus
  · rename_i isLetter
    cases (List.cons.inj isLetter).1
    rcases signed with isPlus | isMinus
    · cases isPlus
    · cases isMinus
  · rename_i other others _ _ isTail
    cases isTail
    rw [if_pos ⟨signed, length⟩, readHours, readMinutes]
    simp only [Option.bind_some]
    rw [if_neg]
    rintro (notColon | late | late)
    · exact notColon isColon
    · omega
    · omega

theorem byteLength_of_isNumber
    {bound : Nat}
    (isNumber : IsNumber bound places) :
    byteLength places = 2 := by
  obtain ⟨value, -, rfl⟩ := isNumber
  exact byteLength_digitsOf 2 value

theorem byteLength_of_isSigned
    (isSigned : IsSigned places) :
    byteLength places = 2 := by
  obtain ⟨sign, isSign, digit, isDigit, rfl⟩ := isSigned
  rw [Lib.byteLength_cons, Lib.byteLength_cons, ascii_of_isSign isSign,
    Lib.utf8Size_of_isDigit isDigit]
  rfl

/-- A sign is no digit. -/
theorem IsSigned.not_isNumber
    {bound : Nat}
    (isSigned : IsSigned places) :
    ¬IsNumber bound places := by
  obtain ⟨sign, isSign, digit, isDigit, rfl⟩ := isSigned
  rintro ⟨value, -, isPlaces⟩
  have areDigits := Lib.areDigits_digitsOf 2 value
  rw [← isPlaces] at areDigits
  have signDigit := areDigits sign List.mem_cons_self
  rcases List.mem_cons.mp isSign with rfl | isMinus
  · cases signDigit
  · cases List.mem_singleton.mp isMinus
    cases signDigit

/-- A valid zone reads as its seconds. -/
theorem offsetSeconds_zone
    {zone : Zone}
    (valid : zone.Valid) :
    offsetSeconds zone.chars = some zone.seconds := by
  cases zone with
  | absent => rfl
  | utc letter =>
      rcases List.mem_cons.mp valid with rfl | isSmall
      · rfl
      · cases List.mem_singleton.mp isSmall
        rfl
  | shifted sign hours minutes =>
      obtain ⟨isSign, hoursWithin, minutesWithin⟩ := valid
      have places : ∀ number < 100,
          parseSigned (String.ofList (digitsOf 2 number)) = some (number : Int) :=
        fun number fits => (parseSigned_places_iff (byteLength_digitsOf 2 number)).mpr
          (.inl ⟨number, fits, rfl, rfl⟩)
      exact offsetSeconds_shift isSign (byteLength_digitsOf 2 hours) (byteLength_digitsOf 2 minutes)
        (places hours (by omega)) (places minutes (by omega)) (by omega) (by omega)

/-- What is read after the seconds is a zone, or a shift with a sign within. -/
theorem offsetSeconds_isSome_iff :
    (offsetSeconds tail).isSome ↔
      (∃ zone : Zone, zone.Valid ∧ tail = zone.chars) ∨ SignedTail tail := by
  constructor
  · intro read
    unfold offsetSeconds at read
    split at read
    · exact .inl ⟨.absent, trivial, rfl⟩
    · exact .inl ⟨.utc 'Z', List.mem_cons_self, rfl⟩
    · exact .inl ⟨.utc 'z', List.mem_cons_of_mem _ List.mem_cons_self, rfl⟩
    · rename_i sign rest _ _
      split at read
      · rename_i shape
        obtain ⟨offset, isOffset⟩ := Option.isSome_iff_exists.mp read
        obtain ⟨hour, isHour, isOffset⟩ := Option.bind_eq_some_iff.mp isOffset
        obtain ⟨minute, isMinute, isOffset⟩ := Option.bind_eq_some_iff.mp isOffset
        split at isOffset
        · cases isOffset
        · rename_i within
          push Not at within
          obtain ⟨hours, isHours, hourRead⟩ := Option.bind_eq_some_iff.mp isHour
          obtain ⟨minutes, isMinutes, minuteRead⟩ := Option.bind_eq_some_iff.mp isMinute
          have isSign : sign ∈ ['+', '-'] := by simpa using shape.1
          obtain ⟨rfl, hoursLength, minutesLength⟩ :=
            shift_parts isSign shape.2 isHours isMinutes within.1
          have hourPlaces := (places_within_iff hoursLength (by decide) (by decide)).mp
            ⟨hour, hourRead, within.2.1⟩
          have minutePlaces := (places_within_iff minutesLength (by decide) (by decide)).mp
            ⟨minute, minuteRead, within.2.2⟩
          rcases hourPlaces with isNumber | isSigned
          · rcases minutePlaces with minuteNumber | isSigned
            · obtain ⟨hourValue, hourWithin, rfl⟩ := isNumber
              obtain ⟨minuteValue, minuteWithin, rfl⟩ := minuteNumber
              exact .inl ⟨.shifted sign hourValue minuteValue,
                ⟨isSign, hourWithin, minuteWithin⟩, rfl⟩
            · exact .inr ⟨sign, isSign, hours, minutes, rfl, .inr ⟨isNumber, isSigned⟩⟩
          · exact .inr ⟨sign, isSign, hours, minutes, rfl, .inl ⟨isSigned, minutePlaces.symm⟩⟩
      · cases read
  · rintro (⟨zone, valid, rfl⟩ | ⟨sign, isSign, hours, minutes, rfl, signed⟩)
    · rw [offsetSeconds_zone valid]
      rfl
    · have hourPlaces : IsNumber 23 hours ∨ IsSigned hours := by tauto
      have minutePlaces : IsNumber 59 minutes ∨ IsSigned minutes := by tauto
      have hoursLength := hourPlaces.elim byteLength_of_isNumber byteLength_of_isSigned
      have minutesLength := minutePlaces.elim byteLength_of_isNumber byteLength_of_isSigned
      obtain ⟨hour, hourRead, hourWithin⟩ :=
        (places_within_iff hoursLength (by decide) (by decide)).mpr hourPlaces
      obtain ⟨minute, minuteRead, minuteWithin⟩ :=
        (places_within_iff minutesLength (by decide) (by decide)).mpr minutePlaces
      rw [offsetSeconds_shift isSign hoursLength minutesLength hourRead minuteRead
        (by exact_mod_cast hourWithin) (by exact_mod_cast minuteWithin)]
      rfl

/-- No zone is written with a sign within. -/
theorem SignedTail.not_zone
    (signed : SignedTail tail)
    {zone : Zone}
    (valid : zone.Valid) :
    tail ≠ zone.chars := by
  obtain ⟨sign, isSign, hours, minutes, rfl, places⟩ := signed
  have hoursLength : byteLength hours = 2 :=
    places.elim (fun both => byteLength_of_isSigned both.1) fun both => byteLength_of_isNumber both.1
  intro isZone
  cases zone with
  | absent => cases isZone
  | utc letter =>
      have isNil := (List.cons.inj isZone).2
      cases hours with
      | nil => cases hoursLength
      | cons char hours => cases isNil
  | shifted other hour minute =>
      have isRest := (List.cons.inj isZone).2
      have sameHours : hours = digitsOf 2 hour ∧ ':' :: minutes = ':' :: digitsOf 2 minute := by
        apply Prod.mk.inj
        apply Option.some.inj
        rw [← Lib.splitBytes_eq_some_iff.mpr ⟨isRest, byteLength_digitsOf 2 hour⟩]
        exact (Lib.splitBytes_eq_some_iff.mpr ⟨rfl, hoursLength⟩).symm
      obtain ⟨-, hourWithin, minuteWithin⟩ := valid
      have hourNumber : IsNumber 23 hours := ⟨hour, hourWithin, sameHours.1⟩
      have minuteNumber : IsNumber 59 minutes :=
        ⟨minute, minuteWithin, (List.cons.inj sameHours.2).2⟩
      rcases places with ⟨isSigned, -⟩ | ⟨-, isSigned⟩
      · exact isSigned.not_isNumber hourNumber
      · exact isSigned.not_isNumber minuteNumber

/-- What an offset begins with is neither a point nor a digit. -/
theorem head_of_offsetSeconds
    (read : (offsetSeconds tail).isSome) :
    ∀ char ∈ tail.head?, char ≠ '.' ∧ char.isDigit = false := by
  intro char isHead
  unfold offsetSeconds at read
  split at read
  · cases isHead
  · cases Option.some.inj isHead
    decide
  · cases Option.some.inj isHead
    decide
  · split at read
    · rename_i shape
      cases Option.some.inj isHead
      rcases shape.1 with isPlus | isMinus
      · rw [isPlus]
        decide
      · rw [isMinus]
        decide
    · cases read

theorem afterFraction_of_parts
    (areDigits : AreDigits fraction)
    (read : (offsetSeconds tail).isSome) :
    afterFraction (fractionChars fraction ++ tail) = some (some tail) := by
  have begins := head_of_offsetSeconds read
  exact afterFraction_eq_some_iff.mpr ⟨fraction, areDigits, rfl,
    fun _ isPoint => (begins '.' isPoint).1 rfl, fun _ char isHead => (begins char isHead).2⟩

end Tails

/-! ## Reading an instant -/

section Reading

variable {text : String} {clock : Clock} {fraction tail : List Char}

/-- What the relay reads: a date and a time of day, maybe a fraction, and what reads as an
offset. -/
theorem parseRfc3339Utc_eq_some_iff
    {seconds : Int} :
    parseRfc3339Utc text = some (some seconds) ↔
      ∃ (clock : Clock) (fraction tail : List Char) (offset : Int), clock.Valid ∧
        AreDigits fraction ∧ text.toList = clock.chars ++ (fractionChars fraction ++ tail) ∧
        offsetSeconds tail = some offset ∧
        seconds = daysFromCivil clock.date.year clock.date.month clock.date.day * 86400 +
          clock.secondOfDay - offset := by
  unfold parseRfc3339Utc
  dsimp only
  constructor
  · intro parsed
    split at parsed
    · cases parsed
    · obtain ⟨⟨front, rest⟩, isSplit, parsed⟩ := Option.bind_eq_some_iff.mp parsed
      obtain ⟨isText, length⟩ := Lib.splitBytes_eq_some_iff.mp isSplit
      dsimp only at parsed
      split at parsed
      · cases parsed
      · rename_i digits
        rw [not_not] at digits
        split at parsed
        · cases parsed
        · rename_i parted
          rw [not_not, isText] at parted
          obtain ⟨-, places⟩ := (checks_iff length).mp ⟨digits, parted⟩
          obtain ⟨clock, fits, rfl⟩ := places.exists_clock
          obtain ⟨read, isRead, isSeconds⟩ := Option.map_eq_some_iff.mp parsed
          obtain ⟨tail, rfl, isInstant⟩ := Option.bind_eq_some_iff.mp isSeconds
          obtain ⟨fraction, areDigits, isRest, -⟩ := afterFraction_eq_some_iff.mp isRead
          rw [isText] at isInstant
          obtain ⟨valid, offset, isOffset, isValue⟩ := (instantOf_eq_some_iff fits).mp isInstant
          exact ⟨clock, fraction, tail, offset, valid, areDigits, by rw [isText, isRest], isOffset,
            isValue⟩
  · rintro ⟨clock, fraction, tail, offset, valid, areDigits, isText, isOffset, isValue⟩
    have fits := valid.fits
    have length := fits.byteLength
    have read : (offsetSeconds tail).isSome := by
      rw [isOffset]
      rfl
    rw [isText, if_neg (by rw [Lib.byteLength_append, length]; omega),
      Lib.splitBytes_eq_some_iff.mpr ⟨rfl, length⟩, Option.bind_some]
    obtain ⟨digits, parted⟩ :=
      (@checks_iff _ (fractionChars fraction ++ tail) length).mpr ⟨fits.ascii, fits.places⟩
    dsimp only
    rw [if_neg (not_not.mpr digits), if_neg (not_not.mpr parted),
      afterFraction_of_parts areDigits read, Option.map_some, Option.bind_some, Option.some.injEq]
    exact (instantOf_eq_some_iff fits).mpr ⟨valid, offset, isOffset, isValue⟩

/-- The parts of an instant's text are its own. -/
theorem tail_unique
    {other : Clock}
    {otherFraction otherTail : List Char}
    (valid : clock.Valid)
    (otherValid : other.Valid)
    (areDigits : AreDigits fraction)
    (otherDigits : AreDigits otherFraction)
    (read : (offsetSeconds tail).isSome)
    (otherRead : (offsetSeconds otherTail).isSome)
    (same : clock.chars ++ (fractionChars fraction ++ tail) =
      other.chars ++ (fractionChars otherFraction ++ otherTail)) :
    tail = otherTail := by
  have sameLength : clock.chars.length = other.chars.length := by
    rw [valid.fits.places.length, otherValid.fits.places.length]
  have sameRest := (List.append_inj same sameLength).2
  have isTail := afterFraction_of_parts areDigits read
  rw [sameRest, afterFraction_of_parts otherDigits otherRead] at isTail
  exact (Option.some.inj (Option.some.inj isTail)).symm

/-- An instant is read from exactly the texts that write it unless the text has a sign
within its offset. -/
theorem parseRfc3339Utc_exact_iff
    (text : String) :
    (∀ seconds, parseRfc3339Utc text = some (some seconds) ↔ Denotes text seconds) ↔
      ¬SignedOffset text := by
  constructor
  · rintro exact ⟨clock, fraction, tail, valid, areDigits, signed, isText⟩
    have read := offsetSeconds_isSome_iff.mpr (.inr signed)
    obtain ⟨offset, isOffset⟩ := Option.isSome_iff_exists.mp read
    obtain ⟨other, otherFraction, zone, days, otherValid, otherDigits, zoneValid, isOther, -⟩ :=
      (exact _).mp (parseRfc3339Utc_eq_some_iff.mpr
        ⟨clock, fraction, tail, offset, valid, areDigits, isText, isOffset, rfl⟩)
    have zoneRead : (offsetSeconds zone.chars).isSome := by
      rw [offsetSeconds_zone zoneValid]
      rfl
    exact signed.not_zone zoneValid (tail_unique valid otherValid areDigits otherDigits read
      zoneRead (isText.symm.trans isOther))
  · intro unsigned seconds
    rw [parseRfc3339Utc_eq_some_iff]
    constructor
    · rintro ⟨clock, fraction, tail, offset, valid, areDigits, isText, isOffset, isValue⟩
      have read : (offsetSeconds tail).isSome := by
        rw [isOffset]
        rfl
      rcases offsetSeconds_isSome_iff.mp read with ⟨zone, zoneValid, rfl⟩ | signed
      · rw [offsetSeconds_zone zoneValid] at isOffset
        cases isOffset
        exact ⟨clock, fraction, zone, _, valid, areDigits, zoneValid, isText,
          after_daysFromCivil valid.date, isValue⟩
      · exact absurd ⟨clock, fraction, tail, valid, areDigits, signed, isText⟩ unsigned
    · rintro ⟨clock, fraction, zone, days, valid, areDigits, zoneValid, isText, isDate, isValue⟩
      rw [(after_eq_iff valid.date days).mp isDate] at isValue
      exact ⟨clock, fraction, zone.chars, zone.seconds, valid, areDigits, isText,
        offsetSeconds_zone zoneValid, isValue⟩

end Reading

/-! ## The expiry of a request -/

/-- The text that a content gives as its expiry. -/
def expiryText (json : JsonParser) (content : String) : Option String :=
  ((json.parse content).bind fun value => fieldOf value "stale_after").bind Relay.JsonValue.asStr

/-- A text is read without a panic, and exactly as what it writes, when its nineteenth byte
ends a character and no sign stands within its offset; the expiry of a content is read, and
a request is projected, without a panic when the texts that they read are sliced whole. -/
theorem expiry_iff
    (json : JsonParser) :
    (∀ text, (parseRfc3339Utc text).isSome ∧
        (∀ seconds, parseRfc3339Utc text = some (some seconds) ↔ Denotes text seconds) ↔
      SlicedWhole text ∧ ¬SignedOffset text) ∧
    (∀ content, (staleAfterFromContent json content).isSome ↔
      ∀ text ∈ expiryText json content, SlicedWhole text) ∧
    ∀ (world : World) (event : NostrEvent), (projectActionRequest json world event).isSome ↔
      (world.hasDatabase = true → ∀ text ∈ slicedExpiry json event, SlicedWhole text) := by
  refine ⟨?_, ?_, ?_⟩
  · intro text
    rw [isSome_parseRfc3339Utc_iff, parseRfc3339Utc_exact_iff]
    rfl
  · exact isSome_staleAfterFromContent_iff json
  · intro world event
    unfold projectActionRequest
    cases world.hasDatabase with
    | false => exact iff_of_true rfl fun isTrue => by cases isTrue
    | true =>
        rw [if_neg (by decide), Option.isSome_map, isSome_planRequestBoundary_iff]
        exact ⟨fun whole _ => whole, fun whole => whole rfl⟩

/-- A character across the nineteenth byte is a panic, and a sign within the offset moves
the instant the other way. -/
theorem accented_second_panics :
    parseRfc3339Utc "2026-10-05T00:00:0é" = none ∧
      parseRfc3339Utc "2026-10-05T00:00:00+-5:00" = some (some 1791176400) := by
  decide

end Governance
end NostrBbs
