import Mathlib.Order.Monotone.Basic

/-!
# The proleptic Gregorian calendar

Dates follow one another by the lengths of the months, in both directions without end.
Whatever numbers the days so that each is followed by the next is the calendar from any
of its days on, and keeps the order of the days.
-/

namespace Lib

@[ext] structure Date where
  year : Int
  month : Int
  day : Int
deriving DecidableEq, Repr

/-- Every fourth year is a leap year, but of the centuries every fourth. -/
def isLeapYear (year : Int) : Bool :=
  year % 4 = 0 && (year % 100 ≠ 0 || year % 400 = 0)

def daysInMonth (year month : Int) : Int :=
  if month = 2 then if isLeapYear year then 29 else 28
  else if month = 4 ∨ month = 6 ∨ month = 9 ∨ month = 11 then 30
  else 31

namespace Date

/-- A date of the calendar. -/
structure Valid (date : Date) : Prop where
  firstMonth : 1 ≤ date.month
  lastMonth : date.month ≤ 12
  firstDay : 1 ≤ date.day
  lastDay : date.day ≤ daysInMonth date.year date.month

/-- The date of the next day. -/
def next (date : Date) : Date :=
  if date.day < daysInMonth date.year date.month then { date with day := date.day + 1 }
  else if date.month < 12 then ⟨date.year, date.month + 1, 1⟩
  else ⟨date.year + 1, 1, 1⟩

/-- The date of the day before. -/
def previous (date : Date) : Date :=
  if 1 < date.day then { date with day := date.day - 1 }
  else if 1 < date.month then
    ⟨date.year, date.month - 1, daysInMonth date.year (date.month - 1)⟩
  else ⟨date.year - 1, 12, 31⟩

/-- The date some days after another, or before it. -/
def after (start : Date) : Int → Date
  | .ofNat days => next^[days] start
  | .negSucc days => previous^[days + 1] start

/-- A date is earlier than another. -/
def Before (first second : Date) : Prop :=
  first.year < second.year ∨ first.year = second.year ∧
    (first.month < second.month ∨ first.month = second.month ∧ first.day < second.day)

end Date

section Rules

variable {date : Date}

theorem daysInMonth_le
    (year month : Int) :
    daysInMonth year month ≤ 31 := by
  unfold daysInMonth
  split
  · split <;> omega
  · split <;> omega

theorem daysInMonth_december
    (year : Int) :
    daysInMonth year 12 = 31 := by
  simp [daysInMonth]

theorem Date.previous_next
    (valid : date.Valid) :
    date.next.previous = date := by
  obtain ⟨year, month, day⟩ := date
  obtain ⟨firstMonth, lastMonth, firstDay, lastDay⟩ := valid
  dsimp only at firstMonth lastMonth firstDay lastDay
  unfold Date.next
  dsimp only
  split
  · unfold Date.previous
    dsimp only
    rw [if_pos (by omega), Int.add_sub_cancel]
  · have isLast : day = daysInMonth year month := by omega
    split
    · unfold Date.previous
      dsimp only
      rw [if_neg (by omega), if_pos (by omega), Int.add_sub_cancel, isLast]
    · have isDecember : month = 12 := by omega
      unfold Date.previous
      dsimp only
      rw [if_neg (by omega), if_neg (by omega), Int.add_sub_cancel, isLast, isDecember,
        daysInMonth_december]

theorem Date.before_next
    (date : Date) :
    date.Before date.next := by
  unfold Date.next Date.Before
  split
  · exact .inr ⟨rfl, .inr ⟨rfl, by dsimp only; omega⟩⟩
  · split
    · exact .inr ⟨rfl, .inl (by dsimp only; omega)⟩
    · exact .inl (by dsimp only; omega)

theorem Date.Before.trans
    {first second third : Date}
    (earlier : first.Before second)
    (later : second.Before third) :
    first.Before third := by
  unfold Date.Before at *
  omega

theorem Date.not_before_self
    (date : Date) :
    ¬date.Before date := by
  unfold Date.Before
  omega

end Rules

section Numbered

variable {dates : Int → Date}

/-- Dates that follow one another are the calendar from the first of them on. -/
theorem dates_eq_after
    (valid : ∀ day, (dates day).Valid)
    (follows : ∀ day, dates (day + 1) = (dates day).next)
    (day : Int) :
    dates day = (dates 0).after day := by
  cases day with
  | ofNat days =>
      change _ = Date.next^[days] (dates 0)
      induction days with
      | zero => rfl
      | succ days inductionHypothesis =>
          rw [Function.iterate_succ_apply', ← inductionHypothesis]
          exact follows (Int.ofNat days)
  | negSucc days =>
      change _ = Date.previous^[days + 1] (dates 0)
      induction days with
      | zero =>
          have first := follows (-1)
          rw [show (-1 : Int) + 1 = 0 from rfl] at first
          rw [Function.iterate_one, first, Date.previous_next (valid (-1))]
          rfl
      | succ days inductionHypothesis =>
          have here := follows (Int.negSucc (days + 1))
          rw [show Int.negSucc (days + 1) + 1 = Int.negSucc days from by omega] at here
          rw [Function.iterate_succ_apply', ← inductionHypothesis, here,
            Date.previous_next (valid _)]

/-- Dates that follow one another keep the order of their days. -/
theorem before_of_lt
    (follows : ∀ day, dates (day + 1) = (dates day).next)
    {first second : Int}
    (earlier : first < second) :
    (dates first).Before (dates second) := by
  obtain ⟨days, rfl⟩ : ∃ days : Nat, second = first + days + 1 :=
    ⟨(second - first - 1).toNat, by omega⟩
  clear earlier
  induction days with
  | zero =>
      rw [Int.natCast_zero, Int.add_zero, follows]
      exact Date.before_next _
  | succ days inductionHypothesis =>
      have step := follows (first + days + 1)
      rw [show first + ((days + 1 : Nat) : Int) + 1 = first + days + 1 + 1 from by omega, step]
      exact inductionHypothesis.trans (Date.before_next _)

theorem before_iff_lt
    (follows : ∀ day, dates (day + 1) = (dates day).next)
    (first second : Int) :
    (dates first).Before (dates second) ↔ first < second := by
  constructor
  · intro earlier
    by_contra notEarlier
    rcases Int.lt_or_eq_of_le (Int.not_lt.mp notEarlier) with later | same
    · exact Date.not_before_self _ (earlier.trans (before_of_lt follows later))
    · rw [same] at earlier
      exact Date.not_before_self _ earlier
  · exact before_of_lt follows

theorem dates_injective
    (follows : ∀ day, dates (day + 1) = (dates day).next) :
    Function.Injective dates := by
  intro first second same
  by_contra different
  rcases Int.lt_or_gt_of_ne different with earlier | later
  · have before := before_of_lt follows earlier
    rw [same] at before
    exact Date.not_before_self _ before
  · have before := before_of_lt follows later
    rw [same] at before
    exact Date.not_before_self _ before

end Numbered

end Lib
