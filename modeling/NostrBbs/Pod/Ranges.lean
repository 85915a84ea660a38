import NostrBbs.Shared.Texts

/-!
# Byte ranges

A Range header asks for one range of the bytes of a resource: from one index to another,
from an index on, or the last bytes.  The parser is compared with the ranges that the
header spells.
-/

namespace NostrBbs
namespace Pod

open Relay (parseUnsigned)
open Shared (stripPrefixChars)

/-! ## Parsing -/

/-- A text at the first of a separator. -/
def splitOnce (separator : Char) (chars : List Char) : Option (List Char × List Char) :=
  match chars.span fun char => char != separator with
  | (_, []) => none
  | (before, _ :: after) => some (before, after)

/-- An index as the parser reads it. -/
def parseIndex (chars : List Char) : Option Nat :=
  parseUnsigned 64 (String.ofList chars)

/-- An arithmetic fault of unsigned numbers. -/
inductive RangeFault where
  | underflow
deriving DecidableEq, Repr

/-- `resource_size - 1`. -/
def lastIndex (resourceSize : Nat) : Except RangeFault Nat :=
  if resourceSize = 0 then .error .underflow else .ok (resourceSize - 1)

/-- The first index: of a suffix range, what its length leaves of the resource. -/
def parseStart (startStr endStr : List Char) (resourceSize : Nat) : Option Nat :=
  if startStr = [] then (parseIndex endStr).map fun suffix => resourceSize - suffix
  else parseIndex startStr

/-- The last index, the resource's own where the header names none. -/
def parseEnd (endStr : List Char) (resourceSize : Nat) : Except RangeFault (Option Nat) :=
  if endStr = [] then (lastIndex resourceSize).map some else .ok (parseIndex endStr)

/-- The range of the two parts of a range. -/
def parseParts (startStr endStr : List Char) (resourceSize : Nat) :
    Except RangeFault (Option (Nat × Nat)) :=
  match parseStart startStr endStr resourceSize with
  | none => .ok none
  | some start => do
      match ← parseEnd endStr resourceSize with
      | none => .ok none
      | some last =>
          if last < start ∨ resourceSize ≤ start then .ok none
          else
            let lastOwn ← lastIndex resourceSize
            .ok (some (start, min last lastOwn))

/-- The range of a Range header, both ends included. -/
def parseRange (rangeHeader : Option String) (resourceSize : UInt64) :
    Except RangeFault (Option (Nat × Nat)) :=
  match (rangeHeader.bind fun header =>
      stripPrefixChars "bytes=".toList header.toList).bind (splitOnce '-') with
  | none => .ok none
  | some (startStr, endStr) => parseParts startStr endStr resourceSize.toNat

/-! ## What a header spells -/

/-- `first-byte-pos "-" last-byte-pos`, `first-byte-pos "-"` and `"-" suffix-length`. -/
inductive ByteRangeSpec where
  | bounded (first last : Nat)
  | fromFirst (first : Nat)
  | suffix (length : Nat)
deriving DecidableEq, Repr

/-- The value of digits. -/
def digitsValue (digits : List Char) : Nat :=
  digits.foldl (fun value digit => 10 * value + (digit.toNat - 48)) 0

/-- `1*DIGIT` -/
def decimal (chars : List Char) : Option Nat :=
  if chars = [] ∨ !chars.all Char.isDigit then none else some (digitsValue chars)

/-- The byte range that a header spells. -/
def spelledRange (header : String) : Option ByteRangeSpec :=
  match (stripPrefixChars "bytes=".toList header.toList).bind (splitOnce '-') with
  | none => none
  | some (first, last) =>
      if first = [] then (decimal last).map .suffix
      else if last = [] then (decimal first).map .fromFirst
      else (decimal first).bind fun first => (decimal last).map (.bounded first)

/-- The bytes of a resource that a range selects, if it is satisfiable. -/
def ByteRangeSpec.within (size : Nat) : ByteRangeSpec → Option (Nat × Nat)
  | bounded first last =>
      if first ≤ last ∧ first < size then some (first, min last (size - 1)) else none
  | fromFirst first => if first < size then some (first, size - 1) else none
  | suffix length =>
      if 0 < length ∧ 0 < size then some (size - min length size, size - 1) else none

/-- The range that the specification assigns to a header and a size. -/
def assignedRange (header : Option String) (size : Nat) : Option (Nat × Nat) :=
  (header.bind spelledRange).bind (ByteRangeSpec.within size)

/-! ## Numerals -/

/-- What follows a plus. -/
def unsignedPart : List Char → List Char
  | '+' :: rest => rest
  | chars => chars

/-- A number with or without a plus before it: whether there is one, and its value. -/
def signedNumeral (chars : List Char) : Option (Bool × Nat) :=
  (decimal (unsignedPart chars)).map fun value => (chars.head? == some '+', value)

theorem parseIndex_eq
    (chars : List Char) :
    parseIndex chars = (signedNumeral chars).bind fun numeral =>
      if numeral.2 < 2 ^ 64 then some numeral.2 else none := by
  have read : parseIndex chars =
      if unsignedPart chars = [] ∨ !(unsignedPart chars).all Char.isDigit then none
      else if digitsValue (unsignedPart chars) < 2 ^ 64 then some (digitsValue (unsignedPart chars))
      else none := by
    unfold parseIndex parseUnsigned
    rw [String.toList_ofList]
    rfl
  rw [read]
  unfold signedNumeral decimal
  split <;> rfl

theorem decimal_eq
    (chars : List Char) :
    decimal chars = (signedNumeral chars).bind fun numeral =>
      if numeral.1 then none else some numeral.2 := by
  unfold signedNumeral unsignedPart
  split
  · rename_i digits
    have notDigits : decimal ('+' :: digits) = none := by
      simp [decimal]
    rw [notDigits]
    cases decimal digits <;> rfl
  · rename_i notSigned
    have noPlus : (chars.head? == some '+') = false := by
      cases chars with
      | nil => rfl
      | cons head tail =>
          have different : head ≠ '+' := by
            rintro rfl
            exact notSigned tail rfl
          simpa using different
    rw [noPlus]
    cases decimal chars <;> rfl

/-! ## Where the parser does as specified -/

/-- The last bytes are as specified: the length has no plus that matters and 64 bits, and
takes all bytes but one at least, or none. -/
def SuffixMet (length : List Char) (size : Nat) : Prop :=
  ∀ numeral ∈ signedNumeral length, 0 < numeral.2 → 0 < size →
    if numeral.1 then 2 ^ 64 ≤ numeral.2 ∨ 2 * numeral.2 < size
    else numeral.2 < 2 ^ 64 ∧ size ≤ numeral.2 + 1

/-- The bytes from an index on are as specified: there are some, and the index has no plus
unless it is behind them. -/
def OpenMet (first : List Char) (size : Nat) : Prop :=
  ∀ numeral ∈ signedNumeral first,
    if size = 0 then 2 ^ 64 ≤ numeral.2 else numeral.1 → size ≤ numeral.2

/-- The bytes between two indices are as specified: where they are some of the resource's,
the indices have no plus and the last one 64 bits. -/
def BoundedMet (first last : List Char) (size : Nat) : Prop :=
  ∀ lower ∈ signedNumeral first, ∀ upper ∈ signedNumeral last, lower.2 ≤ upper.2 →
    lower.2 < size → ((lower.1 ∨ upper.1) ↔ 2 ^ 64 ≤ upper.2)

/-- A header and a size at which the parser returns the range that is assigned. -/
def RangeMet (header : String) (size : Nat) : Prop :=
  ∀ first last, (stripPrefixChars "bytes=".toList header.toList).bind (splitOnce '-') =
      some (first, last) →
    if first = [] then SuffixMet last size
    else if last = [] then OpenMet first size
    else BoundedMet first last size

section Parts

variable {startStr endStr : List Char} {start last size : Nat}

theorem parseParts_of_no_start
    (noStart : parseStart startStr endStr size = none) :
    parseParts startStr endStr size = .ok none := by
  unfold parseParts
  rw [noStart]

theorem parseParts_of_no_end
    (noEnd : parseEnd endStr size = .ok none) :
    parseParts startStr endStr size = .ok none := by
  unfold parseParts
  split
  · rfl
  · rw [noEnd]
    rfl

theorem parseParts_of_fault
    (isStart : parseStart startStr endStr size = some start)
    (faults : parseEnd endStr size = .error .underflow) :
    parseParts startStr endStr size = .error .underflow := by
  unfold parseParts
  rw [isStart, faults]
  rfl

/-- A range whose ends are read is cut to the resource, when it begins in it. -/
theorem parseParts_of_ends
    (isStart : parseStart startStr endStr size = some start)
    (isEnd : parseEnd endStr size = .ok (some last)) :
    parseParts startStr endStr size =
      .ok (if last < start ∨ size ≤ start then none else some (start, min last (size - 1))) := by
  unfold parseParts
  rw [isStart, isEnd]
  change (if last < start ∨ size ≤ start then Except.ok none
    else (lastIndex size).bind fun lastOwn => .ok (some (start, min last lastOwn))) = _
  split
  · rfl
  · rename_i within
    have notEmpty : size ≠ 0 := by omega
    unfold lastIndex
    rw [if_neg notEmpty]
    rfl

theorem parseIndex_of_signedNumeral
    {chars : List Char}
    {numeral : Bool × Nat}
    (isNumeral : signedNumeral chars = some numeral) :
    parseIndex chars = if numeral.2 < 2 ^ 64 then some numeral.2 else none := by
  rw [parseIndex_eq, isNumeral]
  rfl

theorem decimal_of_signedNumeral
    {chars : List Char}
    {numeral : Bool × Nat}
    (isNumeral : signedNumeral chars = some numeral) :
    decimal chars = if numeral.1 then none else some numeral.2 := by
  rw [decimal_eq, isNumeral]
  rfl

theorem parseParts_suffix_iff
    (length : List Char)
    (size : Nat) :
    parseParts [] length size =
        .ok ((decimal length).bind fun length => (ByteRangeSpec.suffix length).within size) ↔
      SuffixMet length size := by
  unfold SuffixMet
  cases isNumeral : signedNumeral length with
  | none =>
      have noStart : parseStart [] length size = none := by
        rw [parseStart, if_pos rfl, parseIndex_eq, isNumeral]
        rfl
      rw [parseParts_of_no_start noStart, decimal_eq, isNumeral]
      simp
  | some numeral =>
      obtain ⟨signed, value⟩ := numeral
      have notEmpty : length ≠ [] := by
        rintro rfl
        cases isNumeral
      have index := parseIndex_of_signedNumeral isNumeral
      rw [decimal_of_signedNumeral isNumeral]
      dsimp only at index ⊢
      simp only [Option.mem_some_iff, forall_eq']
      by_cases fits : value < 2 ^ 64
      · rw [if_pos fits] at index
        have isStart : parseStart [] length size = some (size - value) := by
          rw [parseStart, if_pos rfl, index]
          rfl
        have isEnd : parseEnd length size = .ok (some value) := by
          rw [parseEnd, if_neg notEmpty, index]
        rw [parseParts_of_ends isStart isEnd, Except.ok.injEq]
        cases signed with
        | true =>
            simp only [if_true, Option.bind_none]
            by_cases outside : value < size - value ∨ size ≤ size - value
            · rw [if_pos outside]
              exact iff_of_true rfl (by omega)
            · rw [if_neg outside]
              refine iff_of_false (by simp) ?_
              intro met
              have := met (by omega) (by omega)
              omega
        | false =>
            simp only [Bool.false_eq_true, if_false, Option.bind_some, ByteRangeSpec.within]
            by_cases satisfiable : 0 < value ∧ 0 < size
            · rw [if_pos satisfiable]
              by_cases outside : value < size - value ∨ size ≤ size - value
              · rw [if_pos outside]
                refine iff_of_false (by simp) ?_
                intro met
                have := met satisfiable.1 satisfiable.2
                omega
              · rw [if_neg outside, Option.some.injEq, Prod.mk.injEq]
                omega
            · rw [if_neg satisfiable, if_pos (by omega)]
              exact iff_of_true rfl (by omega)
      · rw [if_neg fits] at index
        have noStart : parseStart [] length size = none := by
          rw [parseStart, if_pos rfl, index]
          rfl
        rw [parseParts_of_no_start noStart, Except.ok.injEq]
        cases signed with
        | true => exact iff_of_true rfl fun _ _ => .inl (by omega)
        | false =>
            simp only [Bool.false_eq_true, if_false, Option.bind_some, ByteRangeSpec.within]
            by_cases satisfiable : 0 < value ∧ 0 < size
            · rw [if_pos satisfiable]
              refine iff_of_false (by simp) ?_
              intro met
              exact fits (met satisfiable.1 satisfiable.2).1
            · rw [if_neg satisfiable]
              exact iff_of_true rfl (by omega)

theorem parseParts_open_iff
    {first : List Char}
    (someFirst : first ≠ [])
    (sizeFits : size < 2 ^ 64) :
    parseParts first [] size =
        .ok ((decimal first).bind fun first => (ByteRangeSpec.fromFirst first).within size) ↔
      OpenMet first size := by
  unfold OpenMet
  cases isNumeral : signedNumeral first with
  | none =>
      have noStart : parseStart first [] size = none := by
        rw [parseStart, if_neg someFirst, parseIndex_eq, isNumeral]
        rfl
      rw [parseParts_of_no_start noStart, decimal_eq, isNumeral]
      simp
  | some numeral =>
      obtain ⟨signed, value⟩ := numeral
      have index := parseIndex_of_signedNumeral isNumeral
      rw [decimal_of_signedNumeral isNumeral]
      dsimp only at index ⊢
      simp only [Option.mem_some_iff, forall_eq']
      by_cases fits : value < 2 ^ 64
      · rw [if_pos fits] at index
        have isStart : parseStart first [] size = some value := by
          rw [parseStart, if_neg someFirst, index]
        by_cases isEmpty : size = 0
        · have faults : parseEnd [] size = .error .underflow := by
            rw [parseEnd, if_pos rfl, lastIndex, if_pos isEmpty]
            rfl
          rw [parseParts_of_fault isStart faults, if_pos isEmpty]
          exact iff_of_false (by simp) (by omega)
        · have isEnd : parseEnd [] size = .ok (some (size - 1)) := by
            rw [parseEnd, if_pos rfl, lastIndex, if_neg isEmpty]
            rfl
          rw [parseParts_of_ends isStart isEnd, Except.ok.injEq, if_neg isEmpty, min_self]
          by_cases outside : size ≤ value
          · rw [if_pos (.inr outside)]
            cases signed with
            | true => simp [outside]
            | false => simp [ByteRangeSpec.within, outside]
          · rw [if_neg (by omega)]
            cases signed with
            | true => simp [outside]
            | false => simp [ByteRangeSpec.within, outside]
      · rw [if_neg fits] at index
        have noStart : parseStart first [] size = none := by
          rw [parseStart, if_neg someFirst, index]
        rw [parseParts_of_no_start noStart, Except.ok.injEq]
        have behind : ¬value < size := by omega
        have large : 2 ^ 64 ≤ value := by omega
        have nothing : none = ((if signed = true then none else some value).bind
            fun first => (ByteRangeSpec.fromFirst first).within size) := by
          cases signed with
          | true => rfl
          | false => simp [ByteRangeSpec.within, behind]
        refine iff_of_true nothing ?_
        split
        · exact large
        · exact fun _ => by omega

theorem parseParts_bounded_iff
    {first last : List Char}
    (someFirst : first ≠ [])
    (someLast : last ≠ [])
    (sizeFits : size < 2 ^ 64) :
    parseParts first last size =
        .ok ((decimal first).bind fun first => (decimal last).bind fun last =>
          (ByteRangeSpec.bounded first last).within size) ↔
      BoundedMet first last size := by
  unfold BoundedMet
  cases isFirst : signedNumeral first with
  | none =>
      have noStart : parseStart first last size = none := by
        rw [parseStart, if_neg someFirst, parseIndex_eq, isFirst]
        rfl
      rw [parseParts_of_no_start noStart, decimal_eq first, isFirst]
      simp
  | some lower =>
      obtain ⟨lowerSigned, lower⟩ := lower
      have lowerIndex := parseIndex_of_signedNumeral isFirst
      rw [decimal_of_signedNumeral isFirst]
      cases isLast : signedNumeral last with
      | none =>
          have noEnd : parseEnd last size = .ok none := by
            rw [parseEnd, if_neg someLast, parseIndex_eq, isLast]
            rfl
          rw [parseParts_of_no_end noEnd, decimal_eq last, isLast]
          cases lowerSigned <;> simp
      | some upper =>
          obtain ⟨upperSigned, upper⟩ := upper
          have upperIndex := parseIndex_of_signedNumeral isLast
          rw [decimal_of_signedNumeral isLast]
          dsimp only at lowerIndex upperIndex ⊢
          simp only [Option.mem_some_iff, forall_eq']
          -- what is assigned, in terms of the two numbers
          have assigned : ((if lowerSigned = true then none else some lower).bind fun first =>
              (if upperSigned = true then none else some upper).bind fun last =>
                (ByteRangeSpec.bounded first last).within size) =
              if (lowerSigned ∨ upperSigned) ∨ upper < lower ∨ size ≤ lower then none
              else some (lower, min upper (size - 1)) := by
            cases lowerSigned with
            | true => simp
            | false =>
                cases upperSigned with
                | true => simp
                | false =>
                    simp only [Bool.false_eq_true, if_false, Option.bind_some,
                      ByteRangeSpec.within, or_self, false_or]
                    by_cases inside : lower ≤ upper ∧ lower < size
                    · rw [if_pos inside, if_neg (by omega)]
                    · rw [if_neg inside, if_pos (by omega)]
          rw [assigned]
          by_cases outside : upper < lower ∨ size ≤ lower
          · have nothing : parseParts first last size = .ok none := by
              by_cases lowerFits : lower < 2 ^ 64
              · rw [if_pos lowerFits] at lowerIndex
                have isStart : parseStart first last size = some lower := by
                  rw [parseStart, if_neg someFirst, lowerIndex]
                by_cases upperFits : upper < 2 ^ 64
                · rw [if_pos upperFits] at upperIndex
                  have isEnd : parseEnd last size = .ok (some upper) := by
                    rw [parseEnd, if_neg someLast, upperIndex]
                  rw [parseParts_of_ends isStart isEnd, if_pos outside]
                · rw [if_neg upperFits] at upperIndex
                  exact parseParts_of_no_end (by rw [parseEnd, if_neg someLast, upperIndex])
              · rw [if_neg lowerFits] at lowerIndex
                exact parseParts_of_no_start (by rw [parseStart, if_neg someFirst, lowerIndex])
            rw [nothing, if_pos (.inr outside)]
            exact iff_of_true rfl (by omega)
          · have lowerFits : lower < 2 ^ 64 := by omega
            rw [if_pos lowerFits] at lowerIndex
            have isStart : parseStart first last size = some lower := by
              rw [parseStart, if_neg someFirst, lowerIndex]
            have inside : lower ≤ upper ∧ lower < size := by omega
            simp only [outside, or_false, inside, forall_const]
            by_cases upperFits : upper < 2 ^ 64
            · rw [if_pos upperFits] at upperIndex
              have isEnd : parseEnd last size = .ok (some upper) := by
                rw [parseEnd, if_neg someLast, upperIndex]
              rw [parseParts_of_ends isStart isEnd, if_neg outside, Except.ok.injEq]
              have notLarge : ¬2 ^ 64 ≤ upper := by omega
              by_cases signed : lowerSigned ∨ upperSigned
              · rw [if_pos signed]
                exact iff_of_false (by simp) fun same => notLarge (same.mp signed)
              · rw [if_neg signed]
                exact iff_of_true rfl (iff_of_false signed notLarge)
            · rw [if_neg upperFits] at upperIndex
              have noEnd : parseEnd last size = .ok none := by
                rw [parseEnd, if_neg someLast, upperIndex]
              rw [parseParts_of_no_end noEnd, Except.ok.injEq]
              have large : 2 ^ 64 ≤ upper := by omega
              by_cases signed : lowerSigned ∨ upperSigned
              · rw [if_pos signed]
                exact iff_of_true rfl (iff_of_true signed large)
              · rw [if_neg signed]
                exact iff_of_false (by simp) fun same => signed (same.mpr large)

/-- A range that is returned lies in the resource. -/
theorem within_of_parseParts
    (parsed : parseParts startStr endStr size = .ok (some (start, last))) :
    start ≤ last ∧ last < size := by
  cases isStart : parseStart startStr endStr size with
  | none =>
      rw [parseParts_of_no_start isStart] at parsed
      cases parsed
  | some first =>
      cases isEnd : parseEnd endStr size with
      | error fault =>
          cases fault
          rw [parseParts_of_fault isStart isEnd] at parsed
          cases parsed
      | ok final =>
          cases final with
          | none =>
              rw [parseParts_of_no_end isEnd] at parsed
              cases parsed
          | some final =>
              rw [parseParts_of_ends isStart isEnd, Except.ok.injEq] at parsed
              split at parsed
              · cases parsed
              · rename_i inside
                rw [Option.some.injEq, Prod.mk.injEq] at parsed
                omega

end Parts

/-! ## Headers -/

end Pod
end NostrBbs
