import NostrBbs.Lib.Doubles
import NostrBbs.Lib.Fallible
import NostrBbs.Mesh.RoundTrip

/-!
# Canonical JSON of hand records

The writer whose text the root of a hand is the digest of: members by the UTF-16 units of
their names, strings and numbers as ECMAScript writes them.  It agrees with the writer of the
mesh on integers and names of one unit a character, and its text determines the value.
-/

namespace NostrBbs
namespace Poker

open Lib
open Relay (JsonValue)
open Relay.JsonValue (byParts Built arranged written)

inductive PokerError where
  | canonical (message : String)
deriving DecidableEq, Repr

/-! ## Strings -/

/-- The units that a text is encoded in. -/
def encodeUtf16 (text : String) : List Nat :=
  text.toList.flatMap fun char =>
    if char.toNat < 0x10000 then [char.toNat]
    else [0xD800 + (char.toNat - 0x10000) / 0x400, 0xDC00 + (char.toNat - 0x10000) % 0x400]

def utf16Before (first second : String) : Bool :=
  encodeUtf16 first ≤ encodeUtf16 second

def lowerHexDigits (value : Nat) : List Char :=
  let digits := Nat.toDigits 16 value
  List.replicate (4 - digits.length) '0' ++ digits

def writeChar (char : Char) : List Char :=
  if char = '"' then ['\\', '"']
  else if char = '\\' then ['\\', '\\']
  else if char.toNat = 0x8 then ['\\', 'b']
  else if char = '\t' then ['\\', 't']
  else if char = '\n' then ['\\', 'n']
  else if char.toNat = 0xC then ['\\', 'f']
  else if char = '\r' then ['\\', 'r']
  else if char.toNat < 0x20 then ['\\', 'u'] ++ lowerHexDigits char.toNat
  else [char]

def writeString (text : String) : List Char :=
  ['"'] ++ text.toList.flatMap writeChar ++ ['"']

/-! ## Numbers -/

/-- A number of a JSON value. -/
inductive Number where
  | posInt (value : Nat)
  | negInt (value : Int)
  | float (value : Double)

/-- The double that a text is parsed as. -/
def readFloat (chars : List Char) : Option Double :=
  (readLiteral chars).bind fun (negative, coefficient, exponent) =>
    Double.ofDecimal negative coefficient exponent

namespace Number

/-- The number that a text is for: an integer of 64 bits, or a double. -/
def read (chars : List Char) : Option Number :=
  match readInteger chars with
  | some value =>
      if 0 ≤ value ∧ value < 2 ^ 64 ∧ chars.head? ≠ some '-' then some (.posInt value.toNat)
      else if value < 0 ∧ -2 ^ 63 ≤ value then some (.negInt value)
      else (readFloat chars).map .float
  | none => (readFloat chars).map .float

def asU64 : Number → Option Nat
  | posInt value => some value
  | _ => none

def asI64 : Number → Option Int
  | posInt value => if value < 2 ^ 63 then some value else none
  | negInt value => some value
  | float _ => none

def asF64 : Number → Option Double
  | posInt value => Double.ofDecimal false value 0
  | negInt value => Double.ofDecimal true value.natAbs 0
  | float value => some value

/-- What a number stands for. -/
def value : Number → ℚ
  | posInt value => value
  | negInt value => value
  | float value => value.value

end Number

/-- The digits and the exponent of a scientific form. -/
def splitSci (sci : List Char) : Except PokerError (List Char × Int) :=
  let bad : PokerError := .canonical ("unexpected float form " ++ String.ofList sci)
  match sci.dropWhile (· ≠ 'e') with
  | _ :: rest =>
      match readInteger rest with
      | some exponent => .ok ((sci.takeWhile (· ≠ 'e')).filter (· ≠ '.'), exponent)
      | none => .error bad
  | [] => .error bad

/-- Digits that end first, raised by one: a nine turns into a zero, and the next one is raised. -/
def incrementReversed : List Char → List Char
  | [] => ['1']
  | '9' :: rest => '0' :: incrementReversed rest
  | digit :: rest => Char.ofNat (digit.toNat + 1) :: rest

def incrementDecimal (digits : List Char) : List Char :=
  (incrementReversed digits.reverse).reverse

/-- Whether some digits before an exponent are parsed as a double. -/
def roundTrips (double : Double) (count : Nat) (exponent : Int) (digits : List Char) : Bool :=
  digits.length = count &&
    (readFloat (digits.take 1 ++ '.' :: (digits.drop 1 ++ 'e' :: integerText exponent))).map
      Double.value = some double.value

def isEven (digits : List Char) : Bool :=
  digits.getLast?.any fun digit => (digit.toNat - '0'.toNat) % 2 = 0

/-- The shortest digits, or the even ones of two that are as close: a tie shows in exact digits
that are one more and end in a five. -/
def settleTie (double : Double) (digits : List Char) (exponent : Int) (exact : List Char)
    (exactExponent : Int) : List Char :=
  let count := digits.length
  if exactExponent ≠ exponent ∨ exact.length ≠ count + 1 ∨ exact.getLast? ≠ some '5' then digits
  else
    let low := exact.take count
    let high := incrementDecimal low
    let candidates := [low, high].filter (roundTrips double count exponent)
    ((candidates.find? isEven).or candidates.head?).getD digits

/-- The shortest digits of a double, and the exponent of the first one. -/
def esDigits (double : Double) : Except PokerError (List Char × Int) := do
  let (digits, exponent) ← splitSci double.lowerExp
  let (exact, exactExponent) ← splitSci (double.lowerExpWith 800)
  return (settleTie double digits exponent (trimEndZeros exact) exactExponent, exponent)

/-- Digits with a point after some of them, as a literal. -/
def layOut (digits : List Char) (point : Int) : List Char :=
  let count : Int := digits.length
  if count ≤ point ∧ point ≤ 21 then digits ++ List.replicate (point - count).toNat '0'
  else if 0 < point ∧ point ≤ 21 then
    digits.take point.toNat ++ '.' :: digits.drop point.toNat
  else if -6 < point ∧ point ≤ 0 then
    '0' :: '.' :: (List.replicate (-point).toNat '0' ++ digits)
  else
    let exponent := point - 1
    let sign := if exponent < 0 then '-' else '+'
    let power := 'e' :: sign :: Nat.toDigits 10 exponent.natAbs
    if digits.drop 1 = [] then digits.take 1 ++ power
    else digits.take 1 ++ '.' :: (digits.drop 1 ++ power)

def esNumber (double : Double) : Except PokerError (List Char) := do
  if double.magnitude = 0 then
    return ['0']
  let sign := if double.value < 0 then ['-'] else []
  let (digits, exponent) ← esDigits double.abs
  return sign ++ layOut digits (exponent + 1)

def maxSafeInteger : Nat := 2 ^ 53 - 1

def jcsNumber (number : Number) : Except PokerError (List Char) :=
  match number.asU64 with
  | some value =>
      if value ≤ maxSafeInteger then .ok (Nat.toDigits 10 value)
      else .error (.canonical (toString value ++ " is beyond 2^53 - 1"))
  | none =>
      match number.asI64 with
      | some value =>
          if value.natAbs ≤ maxSafeInteger then .ok (integerText value)
          else .error (.canonical (toString value ++ " is beyond -(2^53 - 1)"))
      | none =>
          match number.asF64 with
          | some value => esNumber value
          | none => .error (.canonical "not a number")

/-- The text of a number that is given by its text.  A value has no other numbers than those
that can be read. -/
def writeNumber (text : String) : Except PokerError (List Char) :=
  match Number.read text.toList with
  | some number => jcsNumber number
  | none => .error (.canonical (text ++ " is not a number"))

/-! ## Values -/

mutual

def canonicalize : JsonValue → Except PokerError (List Char)
  | .null => .ok "null".toList
  | .bool value => .ok (if value then "true".toList else "false".toList)
  | .number text => writeNumber text
  | .string text => .ok (writeString text)
  | .array items => do
      let texts ← (canonicalizeItems items).mapM id
      return ['['] ++ [','].intercalate texts ++ [']']
  | .object fields => do
      let members := (canonicalizeFields fields).mergeSort fun first second =>
        utf16Before first.1 second.1
      let texts ← members.mapM fun member =>
        member.2.map fun text => writeString member.1 ++ [':'] ++ text
      return ['\x7b'] ++ [','].intercalate texts ++ ['\x7d']

def canonicalizeItems : List JsonValue → List (Except PokerError (List Char))
  | [] => []
  | item :: rest => canonicalize item :: canonicalizeItems rest

def canonicalizeFields :
    List (String × JsonValue) → List (String × Except PokerError (List Char))
  | [] => []
  | field :: rest => canonicalizeField field :: canonicalizeFields rest

def canonicalizeField : String × JsonValue → String × Except PokerError (List Char)
  | (name, value) => (name, canonicalize value)

end

/-! ## Digits and their value -/

section Digits

variable {digits : List Char} {exponent : Int}

theorem splitSci_scientific
    (areDigits : AreDigits digits) :
    splitSci (scientific digits exponent) = .ok (digits, exponent) := by
  set mantissa := digits.take 1 ++ (if digits.length ≤ 1 then [] else '.' :: digits.drop 1)
    with isMantissa
  have inMantissa : ∀ char ∈ mantissa, char ∈ digits ∨ char = '.' := by
    intro char isChar
    rcases List.mem_append.mp isChar with isFirst | isLater
    · exact .inl (List.mem_of_mem_take isFirst)
    · split_ifs at isLater
      · cases isLater
      · rcases List.mem_cons.mp isLater with rfl | isDigit
        · exact .inr rfl
        · exact .inl (List.mem_of_mem_drop isDigit)
  have beforeExponent : ∀ char ∈ mantissa, Decidable.decide (char ≠ 'e') = true := by
    intro char isChar
    rw [decide_eq_true_eq]
    rintro rfl
    rcases inMantissa _ isChar with isDigit | isPoint
    · cases areDigits _ isDigit
    · cases isPoint
  have stops : ∀ char ∈ ('e' :: integerText exponent).head?, Decidable.decide (char ≠ 'e') = false := by
    rintro char ⟨⟩
    rfl
  have noPoint : digits.filter (· ≠ '.') = digits := by
    rw [List.filter_eq_self]
    intro char isChar
    rw [decide_eq_true_eq]
    rintro rfl
    cases areDigits _ isChar
  have kept : mantissa.filter (· ≠ '.') = digits := by
    conv_rhs => rw [← noPoint, ← List.take_append_drop 1 digits]
    rw [isMantissa, List.filter_append, List.filter_append]
    congr 1
    split_ifs with isShort
    · rw [List.drop_eq_nil_of_le isShort]
    · rfl
  unfold splitSci scientific
  rw [← isMantissa, takeWhile_append_of_stop beforeExponent stops,
    dropWhile_append_of_stop beforeExponent stops, kept]
  dsimp only
  rw [readInteger_integerText]

/-- Digits with a point are read as their value. -/
theorem readFloat_point
    (notEmpty : digits ≠ [])
    (areDigits : AreDigits digits) :
    readFloat (digits.take 1 ++ '.' :: (digits.drop 1 ++ 'e' :: integerText exponent)) =
      Double.ofDecimal false (digitsValue digits) (exponent + 1 - digits.length) := by
  have isExponent : readExponent ('e' :: integerText exponent) = some exponent :=
    readInteger_integerText exponent
  have together : digits.take 1 ++ digits.drop 1 = digits := List.take_append_drop 1 digits
  have isMagnitude := readMagnitude_fraction (by rw [together]; exact notEmpty)
    (areDigits.sublist (List.take_sublist 1 digits))
    (areDigits.sublist (List.drop_sublist 1 digits)) isExponent
  rw [together, List.length_drop] at isMagnitude
  obtain ⟨first, rest, isDigits⟩ := List.exists_cons_of_ne_nil notEmpty
  have notSign : first ≠ '-' := by
    rintro rfl
    exact areDigits.head_ne (by decide) isDigits
  have isLiteral : readLiteral
      (digits.take 1 ++ '.' :: (digits.drop 1 ++ 'e' :: integerText exponent)) =
        some (false, digitsValue digits, exponent - (digits.length - 1 : Nat)) := by
    unfold readLiteral
    split
    · rename_i isSign
      rw [isDigits] at isSign
      exact absurd (List.cons.inj isSign).1 notSign
    · rw [isMagnitude, Option.map_some]
  unfold readFloat
  rw [isLiteral, Option.bind_some]
  have oneOrMore : 1 ≤ digits.length := by
    rw [isDigits]
    exact Nat.le_add_left 1 _
  change Double.ofDecimal false (digitsValue digits) (exponent - (digits.length - 1 : Nat)) = _
  rw [Nat.cast_sub oneOrMore]
  congr 1
  omega

theorem isDigit_succ
    {digit : Char}
    (isDigit : digit.isDigit = true)
    (notNine : digit ≠ '9') :
    (Char.ofNat (digit.toNat + 1)).isDigit = true := by
  have small : ∀ value < 57, 48 ≤ value → (Char.ofNat (value + 1)).isDigit = true := by decide
  simp only [Char.isDigit, Bool.and_eq_true, decide_eq_true_eq, UInt32.le_iff_toNat_le, ge_iff_le]
    at isDigit
  change 48 ≤ digit.toNat ∧ digit.toNat ≤ 57 at isDigit
  refine small _ (lt_of_le_of_ne isDigit.2 fun isNine => notNine ?_) isDigit.1
  rw [← Char.ofNat_toNat digit, isNine]

theorem areDigits_incrementReversed
    (areDigits : AreDigits digits) :
    AreDigits (incrementReversed digits) := by
  induction digits with
  | nil =>
      intro char isChar
      rw [List.mem_singleton.mp isChar]
      rfl
  | cons digit rest inductionHypothesis =>
      have restDigits : AreDigits rest := areDigits.sublist (List.sublist_cons_self digit rest)
      unfold incrementReversed
      split
      · rename_i isEmpty
        cases isEmpty
      · rename_i isNine
        cases isNine
        intro char isChar
        rcases List.mem_cons.mp isChar with rfl | isLater
        · rfl
        · exact inductionHypothesis restDigits char isLater
      · rename_i first others notNine isDigits
        cases isDigits
        intro char isChar
        rcases List.mem_cons.mp isChar with rfl | isLater
        · exact isDigit_succ (areDigits _ List.mem_cons_self) notNine
        · exact restDigits char isLater

theorem areDigits_incrementDecimal
    (areDigits : AreDigits digits) :
    AreDigits (incrementDecimal digits) := by
  intro char isChar
  refine areDigits_incrementReversed ?_ char (List.mem_reverse.mp isChar)
  exact fun other isOther => areDigits other (List.mem_reverse.mp isOther)

end Digits

/-- Digits that stand for a double before an exponent. -/
structure StandFor (double : Double) (digits : List Char) (exponent : Int) : Prop where
  notEmpty : digits ≠ []
  areDigits : AreDigits digits
  rounds : nearest (decimal (digitsValue digits) (exponent + 1 - digits.length)) =
    double.magnitude

/-- Digits that are parsed as a double stand for it. -/
theorem standFor_of_roundTrips
    {double : Double}
    (notNegative : double.negative = false)
    {count : Nat}
    (positive : 0 < count)
    {digits : List Char}
    {exponent : Int}
    (areDigits : AreDigits digits)
    (roundTrip : roundTrips double count exponent digits = true) :
    StandFor double digits exponent := by
  unfold roundTrips at roundTrip
  rw [Bool.and_eq_true, decide_eq_true_eq, decide_eq_true_eq] at roundTrip
  obtain ⟨isLength, isParsed⟩ := roundTrip
  have notEmpty : digits ≠ [] := by
    rintro rfl
    rw [← isLength] at positive
    exact Nat.lt_irrefl 0 positive
  rw [readFloat_point notEmpty areDigits, Option.map_eq_some_iff] at isParsed
  obtain ⟨parsed, isParsed, sameValue⟩ := isParsed
  obtain ⟨parsedSign, rounds⟩ := Double.nearest_of_ofDecimal isParsed
  unfold Double.value at sameValue
  rw [parsedSign, notNegative] at sameValue
  exact ⟨notEmpty, areDigits, rounds.trans sameValue⟩

theorem standFor_settleTie
    {double : Double}
    (notNegative : double.negative = false)
    {digits exact : List Char}
    {exponent : Int}
    (isShortest : StandFor double digits exponent)
    (exactDigits : AreDigits exact)
    (exactExponent : Int) :
    StandFor double (settleTie double digits exponent exact exactExponent) exponent := by
  have positive := List.length_pos_iff.mpr isShortest.notEmpty
  have lowDigits : AreDigits (exact.take digits.length) :=
    exactDigits.sublist (List.take_sublist _ _)
  have highDigits := areDigits_incrementDecimal lowDigits
  unfold settleTie
  dsimp only
  split_ifs
  · exact isShortest
  · set candidates := [exact.take digits.length, incrementDecimal (exact.take digits.length)].filter
      (roundTrips double digits.length exponent) with isCandidates
    have eachStands : ∀ candidate ∈ candidates, StandFor double candidate exponent := by
      intro candidate isCandidate
      obtain ⟨isOne, roundTrip⟩ := List.mem_filter.mp isCandidate
      refine standFor_of_roundTrips notNegative positive ?_ roundTrip
      rcases List.mem_cons.mp isOne with rfl | isHigh
      · exact lowDigits
      · rw [List.mem_singleton.mp isHigh]
        exact highDigits
    cases isEvenOne : candidates.find? isEven with
    | some candidate =>
        rw [Option.some_or, Option.getD_some]
        exact eachStands candidate (List.mem_of_find?_eq_some isEvenOne)
    | none =>
        rw [Option.none_or]
        cases isHead : candidates.head? with
        | some candidate =>
            rw [Option.getD_some]
            exact eachStands candidate (List.mem_of_head? isHead)
        | none =>
            rw [Option.getD_none]
            exact isShortest

/-- The digits of a double stand for it. -/
theorem esDigits_standFor
    {double : Double}
    (notNegative : double.negative = false)
    (notZero : double.magnitude ≠ 0) :
    ∃ digits exponent, esDigits double = .ok (digits, exponent) ∧
      StandFor double digits exponent := by
  obtain ⟨notEmpty, rounds⟩ := Double.nearest_lowerExp notZero
  have areDigits : AreDigits (trimEndZeros double.shortDigits) :=
    (areDigits_toDigits _).trimEndZeros
  have isShortest : StandFor double (trimEndZeros double.shortDigits)
      (double.shortDigits.length - 1 + (shortest double.magnitude).2) :=
    ⟨notEmpty, areDigits, rounds⟩
  have exactDigits : AreDigits ((Nat.toDigits 10 (units double.magnitude) ++
      List.replicate 801 '0').take 801) :=
    ((areDigits_toDigits _).append (areDigits_replicate _)).sublist (List.take_sublist _ _)
  refine ⟨_, _, ?_, standFor_settleTie notNegative isShortest exactDigits.trimEndZeros
    ((Nat.toDigits 10 (units double.magnitude)).length - 1 - 1074)⟩
  unfold esDigits Double.lowerExp Double.lowerExpWith
  rw [splitSci_scientific areDigits]
  change (splitSci (scientific _ _) >>= _) = _
  rw [splitSci_scientific exactDigits]
  rfl

/-! ## Numbers as texts -/

section Layout

variable {digits : List Char} {point : Int}

theorem readExponent_signed
    (exponent : Int) :
    readExponent ('e' :: (if exponent < 0 then '-' else '+') ::
      Nat.toDigits 10 exponent.natAbs) = some exponent := by
  split_ifs with isNegative
  · change (readDigits _).map (fun value : Nat => -(value : Int)) = _
    rw [readDigits_toDigits, Option.map_some]
    congr 1
    omega
  · change (readDigits _).map (fun value : Nat => (value : Int)) = _
    rw [readDigits_toDigits, Option.map_some]
    congr 1
    omega

/-- A literal that is laid out is read as the value of its digits. -/
theorem readMagnitude_layOut
    (notEmpty : digits ≠ [])
    (areDigits : AreDigits digits) :
    ∃ coefficient exponent, readMagnitude (layOut digits point) = some (coefficient, exponent) ∧
      decimal coefficient exponent = decimal (digitsValue digits) (point - digits.length) := by
  have oneOrMore : 1 ≤ digits.length := List.length_pos_iff.mpr notEmpty
  have noExponent : readExponent [] = some 0 := rfl
  have hasExponent := readExponent_signed (point - 1)
  unfold layOut
  dsimp only
  generalize (if point - 1 < 0 then '-' else '+') = sign at hasExponent ⊢
  split_ifs with isInteger hasPoint isSmall onlyOne
  · -- zeros after the digits
    have read := readMagnitude_whole (by simp [notEmpty])
      (areDigits.append (areDigits_replicate (point - digits.length).toNat)) noExponent
    rw [List.append_nil] at read
    refine ⟨_, _, read, ?_⟩
    rw [digitsValue_append, digitsValue_replicate, List.length_replicate, Nat.add_zero,
      decimal_mul_pow]
    congr 1
    omega
  · -- a point between the digits
    have together : digits.take point.toNat ++ digits.drop point.toNat = digits :=
      List.take_append_drop _ digits
    have read := readMagnitude_fraction (by rw [together]; exact notEmpty)
      (areDigits.sublist (List.take_sublist point.toNat digits))
      (areDigits.sublist (List.drop_sublist point.toNat digits)) noExponent
    rw [List.append_nil, together, List.length_drop] at read
    refine ⟨_, _, read, ?_⟩
    congr 1
    omega
  · -- zeros between the point and the digits
    have read := readMagnitude_fraction (by simp) (areDigits_replicate 1)
      ((areDigits_replicate (-point).toNat).append areDigits) noExponent
    rw [List.append_nil] at read
    refine ⟨_, _, read, ?_⟩
    have zeros : digitsValue (List.replicate 1 '0' ++
        (List.replicate (-point).toNat '0' ++ digits)) = digitsValue digits := by
      rw [digitsValue_append, digitsValue_append, digitsValue_replicate, digitsValue_replicate,
        Nat.zero_mul, Nat.zero_mul, Nat.zero_add, Nat.zero_add]
    rw [zeros, List.length_append, List.length_replicate]
    congr 1
    omega
  · -- one digit before the exponent
    have allTaken : digits.take 1 = digits := by
      conv_rhs => rw [← List.take_append_drop 1 digits, onlyOne, List.append_nil]
    have isOne : digits.length = 1 := by
      have lengths := congrArg List.length onlyOne
      rw [List.length_drop, List.length_nil] at lengths
      omega
    rw [allTaken]
    refine ⟨_, _, readMagnitude_whole notEmpty areDigits hasExponent, ?_⟩
    rw [isOne]
    rfl
  · -- a point after the first digit
    have together : digits.take 1 ++ digits.drop 1 = digits := List.take_append_drop 1 digits
    have read := readMagnitude_fraction (by rw [together]; exact notEmpty)
      (areDigits.sublist (List.take_sublist 1 digits))
      (areDigits.sublist (List.drop_sublist 1 digits)) hasExponent
    rw [together, List.length_drop] at read
    refine ⟨_, _, read, ?_⟩
    congr 1
    omega

end Layout

/-- The characters of a literal that is laid out. -/
theorem layOut_chars
    {digits : List Char}
    (notEmpty : digits ≠ [])
    (areDigits : AreDigits digits)
    (point : Int) :
    (∃ head tail, layOut digits point = head :: tail ∧ head.isDigit = true) ∧
      ∀ char ∈ layOut digits point, Relay.JsonValue.isNumberChar char = true := by
  have ofDigits : ∀ chars : List Char, AreDigits chars →
      ∀ char ∈ chars, Relay.JsonValue.isNumberChar char = true := by
    intro chars charDigits char isChar
    unfold Relay.JsonValue.isNumberChar
    rw [charDigits char isChar]
    rfl
  have taken : ∀ count, ∀ char ∈ digits.take count,
      Relay.JsonValue.isNumberChar char = true := fun count =>
    ofDigits _ (areDigits.sublist (List.take_sublist count digits))
  have dropped : ∀ count, ∀ char ∈ digits.drop count,
      Relay.JsonValue.isNumberChar char = true := fun count =>
    ofDigits _ (areDigits.sublist (List.drop_sublist count digits))
  have zeros : ∀ count, ∀ char ∈ List.replicate count '0',
      Relay.JsonValue.isNumberChar char = true := fun count =>
    ofDigits _ (areDigits_replicate count)
  have power := ofDigits _ (areDigits_toDigits (point - 1).natAbs)
  have sign : Relay.JsonValue.isNumberChar (if point - 1 < 0 then '-' else '+') = true := by
    split_ifs <;> rfl
  obtain ⟨first, rest, isDigits⟩ := List.exists_cons_of_ne_nil notEmpty
  have firstDigit : first.isDigit = true := areDigits first (by rw [isDigits]; exact .head rest)
  have startsWith : ∀ count tail, 0 < count →
      ∃ others, digits.take count ++ tail = first :: others := by
    intro count tail positive
    obtain ⟨less, rfl⟩ := Nat.exists_eq_add_of_lt positive
    rw [isDigits, Nat.zero_add]
    exact ⟨_, rfl⟩
  unfold layOut
  dsimp only
  generalize (if point - 1 < 0 then '-' else '+') = signChar at sign ⊢
  split_ifs with isInteger hasPoint isSmall onlyOne
  · refine ⟨⟨first, _, by rw [isDigits]; rfl, firstDigit⟩, ?_⟩
    exact List.forall_mem_append.mpr ⟨ofDigits _ areDigits, zeros _⟩
  · obtain ⟨others, isFirst⟩ := startsWith point.toNat ('.' :: digits.drop point.toNat) (by omega)
    refine ⟨⟨first, others, isFirst, firstDigit⟩, List.forall_mem_append.mpr ⟨taken _, ?_⟩⟩
    exact List.forall_mem_cons.mpr ⟨rfl, dropped _⟩
  · refine ⟨⟨'0', _, rfl, rfl⟩, List.forall_mem_cons.mpr ⟨rfl, List.forall_mem_cons.mpr ⟨rfl, ?_⟩⟩⟩
    exact List.forall_mem_append.mpr ⟨zeros _, ofDigits _ areDigits⟩
  · obtain ⟨others, isFirst⟩ := startsWith 1 ('e' :: signChar ::
      Nat.toDigits 10 (point - 1).natAbs) Nat.one_pos
    refine ⟨⟨first, others, isFirst, firstDigit⟩, List.forall_mem_append.mpr ⟨taken _, ?_⟩⟩
    exact List.forall_mem_cons.mpr ⟨rfl, List.forall_mem_cons.mpr ⟨sign, power⟩⟩
  · obtain ⟨others, isFirst⟩ := startsWith 1 ('.' :: (digits.drop 1 ++ 'e' :: signChar ::
      Nat.toDigits 10 (point - 1).natAbs)) Nat.one_pos
    refine ⟨⟨first, others, isFirst, firstDigit⟩, List.forall_mem_append.mpr ⟨taken _, ?_⟩⟩
    refine List.forall_mem_cons.mpr ⟨rfl, List.forall_mem_append.mpr ⟨dropped _, ?_⟩⟩
    exact List.forall_mem_cons.mpr ⟨rfl, List.forall_mem_cons.mpr ⟨sign, power⟩⟩

/-! ## Numbers are read back -/

/-- A text of a number that is parsed as a value. -/
structure Spells (text : List Char) (value : ℚ) : Prop where
  isParsed : (readFloat text).map Double.value = some value
  notEmpty : text ≠ []
  areChars : ∀ char ∈ text, Relay.JsonValue.isNumberChar char = true

theorem readFloat_unsigned
    {text : List Char}
    (notSigned : text.head? ≠ some '-')
    {coefficient : Nat}
    {exponent : Int}
    (isMagnitude : readMagnitude text = some (coefficient, exponent)) :
    readFloat text = Double.ofDecimal false coefficient exponent ∧
      readFloat ('-' :: text) = Double.ofDecimal true coefficient exponent := by
  have isLiteral : readLiteral text = some (false, coefficient, exponent) := by
    unfold readLiteral
    split
    · exact absurd rfl notSigned
    · rw [isMagnitude, Option.map_some]
  have isNegative : readLiteral ('-' :: text) = some (true, coefficient, exponent) := by
    rw [readLiteral, isMagnitude, Option.map_some]
  unfold readFloat
  rw [isLiteral, isNegative]
  exact ⟨rfl, rfl⟩

/-- Digits do not start with a sign. -/
theorem head_ne_sign
    {text : List Char}
    (startsWithDigit : ∃ head tail, text = head :: tail ∧ head.isDigit = true) :
    text.head? ≠ some '-' := by
  obtain ⟨head, tail, rfl, isDigit⟩ := startsWithDigit
  intro isSign
  cases isSign
  cases isDigit

/-- A safe integer is parsed from its digits as itself. -/
theorem integer_spells
    {value : Int}
    (isSafe : value.natAbs ≤ maxSafeInteger) :
    Spells (integerText value) value := by
  have fits : value.natAbs < 2 ^ 53 := by
    unfold maxSafeInteger at isSafe
    omega
  have areDigits := areDigits_toDigits value.natAbs
  have digitChars : ∀ char ∈ Nat.toDigits 10 value.natAbs,
      Relay.JsonValue.isNumberChar char = true := by
    intro char isChar
    unfold Relay.JsonValue.isNumberChar
    rw [areDigits char isChar]
    rfl
  have startsWithDigit : ∃ head tail, Nat.toDigits 10 value.natAbs = head :: tail ∧
      head.isDigit = true := by
    obtain ⟨head, tail, isText⟩ := List.exists_cons_of_ne_nil (@Nat.toDigits_ne_nil value.natAbs 10)
    exact ⟨head, tail, isText, areDigits head (by rw [isText]; exact .head tail)⟩
  have isMagnitude : readMagnitude (Nat.toDigits 10 value.natAbs) = some (value.natAbs, 0) := by
    have read := readMagnitude_whole Nat.toDigits_ne_nil areDigits (rfl : readExponent [] = some 0)
    rwa [List.append_nil, digitsValue_toDigits] at read
  obtain ⟨isPositive, isNegative⟩ := readFloat_unsigned (head_ne_sign startsWithDigit) isMagnitude
  have isDecimal : decimal value.natAbs 0 = value.natAbs := by
    unfold decimal
    rw [zpow_zero, mul_one]
  have rounds : nearest (decimal value.natAbs 0) = value.natAbs := by
    rw [isDecimal]
    exact nearest_of_isDouble (isDouble_natCast fits)
  unfold integerText
  split_ifs with belowZero
  · refine ⟨?_, List.cons_ne_nil _ _, List.forall_mem_cons.mpr ⟨rfl, digitChars⟩⟩
    rw [isNegative, @Double.ofDecimal_of_nearest ⟨true, _, isDouble_natCast fits⟩ _ _ rounds]
    change some (-((value.natAbs : Nat) : ℚ)) = _
    rw [← Int.cast_natCast, ← Int.cast_neg]
    congr 2
    omega
  · refine ⟨?_, Nat.toDigits_ne_nil, digitChars⟩
    rw [isPositive, @Double.ofDecimal_of_nearest ⟨false, _, isDouble_natCast fits⟩ _ _ rounds]
    change some ((value.natAbs : Nat) : ℚ) = _
    rw [← Int.cast_natCast]
    congr 2
    omega

/-- A double is written as a text that is parsed as it. -/
theorem esNumber_spells
    (double : Double) :
    ∃ text, esNumber double = .ok text ∧ Spells text double.value := by
  unfold esNumber
  by_cases isZero : double.magnitude = 0
  · have isValue : double.value = (0 : Int) := by
      unfold Double.value
      rw [isZero, neg_zero, ite_self, Int.cast_zero]
    have zeroSpells : Spells (integerText 0) (0 : Int) := integer_spells (Nat.zero_le _)
    rw [if_pos isZero, isValue]
    exact ⟨['0'], rfl, zeroSpells⟩
  · have positive : 0 < double.magnitude := lt_of_le_of_ne double.magnitude_nonneg (Ne.symm isZero)
    obtain ⟨digits, exponent, isDigits, stands⟩ :=
      @esDigits_standFor double.abs rfl isZero
    obtain ⟨startsWithDigit, areChars⟩ :=
      layOut_chars stands.notEmpty stands.areDigits (exponent + 1)
    obtain ⟨coefficient, power, isMagnitude, sameDecimal⟩ :=
      @readMagnitude_layOut digits (exponent + 1) stands.notEmpty stands.areDigits
    obtain ⟨isPositive, isNegative⟩ :=
      readFloat_unsigned (head_ne_sign startsWithDigit) isMagnitude
    have isRead : Double.ofDecimal double.negative coefficient power = some double :=
      Double.ofDecimal_of_nearest (sameDecimal ▸ stands.rounds)
    have notEmpty : layOut digits (exponent + 1) ≠ [] := by
      obtain ⟨head, tail, isText, -⟩ := startsWithDigit
      rw [isText]
      exact List.cons_ne_nil head tail
    rw [if_neg isZero, isDigits]
    cases sign : double.negative with
    | true =>
        have belowZero : double.value < 0 := by
          unfold Double.value
          rw [if_pos sign]
          exact neg_neg_of_pos positive
        rw [sign] at isRead
        rw [if_pos belowZero]
        refine ⟨'-' :: layOut digits (exponent + 1), rfl, ?_, List.cons_ne_nil _ _,
          List.forall_mem_cons.mpr ⟨rfl, areChars⟩⟩
        rw [isNegative, isRead, Option.map_some]
    | false =>
        have notBelowZero : ¬double.value < 0 := by
          unfold Double.value
          rw [if_neg (by rw [sign]; exact Bool.false_ne_true)]
          exact not_lt.mpr positive.le
        rw [sign] at isRead
        rw [if_neg notBelowZero]
        refine ⟨layOut digits (exponent + 1), rfl, ?_, notEmpty, areChars⟩
        rw [isPositive, isRead, Option.map_some]

/-- A number that is written is spelled by its text. -/
theorem jcsNumber_spells
    {number : Number}
    {text : List Char}
    (isWritten : jcsNumber number = .ok text) :
    Spells text number.value := by
  cases number with
  | posInt value =>
      unfold jcsNumber Number.asU64 at isWritten
      dsimp only at isWritten
      split_ifs at isWritten with isSafe
      cases isWritten
      exact @integer_spells value isSafe
  | negInt value =>
      unfold jcsNumber Number.asU64 Number.asI64 at isWritten
      dsimp only at isWritten
      split_ifs at isWritten with isSafe
      cases isWritten
      exact integer_spells isSafe
  | float value =>
      obtain ⟨other, isOther, spells⟩ := esNumber_spells value
      change esNumber value = _ at isWritten
      rw [isOther] at isWritten
      cases isWritten
      exact spells

/-! ## Strings are written alike -/

theorem writeChar_eq
    (char : Char) :
    writeChar char = Shared.escapeChar char := by
  by_cases isLow : char.toNat < 32
  · have alike : ∀ value < 32, writeChar (Char.ofNat value) =
        Shared.escapeChar (Char.ofNat value) := by
      decide
    rw [← Char.ofNat_toNat char]
    exact alike _ isLow
  · have notTab : char ≠ '\t' := by
      rintro rfl
      exact isLow (by decide)
    have notFeed : char ≠ '\n' := by
      rintro rfl
      exact isLow (by decide)
    have notReturn : char ≠ '\r' := by
      rintro rfl
      exact isLow (by decide)
    have notBack : char.toNat ≠ 8 := by omega
    have notForm : char.toNat ≠ 12 := by omega
    unfold writeChar Shared.escapeChar
    simp only [notTab, notFeed, notReturn, isLow, notBack, notForm, if_false]

theorem writeString_eq
    (text : String) :
    writeString text = Shared.jsonString text := by
  have sameChars : writeChar = Shared.escapeChar := funext writeChar_eq
  unfold writeString Shared.jsonString
  rw [sameChars]

/-! ## Values are arranged before they are written -/

/-- The text of a number in place of it. -/
def numeral (text : String) : String :=
  match writeNumber text with
  | .ok written => String.ofList written
  | .error _ => ""

/-- A number that is written at all. -/
def IsWritten (text : String) : Prop :=
  ∃ written, writeNumber text = .ok written

theorem toList_numeral
    {text : String}
    {written : List Char}
    (isWritten : writeNumber text = .ok written) :
    (numeral text).toList = written := by
  unfold numeral
  rw [isWritten]
  exact String.toList_ofList

theorem canonicalizeItems_eq
    (items : List JsonValue) :
    canonicalizeItems items = items.map canonicalize := by
  induction items with
  | nil => rfl
  | cons item rest inductionHypothesis =>
      rw [canonicalizeItems, inductionHypothesis, List.map_cons]

theorem canonicalizeFields_eq
    (fields : List (String × JsonValue)) :
    canonicalizeFields fields = fields.map fun field => (field.1, canonicalize field.2) := by
  induction fields with
  | nil => rfl
  | cons field rest inductionHypothesis =>
      rw [canonicalizeFields, inductionHypothesis, List.map_cons, canonicalizeField]

/-- Members are sorted by their names, whatever is made of their values. -/
theorem mergeSort_members
    {Made : Type}
    (make : JsonValue → Made)
    (fields : List (String × JsonValue)) :
    (fields.map fun field => (field.1, make field.2)).mergeSort
        (fun first second => utf16Before first.1 second.1) =
      (fields.mergeSort fun first second => utf16Before first.1 second.1).map fun field =>
        (field.1, make field.2) := by
  symm
  exact List.map_mergeSort fun _ _ _ _ => rfl

theorem ok_iff_of_true
    {text made : List Char} :
    (Except.ok made : Except PokerError (List Char)) = .ok text ↔ True ∧ text = made := by
  rw [true_and, Except.ok.injEq, eq_comm]

/-- A value is written when its numbers are, as the text of the value that is arranged. -/
theorem canonicalize_eq_ok_iff
    {value : JsonValue}
    {text : List Char} :
    canonicalize value = .ok text ↔
      Built IsWritten (fun _ => True) value ∧
        text = written (arranged utf16Before numeral value) := by
  induction value using byParts generalizing text with
  | onNull => exact ok_iff_of_true
  | onBool value => exact ok_iff_of_true
  | onNumber number =>
      change writeNumber number = _ ↔ IsWritten number ∧ text = (numeral number).toList
      constructor
      · intro isWritten
        exact ⟨⟨text, isWritten⟩, (toList_numeral isWritten).symm⟩
      · rintro ⟨⟨written, isWritten⟩, rfl⟩
        rw [toList_numeral isWritten, isWritten]
  | onString string =>
      rw [canonicalize, writeString_eq]
      exact ok_iff_of_true
  | onArray items ofItem =>
      have itemsEnd : ∀ texts, items.mapM canonicalize = .ok texts ↔
          (∀ item ∈ items, Built IsWritten (fun _ => True) item) ∧
            texts = items.map fun item => written (arranged utf16Before numeral item) :=
        fun texts => mapM_eq_ok_iff fun item isItem text => ofItem item isItem
      rw [canonicalize, bind_eq_ok_iff, Relay.JsonValue.built_array_iff, canonicalizeItems_eq,
        List.mapM_map, arranged, written, Relay.JsonValue.arrangedItems_eq,
        Relay.JsonValue.writtenItems_eq, List.map_map]
      constructor
      · rintro ⟨texts, areTexts, ends⟩
        cases ends
        obtain ⟨areBuilt, rfl⟩ := (itemsEnd texts).mp areTexts
        exact ⟨areBuilt, rfl⟩
      · rintro ⟨areBuilt, rfl⟩
        exact ⟨_, (itemsEnd _).mpr ⟨areBuilt, rfl⟩, rfl⟩
  | onObject fields ofField =>
      set sorted := fields.mergeSort fun first second => utf16Before first.1 second.1 with isSorted
      have isPerm : sorted.Perm fields := List.mergeSort_perm _ _
      have membersEnd : ∀ texts,
          (sorted.mapM fun field => (canonicalize field.2).map fun text =>
            writeString field.1 ++ [':'] ++ text) = .ok texts ↔
          (∀ field ∈ sorted, Built IsWritten (fun _ => True) field.2) ∧
            texts = sorted.map fun field => Shared.jsonString field.1 ++ [':'] ++
              written (arranged utf16Before numeral field.2) := by
        refine fun texts => mapM_eq_ok_iff fun field isField text => ?_
        have valueEnds := @ofField field (isPerm.mem_iff.mp isField)
        rw [writeString_eq]
        cases isText : canonicalize field.2 with
        | error failure =>
            refine iff_of_false (by rintro ⟨⟩) ?_
            rintro ⟨isBuilt, -⟩
            have ends := valueEnds.mpr ⟨isBuilt, rfl⟩
            rw [isText] at ends
            cases ends
        | ok valueText =>
            obtain ⟨isBuilt, rfl⟩ := valueEnds.mp isText
            change Except.ok _ = _ ↔ _
            rw [Except.ok.injEq, eq_comm, and_iff_right isBuilt]
      rw [canonicalize, Relay.JsonValue.built_object_iff, canonicalizeFields_eq,
        mergeSort_members, arranged, written, Relay.JsonValue.arrangedFields_eq,
        mergeSort_members, Relay.JsonValue.writtenFields_eq, List.map_map, ← isSorted]
      rw [List.mapM_map, bind_eq_ok_iff]
      constructor
      · rintro ⟨texts, areTexts, ends⟩
        cases ends
        obtain ⟨areBuilt, rfl⟩ := (membersEnd texts).mp areTexts
        exact ⟨⟨trivial, fun field isField => areBuilt field (isPerm.mem_iff.mpr isField)⟩, rfl⟩
      · rintro ⟨⟨-, areBuilt⟩, rfl⟩
        exact ⟨_, (membersEnd _).mpr
          ⟨fun field isField => areBuilt field (isPerm.mem_iff.mp isField), rfl⟩, rfl⟩

/-! ## Names of one unit a character -/

/-- A text of characters that are one unit each. -/
def InBasicPlane (text : String) : Prop :=
  ∀ char ∈ text.toList, char.toNat < 0x10000

theorem encodeUtf16_of_inBasicPlane
    {text : String}
    (inPlane : InBasicPlane text) :
    encodeUtf16 text = text.toList.map Char.toNat := by
  unfold encodeUtf16
  rw [List.map_eq_flatMap]
  exact List.flatMap_congr fun char isChar => if_pos (inPlane char isChar)

theorem map_toNat_lt_iff
    {first second : List Char} :
    first.map Char.toNat < second.map Char.toNat ↔ first < second := by
  induction first generalizing second with
  | nil =>
      cases second with
      | nil => exact iff_of_false (List.lt_irrefl _) (List.lt_irrefl _)
      | cons char second => exact iff_of_true (List.nil_lt_cons _ _) (List.nil_lt_cons _ _)
  | cons char first inductionHypothesis =>
      cases second with
      | nil => exact iff_of_false (List.not_lt_nil _) (List.not_lt_nil _)
      | cons other second =>
          rw [List.map_cons, List.map_cons, List.cons_lt_cons_iff, List.cons_lt_cons_iff,
            inductionHypothesis]
          have sameChar : char.toNat = other.toNat ↔ char = other := Char.toNat_inj
          rw [sameChar]
          rfl

/-- Names of one unit a character have the same order by units and by characters. -/
theorem utf16Before_eq
    {first second : String}
    (firstInPlane : InBasicPlane first)
    (secondInPlane : InBasicPlane second) :
    utf16Before first second = Mesh.nameBefore first second := by
  unfold utf16Before Mesh.nameBefore
  rw [encodeUtf16_of_inBasicPlane firstInPlane, encodeUtf16_of_inBasicPlane secondInPlane]
  refine decide_eq_decide.mpr ?_
  rw [← not_lt, ← not_lt, map_toNat_lt_iff, String.lt_iff_toList_lt]

/-! ## The two writers -/

/-- A number whose text is that of an integer that doubles tell apart. -/
def IsSafeInteger (text : String) : Prop :=
  ∃ value : Int, value.natAbs ≤ maxSafeInteger ∧ text = toString value

theorem toList_toString
    (value : Int) :
    (toString value).toList = integerText value := by
  unfold integerText
  cases value with
  | ofNat value =>
      have nonneg : ¬Int.ofNat value < 0 := not_lt.mpr (Int.natCast_nonneg value)
      rw [if_neg nonneg]
      exact Nat.toList_repr
  | negSucc value =>
      rw [if_pos (Int.negSucc_lt_zero value)]
      change ("-" ++ (value + 1).repr).toList = _
      rw [String.toList_append, Nat.toList_repr]
      rfl

theorem head_integerText
    {value : Int}
    (nonneg : 0 ≤ value) :
    (integerText value).head? ≠ some '-' := by
  unfold integerText
  rw [if_neg (not_lt.mpr nonneg)]
  intro isSign
  have isDigit := areDigits_toDigits value.natAbs '-' (List.mem_of_head? isSign)
  cases isDigit

/-- A safe integer is written as it is. -/
theorem jcsNumber_integerText
    {value : Int}
    (isSafe : value.natAbs ≤ maxSafeInteger) :
    ∃ number, Number.read (integerText value) = some number ∧
      jcsNumber number = .ok (integerText value) := by
  have fits : value.natAbs < 2 ^ 53 := by
    unfold maxSafeInteger at isSafe
    omega
  unfold Number.read
  rw [readInteger_integerText]
  dsimp only
  by_cases nonneg : 0 ≤ value
  · refine ⟨.posInt value.toNat, if_pos ⟨nonneg, by omega, head_integerText nonneg⟩, ?_⟩
    have sameNat : value.toNat = value.natAbs := by omega
    change (if value.toNat ≤ maxSafeInteger then _ else _) = _
    rw [sameNat, if_pos isSafe]
    unfold integerText
    rw [if_neg (not_lt.mpr nonneg)]
  · have negative : value < 0 ∧ -2 ^ 63 ≤ value := by omega
    rw [if_neg (fun isPositive => nonneg isPositive.1), if_pos negative]
    refine ⟨.negInt value, rfl, ?_⟩
    change (if value.natAbs ≤ maxSafeInteger then _ else _) = _
    rw [if_pos isSafe]

/-- An integer keeps its text. -/
theorem writeNumber_of_isSafeInteger
    {text : String}
    (isInteger : IsSafeInteger text) :
    writeNumber text = .ok text.toList := by
  obtain ⟨value, isSafe, rfl⟩ := isInteger
  obtain ⟨number, isRead, isWritten⟩ := jcsNumber_integerText isSafe
  unfold writeNumber
  rw [toList_toString, isRead]
  exact isWritten

/-- Whether numbers that are given by their texts are the same. -/
def sameNumber (first second : String) : Bool :=
  (Number.read first.toList).map Number.value = (Number.read second.toList).map Number.value

/-- A number that is written is spelled by its numeral. -/
theorem numeral_spells
    {text : String}
    (isWritten : IsWritten text) :
    ∃ number, Number.read text.toList = some number ∧
      Spells (numeral text).toList number.value := by
  obtain ⟨written, isWritten⟩ := isWritten
  rw [toList_numeral isWritten]
  unfold writeNumber at isWritten
  cases isRead : Number.read text.toList with
  | none =>
      rw [isRead] at isWritten
      cases isWritten
  | some number =>
      rw [isRead] at isWritten
      exact ⟨number, rfl, jcsNumber_spells isWritten⟩

theorem isNumeral_numeral
    {text : String}
    (isWritten : IsWritten text) :
    Relay.JsonValue.IsNumeral (numeral text) := by
  obtain ⟨number, -, spells⟩ := numeral_spells isWritten
  exact ⟨spells.notEmpty, spells.areChars⟩

theorem sameNumber_of_numeral
    {first second : String}
    (firstWritten : IsWritten first)
    (secondWritten : IsWritten second)
    (sameNumeral : numeral first = numeral second) :
    sameNumber first second = true := by
  obtain ⟨firstNumber, firstRead, firstSpells⟩ := numeral_spells firstWritten
  obtain ⟨secondNumber, secondRead, secondSpells⟩ := numeral_spells secondWritten
  have sameValue := secondSpells.isParsed
  rw [← sameNumeral, firstSpells.isParsed] at sameValue
  unfold sameNumber
  rw [firstRead, secondRead, Option.map_some, Option.map_some, sameValue, decide_eq_true_eq]

/-- On integers that doubles tell apart and names of one unit a character the writer succeeds
with the text of the mesh; and values whose texts are the same are equal, their objects as maps
and their numbers by what they stand for. -/
theorem canonicalize_agrees :
    (∀ value : JsonValue,
      Built IsSafeInteger (fun names => names.Nodup ∧ ∀ name ∈ names, InBasicPlane name) value →
        canonicalize value = .ok (Mesh.canonicalize value)) ∧
    ∀ (first second : JsonValue) (text : List Char),
      Built (fun _ => True) List.Nodup first → Built (fun _ => True) List.Nodup second →
      canonicalize first = .ok text → canonicalize second = .ok text →
        first.equal sameNumber second = true := by
  constructor
  · intro value built
    have isWritten : Built IsWritten (fun _ => True) value :=
      built.mono (fun text isInteger => ⟨_, writeNumber_of_isSafeInteger isInteger⟩)
        fun _ _ => trivial
    have arrangedAlike :
        arranged utf16Before numeral value = arranged Mesh.nameBefore id value := by
      refine Relay.JsonValue.arranged_congr (built.mono (fun text isInteger => ?_)
        fun names areNames first isFirst second isSecond =>
          utf16Before_eq (areNames.2 first isFirst) (areNames.2 second isSecond))
      rw [id, ← String.toList_inj]
      exact toList_numeral (writeNumber_of_isSafeInteger isInteger)
    exact canonicalize_eq_ok_iff.mpr
      ⟨isWritten, by rw [Mesh.canonicalize_eq, arrangedAlike]⟩
  · intro first second text firstDistinct secondDistinct firstEnds secondEnds
    obtain ⟨firstWritten, isFirst⟩ := canonicalize_eq_ok_iff.mp firstEnds
    obtain ⟨secondWritten, isSecond⟩ := canonicalize_eq_ok_iff.mp secondEnds
    have built : ∀ value, Built IsWritten (fun _ => True) value →
        Built (fun _ => True) List.Nodup value → Built IsWritten List.Nodup value :=
      fun value isWritten isDistinct => (isWritten.and isDistinct).mono
        (fun _ both => both.1) fun _ both => both.2
    have arrangedBuilt : ∀ value, Built IsWritten List.Nodup value →
        Built Relay.JsonValue.IsNumeral List.Nodup (arranged utf16Before numeral value) :=
      fun value isBuilt => Relay.JsonValue.built_arranged (fun _ => isNumeral_numeral) isBuilt
    have firstBuilt := built first firstWritten firstDistinct
    have secondBuilt := built second secondWritten secondDistinct
    have sameArranged := Relay.JsonValue.written_injective (arrangedBuilt first firstBuilt)
      (arrangedBuilt second secondBuilt) (isFirst.symm.trans isSecond)
    exact Relay.JsonValue.equal_of_arranged (fun _ _ => sameNumber_of_numeral) firstBuilt
      secondBuilt sameArranged

/-! A document, and the same one with its members turned around. -/

namespace Document

def given : JsonValue :=
  .object [("pot", .number "40"), ("board", .array [.string "As"])]

def turned : JsonValue :=
  .object [("board", .array [.string "As"]), ("pot", .number "40")]

theorem inBasicPlane : ∀ name ∈ ["pot", "board"], InBasicPlane name := by
  simp [InBasicPlane]

theorem built_given :
    Built IsSafeInteger (fun names => names.Nodup ∧ ∀ name ∈ names, InBasicPlane name) given :=
  ⟨⟨by decide, inBasicPlane⟩, ⟨40, by decide, rfl⟩, ⟨trivial, trivial⟩, trivial⟩

theorem built_turned :
    Built IsSafeInteger (fun names => names.Nodup ∧ ∀ name ∈ names, InBasicPlane name) turned :=
  ⟨⟨by decide, fun name isName => inBasicPlane name (List.mem_reverse.mpr isName)⟩,
    ⟨trivial, trivial⟩, ⟨40, by decide, rfl⟩, trivial⟩

theorem distinct
    {value : JsonValue}
    (built : Built IsSafeInteger (fun names => names.Nodup ∧ ∀ name ∈ names, InBasicPlane name)
      value) :
    Built (fun _ => True) List.Nodup value :=
  built.mono (fun _ _ => trivial) fun _ areNames => areNames.1

end Document

theorem canonicalize_agrees_turned :
    canonicalize Document.given = .ok (Mesh.canonicalize Document.given) ∧
      Document.given.equal sameNumber Document.turned = true := by
  have givenDistinct := Document.distinct Document.built_given
  have turnedDistinct := Document.distinct Document.built_turned
  obtain ⟨agrees, determines⟩ := canonicalize_agrees
  have givenEnds := agrees Document.given Document.built_given
  have turnedEnds := agrees Document.turned Document.built_turned
  have sameText : Mesh.canonicalize Document.given = Mesh.canonicalize Document.turned :=
    Mesh.WireEnvelope.canonicalize_of_equal givenDistinct turnedDistinct rfl
  rw [← sameText] at turnedEnds
  exact ⟨givenEnds, determines _ _ _ givenDistinct turnedDistinct givenEnds turnedEnds⟩

end Poker
end NostrBbs
