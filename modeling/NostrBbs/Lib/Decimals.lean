import Mathlib

/-!
# Decimal numbers as texts

Numbers of a fixed width and the order of texts that are made of them; runs of digits,
integers with a sign, and literals with a fraction and an exponent.
-/

namespace Lib

/-! ## Numbers of a fixed width -/

section

/-- The last digits of a number. -/
def digitsOf : Nat → Nat → List Char
  | 0, _ => []
  | width + 1, value => digitsOf width (value / 10) ++ [Nat.digitChar (value % 10)]

/-- The digits of a number with zeros before them, at least of a width. -/
def zeroPadded (width value : Nat) : List Char :=
  List.replicate (width - (Nat.toDigits 10 value).length) '0' ++ Nat.toDigits 10 value

/-- Texts whose starts are of one length are ordered by these first. -/
theorem append_lt_append_iff
    {first second : List Char}
    (sameLength : first.length = second.length)
    (firstRest secondRest : List Char) :
    first ++ firstRest < second ++ secondRest ↔
      first < second ∨ first = second ∧ firstRest < secondRest := by
  induction first generalizing second with
  | nil =>
      have isNil := List.length_eq_zero_iff.mp sameLength.symm
      rw [isNil]
      simp
  | cons head tail inductionHypothesis =>
      cases second with
      | nil => cases sameLength
      | cons secondHead secondTail =>
          have rest := inductionHypothesis (Nat.succ.inj sameLength)
          rw [List.cons_append, List.cons_append, List.cons_lt_cons_iff, List.cons_lt_cons_iff,
            rest, List.cons.injEq]
          tauto

section Digits

variable {first second width : Nat}

@[simp] theorem length_digitsOf
    (width value : Nat) :
    (digitsOf width value).length = width := by
  induction width generalizing value with
  | zero => rfl
  | succ width inductionHypothesis =>
      rw [digitsOf, List.length_append, inductionHypothesis, List.length_singleton]

theorem digitsOf_zero
    (width : Nat) :
    digitsOf width 0 = List.replicate width '0' := by
  induction width with
  | zero => rfl
  | succ width inductionHypothesis =>
      rw [digitsOf, Nat.zero_div, inductionHypothesis, List.replicate_succ']
      rfl

theorem digitChar_lt_iff :
    ∀ first < 10, ∀ second < 10,
      (Nat.digitChar first < Nat.digitChar second ↔ first < second) ∧
        (Nat.digitChar first = Nat.digitChar second ↔ first = second) := by
  decide

/-- Numbers of a width have the same digits when they are the same. -/
theorem digitsOf_inj
    (firstFits : first < 10 ^ width)
    (secondFits : second < 10 ^ width) :
    digitsOf width first = digitsOf width second ↔ first = second := by
  induction width generalizing first second with
  | zero =>
      rw [Nat.pow_zero] at firstFits secondFits
      exact iff_of_true rfl (by omega)
  | succ width inductionHypothesis =>
      rw [Nat.pow_succ] at firstFits secondFits
      have firstTens : first / 10 < 10 ^ width := Nat.div_lt_of_lt_mul (by omega)
      have secondTens : second / 10 < 10 ^ width := Nat.div_lt_of_lt_mul (by omega)
      have tens := inductionHypothesis firstTens secondTens
      have units := (digitChar_lt_iff (first % 10) (Nat.mod_lt _ (by decide)) (second % 10)
        (Nat.mod_lt _ (by decide))).2
      rw [digitsOf, digitsOf]
      constructor
      · intro same
        obtain ⟨sameTens, sameUnits⟩ := List.append_inj' same rfl
        have tensEq := tens.mp sameTens
        have unitsEq := units.mp (List.cons.inj sameUnits).1
        omega
      · rintro rfl
        rfl

/-- The digits of numbers of a width are ordered as the numbers. -/
theorem digitsOf_lt_iff
    (firstFits : first < 10 ^ width)
    (secondFits : second < 10 ^ width) :
    digitsOf width first < digitsOf width second ↔ first < second := by
  induction width generalizing first second with
  | zero =>
      rw [Nat.pow_zero] at firstFits secondFits
      exact iff_of_false (List.not_lt_nil _) (by omega)
  | succ width inductionHypothesis =>
      rw [Nat.pow_succ] at firstFits secondFits
      have firstTens : first / 10 < 10 ^ width := Nat.div_lt_of_lt_mul (by omega)
      have secondTens : second / 10 < 10 ^ width := Nat.div_lt_of_lt_mul (by omega)
      have units := (digitChar_lt_iff (first % 10) (Nat.mod_lt _ (by decide)) (second % 10)
        (Nat.mod_lt _ (by decide))).1
      rw [digitsOf, digitsOf, append_lt_append_iff (by simp),
        inductionHypothesis firstTens secondTens,
        digitsOf_inj firstTens secondTens, List.cons_lt_cons_iff, units]
      simp only [List.not_lt_nil, and_false, or_false]
      omega

/-- A number of a width, padded to it, has its digits. -/
theorem zeroPadded_eq
    (positive : 0 < width)
    {value : Nat}
    (fits : value < 10 ^ width) :
    zeroPadded width value = digitsOf width value := by
  induction width generalizing value with
  | zero => cases positive
  | succ width inductionHypothesis =>
      unfold zeroPadded
      rw [digitsOf]
      by_cases small : value < 10
      · rw [Nat.toDigits_of_lt_base small, Nat.div_eq_of_lt small, Nat.mod_eq_of_lt small,
          digitsOf_zero, List.length_singleton, Nat.add_sub_cancel]
      · rw [Nat.toDigits_of_base_le (by decide) (by omega)]
        rw [Nat.pow_succ] at fits
        have tens : value / 10 < 10 ^ width := Nat.div_lt_of_lt_mul (by omega)
        have widthPositive : 0 < width := by
          by_contra isZero
          rw [show width = 0 by omega, Nat.pow_zero] at fits
          omega
        have padded := inductionHypothesis widthPositive tens
        unfold zeroPadded at padded
        rw [List.length_append, List.length_singleton, Nat.add_sub_add_right, ← List.append_assoc,
          padded]

end Digits

end

/-! ## Decimal literals -/

section

section Runs

variable {Item : Type} {holds : Item → Bool} {run rest : List Item}

/-- A run is what is taken of it and of what does not go on with it. -/
theorem takeWhile_append_of_stop
    (inRun : ∀ item ∈ run, holds item = true)
    (stops : ∀ item ∈ rest.head?, holds item = false) :
    (run ++ rest).takeWhile holds = run := by
  rw [List.takeWhile_append_of_pos inRun]
  cases rest with
  | nil => exact List.append_nil run
  | cons item rest =>
      rw [List.takeWhile_cons_of_neg (by rw [stops item rfl]; exact Bool.false_ne_true),
        List.append_nil]

theorem dropWhile_append_of_stop
    (inRun : ∀ item ∈ run, holds item = true)
    (stops : ∀ item ∈ rest.head?, holds item = false) :
    (run ++ rest).dropWhile holds = rest := by
  rw [List.dropWhile_append_of_pos inRun]
  cases rest with
  | nil => rfl
  | cons item rest =>
      exact List.dropWhile_cons_of_neg (by rw [stops item rfl]; exact Bool.false_ne_true)

end Runs

/-! ## Digits -/

def AreDigits (chars : List Char) : Prop :=
  ∀ char ∈ chars, char.isDigit = true

/-- The number that digits spell. -/
def digitsValue (digits : List Char) : Nat :=
  Nat.ofDigitChars 10 digits 0

theorem areDigits_toDigits
    (value : Nat) :
    AreDigits (Nat.toDigits 10 value) :=
  fun _ isChar => Nat.isDigit_of_mem_toDigits (by decide) (by decide) isChar

@[simp] theorem digitsValue_toDigits
    (value : Nat) :
    digitsValue (Nat.toDigits 10 value) = value :=
  Nat.ofDigitChars_ten_toDigits

theorem digitsValue_append
    (first second : List Char) :
    digitsValue (first ++ second) =
      digitsValue first * 10 ^ second.length + digitsValue second := by
  unfold digitsValue
  rw [Nat.ofDigitChars_append, Nat.ofDigitChars_eq_ofDigitChars_zero, Nat.mul_comm]

@[simp] theorem digitsValue_replicate
    (count : Nat) :
    digitsValue (List.replicate count '0') = 0 := by
  unfold digitsValue
  rw [Nat.ofDigitChars_replicate_zero, Nat.mul_zero]

theorem digitChar_toNat :
    ∀ value < 10, (Nat.digitChar value).toNat - '0'.toNat = value := by
  decide

/-- A digit is the character of its value. -/
theorem isDigit_bounds
    {char : Char}
    (isDigit : char.isDigit) :
    '0'.toNat ≤ char.toNat ∧ char.toNat - '0'.toNat < 10 ∧
      Nat.digitChar (char.toNat - '0'.toNat) = char := by
  have bounds : '0'.toNat ≤ char.toNat ∧ char.toNat ≤ '9'.toNat := by
    simpa [Char.isDigit, UInt32.le_iff_toNat_le] using isDigit
  have zero : '0'.toNat = 48 := rfl
  have nine : '9'.toNat = 57 := rfl
  have spelled : ∀ value < 10, Nat.digitChar value = Char.ofNat (value + 48) := by decide
  refine ⟨bounds.1, by omega, ?_⟩
  rw [spelled _ (by omega), zero, Nat.sub_add_cancel (by omega), Char.ofNat_toNat]

theorem areDigits_replicate
    (count : Nat) :
    AreDigits (List.replicate count '0') := by
  intro char isChar
  rw [List.eq_of_mem_replicate isChar]
  rfl

theorem AreDigits.append
    {first second : List Char}
    (firstDigits : AreDigits first)
    (secondDigits : AreDigits second) :
    AreDigits (first ++ second) := by
  intro char isChar
  rcases List.mem_append.mp isChar with isFirst | isSecond
  · exact firstDigits char isFirst
  · exact secondDigits char isSecond

theorem AreDigits.sublist
    {part digits : List Char}
    (areDigits : AreDigits digits)
    (isPart : part.Sublist digits) :
    AreDigits part :=
  fun char isChar => areDigits char (isPart.subset isChar)

/-! ## Digits of a width -/

theorem areDigits_digitsOf
    (width value : Nat) :
    AreDigits (digitsOf width value) := by
  induction width generalizing value with
  | zero =>
      intro char isChar
      cases isChar
  | succ width inductionHypothesis =>
      refine (inductionHypothesis (value / 10)).append ?_
      intro char isChar
      rw [List.mem_singleton.mp isChar]
      rw [Nat.isDigit_digitChar, decide_eq_true_eq]
      exact Nat.mod_lt _ (by decide)

theorem digitsValue_singleton
    (char : Char) :
    digitsValue [char] = char.toNat - '0'.toNat := by
  unfold digitsValue
  rw [Nat.ofDigitChars_cons, Nat.ofDigitChars_nil, Nat.mul_zero, Nat.zero_add]

/-- The digits of a number that fits spell it. -/
theorem digitsValue_digitsOf
    {width value : Nat}
    (fits : value < 10 ^ width) :
    digitsValue (digitsOf width value) = value := by
  induction width generalizing value with
  | zero =>
      rw [Nat.pow_zero] at fits
      rw [show value = 0 by omega]
      rfl
  | succ width inductionHypothesis =>
      rw [Nat.pow_succ] at fits
      have units : digitsValue [Nat.digitChar (value % 10)] = value % 10 := by
        rw [digitsValue_singleton]
        exact digitChar_toNat (value % 10) (Nat.mod_lt _ (by decide))
      rw [digitsOf, digitsValue_append, inductionHypothesis (Nat.div_lt_of_lt_mul (by omega)), units,
        List.length_singleton]
      omega

theorem digitsValue_lt
    {digits : List Char}
    (areDigits : AreDigits digits) :
    digitsValue digits < 10 ^ digits.length := by
  induction digits using List.reverseRecOn with
  | nil => decide
  | append_singleton digits char inductionHypothesis =>
      have front := inductionHypothesis (areDigits.sublist (List.sublist_append_left digits [char]))
      have last := isDigit_bounds (areDigits char (List.mem_append_right digits
        (List.mem_singleton_self char)))
      rw [digitsValue_append, digitsValue_singleton, List.length_append, List.length_singleton,
        Nat.pow_one, Nat.pow_succ]
      omega

/-- Digits are those of the number that they spell. -/
theorem digitsOf_digitsValue
    {digits : List Char}
    (areDigits : AreDigits digits) :
    digitsOf digits.length (digitsValue digits) = digits := by
  induction digits using List.reverseRecOn with
  | nil => rfl
  | append_singleton digits char inductionHypothesis =>
      have front := inductionHypothesis (areDigits.sublist (List.sublist_append_left digits [char]))
      obtain ⟨low, high, isChar⟩ := isDigit_bounds (areDigits char (List.mem_append_right digits
        (List.mem_singleton_self char)))
      have tens : (digitsValue digits * 10 + (char.toNat - '0'.toNat)) / 10 = digitsValue digits := by
        omega
      have units : (digitsValue digits * 10 + (char.toNat - '0'.toNat)) % 10 =
          char.toNat - '0'.toNat := by
        omega
      rw [List.length_append, List.length_singleton, digitsOf, digitsValue_append,
        digitsValue_singleton, List.length_singleton, Nat.pow_one, tens, units, front, isChar]

/-! ## Integers -/

/-- A number of digits, at least one. -/
def readDigits (chars : List Char) : Option Nat :=
  if chars ≠ [] ∧ chars.all Char.isDigit then some (digitsValue chars) else none

def readInteger : List Char → Option Int
  | '-' :: rest => (readDigits rest).map fun value : Nat => -(value : Int)
  | '+' :: rest => (readDigits rest).map fun value : Nat => (value : Int)
  | chars => (readDigits chars).map fun value : Nat => (value : Int)

def integerText (value : Int) : List Char :=
  if value < 0 then '-' :: Nat.toDigits 10 value.natAbs else Nat.toDigits 10 value.natAbs

theorem readDigits_of_areDigits
    {chars : List Char}
    (notEmpty : chars ≠ [])
    (areDigits : AreDigits chars) :
    readDigits chars = some (digitsValue chars) :=
  if_pos ⟨notEmpty, List.all_eq_true.mpr areDigits⟩

theorem readDigits_toDigits
    (value : Nat) :
    readDigits (Nat.toDigits 10 value) = some value := by
  rw [readDigits_of_areDigits Nat.toDigits_ne_nil (areDigits_toDigits value), digitsValue_toDigits]

/-- Digits do not start with a sign or a point. -/
theorem AreDigits.head_ne
    {chars rest : List Char}
    (areDigits : AreDigits chars)
    {char : Char}
    (notDigit : char.isDigit = false) :
    chars ≠ char :: rest := by
  rintro rfl
  have isDigit := areDigits char List.mem_cons_self
  rw [notDigit] at isDigit
  cases isDigit

theorem readInteger_of_areDigits
    {chars : List Char}
    (areDigits : AreDigits chars) :
    readInteger chars = (readDigits chars).map fun value : Nat => (value : Int) := by
  unfold readInteger
  split
  · exact absurd rfl (areDigits.head_ne (by decide))
  · exact absurd rfl (areDigits.head_ne (by decide))
  · rfl

@[simp] theorem readInteger_integerText
    (value : Int) :
    readInteger (integerText value) = some value := by
  unfold integerText
  split_ifs with isNegative
  · rw [readInteger, readDigits_toDigits, Option.map_some]
    congr 1
    omega
  · rw [readInteger_of_areDigits (areDigits_toDigits _), readDigits_toDigits, Option.map_some]
    congr 1
    omega

/-! ## Literals -/

/-- The number that a coefficient and a power of ten stand for. -/
def decimal (coefficient : Nat) (exponent : Int) : ℚ :=
  coefficient * 10 ^ exponent

theorem decimal_nonneg
    (coefficient : Nat)
    (exponent : Int) :
    0 ≤ decimal coefficient exponent := by
  unfold decimal
  positivity

/-- Powers of ten move between the coefficient and the exponent. -/
theorem decimal_mul_pow
    (coefficient count : Nat)
    (exponent : Int) :
    decimal (coefficient * 10 ^ count) exponent = decimal coefficient (exponent + count) := by
  unfold decimal
  rw [Nat.cast_mul, Nat.cast_pow, Nat.cast_ofNat, zpow_add₀ (by norm_num), zpow_natCast]
  ring

def readExponent : List Char → Option Int
  | [] => some 0
  | 'e' :: rest => readInteger rest
  | 'E' :: rest => readInteger rest
  | _ => none

/-- The coefficient and the exponent of a literal without a sign. -/
def readMagnitude (chars : List Char) : Option (Nat × Int) :=
  let whole := chars.takeWhile Char.isDigit
  match chars.dropWhile Char.isDigit with
  | '.' :: rest =>
      let fraction := rest.takeWhile Char.isDigit
      if whole ++ fraction = [] then none
      else (readExponent (rest.dropWhile Char.isDigit)).map fun exponent =>
        (digitsValue (whole ++ fraction), exponent - fraction.length)
  | rest =>
      if whole = [] then none
      else (readExponent rest).map fun exponent => (digitsValue whole, exponent)

/-- Whether a literal is negative, and its coefficient and exponent. -/
def readLiteral : List Char → Option (Bool × Nat × Int)
  | '-' :: rest => (readMagnitude rest).map fun magnitude => (true, magnitude)
  | chars => (readMagnitude chars).map fun magnitude => (false, magnitude)

section Literals

variable {whole fraction tail : List Char} {exponent : Int}

/-- An exponent does not go on with digits. -/
theorem stops_of_readExponent
    (isExponent : readExponent tail = some exponent) :
    ∀ char ∈ tail.head?, char.isDigit = false ∧ char ≠ '.' := by
  intro char isHead
  unfold readExponent at isExponent
  split at isExponent
  · cases isHead
  · cases isHead
    decide
  · cases isHead
    decide
  · cases isExponent

theorem readMagnitude_whole
    (notEmpty : whole ≠ [])
    (areDigits : AreDigits whole)
    (isExponent : readExponent tail = some exponent) :
    readMagnitude (whole ++ tail) = some (digitsValue whole, exponent) := by
  have stops := stops_of_readExponent isExponent
  have notDigit : ∀ char ∈ tail.head?, char.isDigit = false := fun char isHead =>
    (stops char isHead).1
  unfold readMagnitude
  rw [takeWhile_append_of_stop areDigits notDigit, dropWhile_append_of_stop areDigits notDigit]
  split
  · exact absurd rfl (stops '.' rfl).2
  · dsimp only
    rw [if_neg notEmpty, isExponent, Option.map_some]

theorem readMagnitude_fraction
    (notEmpty : whole ++ fraction ≠ [])
    (areWhole : AreDigits whole)
    (areFraction : AreDigits fraction)
    (isExponent : readExponent tail = some exponent) :
    readMagnitude (whole ++ '.' :: (fraction ++ tail)) =
      some (digitsValue (whole ++ fraction), exponent - fraction.length) := by
  have notDigit : ∀ char ∈ tail.head?, char.isDigit = false := fun char isHead =>
    (stops_of_readExponent isExponent char isHead).1
  have pointStops : ∀ char ∈ ('.' :: (fraction ++ tail)).head?, char.isDigit = false := by
    rintro char ⟨⟩
    rfl
  unfold readMagnitude
  rw [takeWhile_append_of_stop areWhole pointStops, dropWhile_append_of_stop areWhole pointStops]
  split
  · rename_i rest isPoint
    cases isPoint
    rw [takeWhile_append_of_stop areFraction notDigit, if_neg notEmpty,
      dropWhile_append_of_stop areFraction notDigit, isExponent, Option.map_some]
  · rename_i notPoint
    exact absurd rfl (notPoint _)

end Literals

end

end Lib
