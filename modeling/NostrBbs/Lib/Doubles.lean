import NostrBbs.Lib.Decimals

/-!
# Doubles

The finite numbers of the 64-bit binary format by their values, what a number is rounded to,
and the shortest digits that are rounded back.
-/

namespace Lib

/-! ## Rounding -/

/-- The nearest integer, an even one when two are as near. -/
def roundHalfEven (value : ℚ) : Int :=
  let rest := value - ⌊value⌋
  if rest < 1 / 2 then ⌊value⌋
  else if 1 / 2 < rest then ⌊value⌋ + 1
  else if ⌊value⌋ % 2 = 0 then ⌊value⌋
  else ⌊value⌋ + 1

@[simp] theorem roundHalfEven_intCast
    (value : Int) :
    roundHalfEven value = value := by
  unfold roundHalfEven
  rw [Int.floor_intCast, sub_self]
  exact if_pos (by norm_num)

theorem floor_le_roundHalfEven
    (value : ℚ) :
    ⌊value⌋ ≤ roundHalfEven value := by
  unfold roundHalfEven
  dsimp only
  split_ifs <;> omega

theorem roundHalfEven_le
    (value : ℚ) :
    roundHalfEven value ≤ ⌊value⌋ + 1 := by
  unfold roundHalfEven
  dsimp only
  split_ifs <;> omega

/-- The exponent of the last binary digit that a double near a number has. -/
def lastExponent (value : ℚ) : Int :=
  max (-1074) (Int.log 2 value - 52)

/-- The multiple of the last digit that a number is rounded to. -/
def nearest (value : ℚ) : ℚ :=
  roundHalfEven (value / 2 ^ lastExponent value) * 2 ^ lastExponent value

/-- The greatest finite double. -/
def maxDouble : ℚ :=
  (2 ^ 53 - 1) * 2 ^ (971 : Int)

theorem maxDouble_lt : maxDouble < 2 ^ (1024 : Int) := by
  have split : (2 : ℚ) ^ (1024 : Int) = 2 ^ 53 * 2 ^ (971 : Int) := by
    rw [show (1024 : Int) = (53 : Nat) + 971 from rfl, zpow_add₀ (by norm_num), zpow_natCast]
  rw [split]
  unfold maxDouble
  exact mul_lt_mul_of_pos_right (by norm_num) (by positivity)

/-- A value that some significand of 53 bits and some exponent stand for. -/
def IsDouble (value : ℚ) : Prop :=
  ∃ significand exponent : Int, 0 ≤ significand ∧ significand < 2 ^ 53 ∧ -1074 ≤ exponent ∧
    exponent ≤ 971 ∧ value = significand * 2 ^ exponent

section Rounding

variable {value : ℚ}

theorem lastExponent_ge
    (value : ℚ) :
    -1074 ≤ lastExponent value :=
  le_max_left _ _

/-- Counted in last digits a number has at most 53 bits. -/
theorem div_lastExponent_lt
    (value : ℚ) :
    value / 2 ^ lastExponent value < 2 ^ 53 := by
  rw [div_lt_iff₀ (by positivity)]
  have below : value < 2 ^ (Int.log 2 value + 1) := Int.lt_zpow_succ_log_self (by decide) value
  have fits : Int.log 2 value + 1 ≤ 53 + lastExponent value := by
    have := le_max_right (-1074) (Int.log 2 value - 52)
    unfold lastExponent
    omega
  calc value < 2 ^ (Int.log 2 value + 1) := below
    _ ≤ 2 ^ (53 + lastExponent value) := zpow_le_zpow_right₀ (by norm_num) fits
    _ = 2 ^ 53 * 2 ^ lastExponent value := by
      rw [zpow_add₀ (by norm_num)]
      norm_num

/-- Numbers that are not the least have 53 bits. -/
theorem le_div_lastExponent
    (notLeast : 0 < lastExponent value) :
    2 ^ 52 ≤ value / 2 ^ lastExponent value := by
  have isLog : lastExponent value = Int.log 2 value - 52 := by
    unfold lastExponent at notLeast ⊢
    omega
  have positive : 0 < value := by
    by_contra notPositive
    rw [isLog, Int.log_of_right_le_zero 2 (not_lt.mp notPositive)] at notLeast
    omega
  have atMost : (2 : ℚ) ^ Int.log 2 value ≤ value := Int.zpow_log_le_self (by decide) positive
  rw [le_div_iff₀ (by positivity), isLog]
  refine le_trans (le_of_eq ?_) atMost
  rw [← zpow_natCast, ← zpow_add₀ (by norm_num)]
  congr 1
  omega

theorem roundHalfEven_div_le
    (value : ℚ) :
    roundHalfEven (value / 2 ^ lastExponent value) ≤ 2 ^ 53 := by
  have below : ⌊value / 2 ^ lastExponent value⌋ < 2 ^ 53 := by
    rw [Int.floor_lt]
    exact_mod_cast div_lastExponent_lt value
  have := roundHalfEven_le (value / 2 ^ lastExponent value)
  omega

theorem roundHalfEven_div_nonneg
    (nonneg : 0 ≤ value) :
    0 ≤ roundHalfEven (value / 2 ^ lastExponent value) := by
  have floorNonneg : 0 ≤ ⌊value / 2 ^ lastExponent value⌋ := by
    rw [Int.floor_nonneg]
    positivity
  exact floorNonneg.trans (floor_le_roundHalfEven _)

/-- A double is rounded to itself. -/
theorem nearest_of_isDouble
    (isDouble : IsDouble value) :
    nearest value = value := by
  obtain ⟨significand, exponent, nonneg, fits, atLeast, -, rfl⟩ := isDouble
  rcases nonneg.eq_or_lt with isZero | isPositive
  · have rounded := roundHalfEven_intCast 0
    unfold nearest
    rw [Int.cast_zero] at rounded
    rw [← isZero, Int.cast_zero, zero_mul, zero_div, rounded, Int.cast_zero, zero_mul]
  set value : ℚ := significand * 2 ^ exponent with isValue
  -- the last digit is no higher than that of the significand
  have notHigher : lastExponent value ≤ exponent := by
    by_contra higher
    rw [not_le] at higher
    have isLog : lastExponent value = Int.log 2 value - 52 := by
      unfold lastExponent at higher ⊢
      omega
    have positive : 0 < value := by
      have : (0 : ℚ) < significand := by exact_mod_cast isPositive
      positivity
    have atMost : (2 : ℚ) ^ Int.log 2 value ≤ value := Int.zpow_log_le_self (by decide) positive
    have below : value < 2 ^ (53 + exponent) := by
      rw [isValue, zpow_add₀ (by norm_num)]
      have : (significand : ℚ) < 2 ^ 53 := by exact_mod_cast fits
      gcongr
      norm_num at this ⊢
      exact this
    have := (zpow_lt_zpow_iff_right₀ (by norm_num : (1 : ℚ) < 2)).mp (atMost.trans_lt below)
    omega
  obtain ⟨places, isPlaces⟩ := Int.eq_ofNat_of_zero_le (sub_nonneg.mpr notHigher)
  have isInteger : value / 2 ^ lastExponent value = ((significand * 2 ^ places : Int) : ℚ) := by
    rw [isValue, mul_div_assoc, ← zpow_sub₀ (by norm_num), isPlaces]
    push_cast
    rfl
  unfold nearest
  rw [isInteger, roundHalfEven_intCast, ← isInteger, div_mul_cancel₀ _ (by positivity)]

/-- What a number is rounded to is a double, unless it is too great. -/
theorem isDouble_nearest
    (nonneg : 0 ≤ value)
    (notGreater : nearest value ≤ maxDouble) :
    IsDouble (nearest value) := by
  have significandNonneg := roundHalfEven_div_nonneg nonneg
  have significandLe := roundHalfEven_div_le value
  have significandGe : 0 < lastExponent value →
      2 ^ 52 ≤ roundHalfEven (value / 2 ^ lastExponent value) := by
    intro notLeast
    refine le_trans ?_ (floor_le_roundHalfEven _)
    rw [Int.le_floor]
    exact_mod_cast le_div_lastExponent notLeast
  have atLeast := lastExponent_ge value
  unfold nearest at notGreater ⊢
  generalize roundHalfEven (value / 2 ^ lastExponent value) = significand at *
  generalize lastExponent value = exponent at *
  have below := notGreater.trans_lt maxDouble_lt
  by_cases carries : significand = 2 ^ 53
  · -- a carry into the next power of two moves the last digit
    have notHigher : exponent + 1 ≤ 971 := by
      have isPower : ((2 ^ 53 : Int) : ℚ) * 2 ^ exponent = 2 ^ (53 + exponent) := by
        rw [zpow_add₀ (by norm_num)]
        norm_num
      rw [carries, isPower, zpow_lt_zpow_iff_right₀ (by norm_num)] at below
      omega
    refine ⟨2 ^ 52, exponent + 1, by norm_num, by norm_num, by omega, notHigher, ?_⟩
    rw [carries, zpow_add₀ (by norm_num)]
    push_cast
    ring
  · have fits : significand < 2 ^ 53 := lt_of_le_of_ne significandLe carries
    by_cases notHigher : exponent ≤ 971
    · exact ⟨significand, exponent, significandNonneg, fits, atLeast, notHigher, rfl⟩
    · -- a last digit so high is beyond the greatest double
      have powerLe : (2 : ℚ) ^ (1024 : Int) ≤ significand * 2 ^ exponent := by
        have significandLarge : (2 : ℚ) ^ 52 ≤ significand := by
          exact_mod_cast significandGe (by omega)
        have split : (2 : ℚ) ^ (1024 : Int) = 2 ^ 52 * 2 ^ (972 : Int) := by
          rw [show (1024 : Int) = (52 : Nat) + 972 from rfl, zpow_add₀ (by norm_num), zpow_natCast]
        rw [split]
        have powerLarge : (2 : ℚ) ^ (972 : Int) ≤ 2 ^ exponent :=
          zpow_le_zpow_right₀ (by norm_num) (by omega)
        exact mul_le_mul significandLarge powerLarge (by positivity)
          (le_trans (by positivity) significandLarge)
      exact absurd below (not_lt.mpr powerLe)

theorem IsDouble.le_maxDouble
    (isDouble : IsDouble value) :
    value ≤ maxDouble := by
  obtain ⟨significand, exponent, nonneg, fits, -, notHigher, rfl⟩ := isDouble
  have significandLe : (significand : ℚ) ≤ 2 ^ 53 - 1 := by
    have : significand ≤ 2 ^ 53 - 1 := by omega
    exact_mod_cast this
  have powerLe : (2 : ℚ) ^ exponent ≤ 2 ^ (971 : Int) :=
    zpow_le_zpow_right₀ (by norm_num) notHigher
  exact mul_le_mul significandLe powerLe (by positivity) (by norm_num)

/-- Integers of 53 bits are doubles. -/
theorem isDouble_natCast
    {integer : Nat}
    (fits : integer < 2 ^ 53) :
    IsDouble integer :=
  ⟨integer, 0, by omega, by exact_mod_cast fits, by norm_num, by norm_num, by simp⟩

end Rounding

/-! ## Doubles -/

/-- A finite double. -/
structure Double where
  negative : Bool
  magnitude : ℚ
  isDouble : IsDouble magnitude

namespace Double

def abs (double : Double) : Double :=
  { double with negative := false }

def value (double : Double) : ℚ :=
  if double.negative then -double.magnitude else double.magnitude

theorem magnitude_nonneg
    (double : Double) :
    0 ≤ double.magnitude := by
  obtain ⟨significand, exponent, nonneg, -, -, -, isValue⟩ := double.isDouble
  have : (0 : ℚ) ≤ significand := by exact_mod_cast nonneg
  rw [isValue]
  positivity

theorem ext
    {first second : Double}
    (sameSign : first.negative = second.negative)
    (sameMagnitude : first.magnitude = second.magnitude) :
    first = second := by
  cases first
  cases second
  cases sameSign
  cases sameMagnitude
  rfl

/-- The double that a decimal number is rounded to, if that is finite. -/
def ofDecimal (negative : Bool) (coefficient : Nat) (exponent : Int) : Option Double :=
  if finite : nearest (decimal coefficient exponent) ≤ maxDouble then
    some ⟨negative, nearest (decimal coefficient exponent),
      isDouble_nearest (decimal_nonneg coefficient exponent) finite⟩
  else none

/-- A number that is rounded to the magnitude of a double is read as it. -/
theorem ofDecimal_of_nearest
    {double : Double}
    {coefficient : Nat}
    {exponent : Int}
    (rounds : nearest (decimal coefficient exponent) = double.magnitude) :
    ofDecimal double.negative coefficient exponent = some double := by
  have finite : nearest (decimal coefficient exponent) ≤ maxDouble := by
    rw [rounds]
    exact double.isDouble.le_maxDouble
  unfold ofDecimal
  rw [dif_pos finite]
  exact congrArg some (ext rfl rounds)

theorem nearest_of_ofDecimal
    {double : Double}
    {negative : Bool}
    {coefficient : Nat}
    {exponent : Int}
    (isRead : ofDecimal negative coefficient exponent = some double) :
    double.negative = negative ∧ nearest (decimal coefficient exponent) = double.magnitude := by
  unfold ofDecimal at isRead
  split_ifs at isRead
  cases isRead
  exact ⟨rfl, rfl⟩

end Double

/-! ## Digits of doubles -/

/-- How many of the least units that doubles are counted in, a power of ten, make a value. -/
def units (value : ℚ) : Nat :=
  ⌊value * 10 ^ 1074⌋.toNat

/-- Every double is a whole number of units. -/
theorem decimal_units
    {value : ℚ}
    (isDouble : IsDouble value) :
    decimal (units value) (-1074) = value := by
  obtain ⟨significand, exponent, nonneg, -, atLeast, -, rfl⟩ := isDouble
  obtain ⟨places, isPlaces⟩ := Int.eq_ofNat_of_zero_le (by omega : 0 ≤ exponent + 1074)
  have isExponent : exponent = places - 1074 := by omega
  have isInteger : (significand : ℚ) * 2 ^ exponent * 10 ^ 1074 =
      ((significand * 2 ^ places * 5 ^ 1074 : Int) : ℚ) := by
    have ten : (10 : ℚ) ^ 1074 = 2 ^ 1074 * 5 ^ 1074 := by
      rw [← mul_pow, show (2 : ℚ) * 5 = 10 by norm_num]
    have power : (2 : ℚ) ^ exponent * 2 ^ 1074 = 2 ^ places := by
      rw [isExponent, ← zpow_natCast, ← zpow_natCast, ← zpow_add₀ (by norm_num)]
      congr 1
      push_cast
      ring
    rw [Int.cast_mul, Int.cast_mul, Int.cast_pow, Int.cast_pow, Int.cast_ofNat, Int.cast_ofNat,
      ten, ← power]
    generalize (5 : ℚ) ^ 1074 = fives
    generalize (2 : ℚ) ^ 1074 = twos
    ring
  have unitsNonneg : 0 ≤ significand * 2 ^ places * 5 ^ 1074 := by positivity
  unfold decimal units
  rw [isInteger, Int.floor_intCast, ← Int.cast_natCast, Int.toNat_of_nonneg unitsNonneg,
    ← isInteger, mul_assoc, zpow_neg, ← zpow_natCast]
  rw [show ((1074 : Nat) : Int) = 1074 from rfl, mul_inv_cancel₀ (by positivity), mul_one]

/-- The first digits of a value, the last of them raised or not, when they are rounded to it;
of two that are, the closer one, and the greater one when they are as close. -/
def shortestAt (value : ℚ) (count : Nat) : Option (Nat × Int) :=
  let all := units value
  let places := (Nat.toDigits 10 all).length - count
  let low := all / 10 ^ places
  let high := if all % 10 ^ places = 0 then low else low + 1
  let exponent : Int := places - 1074
  if nearest (decimal low exponent) = value ∧
      (nearest (decimal high exponent) ≠ value ∨
        all - low * 10 ^ places < high * 10 ^ places - all) then
    some (low, exponent)
  else if nearest (decimal high exponent) = value then some (high, exponent)
  else none

/-- The fewest digits that are rounded to a value. -/
def shortest (value : ℚ) : Nat × Int :=
  ((List.range (Nat.toDigits 10 (units value)).length).findSome? fun count =>
    shortestAt value (count + 1)).getD (units value, -1074)

theorem nearest_shortest
    {value : ℚ}
    (isDouble : IsDouble value) :
    nearest (decimal (shortest value).1 (shortest value).2) = value := by
  unfold shortest
  cases isFound : (List.range (Nat.toDigits 10 (units value)).length).findSome? fun count =>
      shortestAt value (count + 1) with
  | none =>
      rw [Option.getD_none, decimal_units isDouble]
      exact nearest_of_isDouble isDouble
  | some found =>
      obtain ⟨count, -, isShortest⟩ := List.exists_of_findSome?_eq_some isFound
      rw [Option.getD_some]
      unfold shortestAt at isShortest
      dsimp only at isShortest
      generalize (if units value % 10 ^ ((Nat.toDigits 10 (units value)).length - (count + 1)) = 0
        then _ else _) = high at isShortest
      split_ifs at isShortest with lowRounds highRounds
      · cases isShortest
        exact lowRounds.1
      · cases isShortest
        exact highRounds

/-- Digits without the zeros at their end. -/
def trimEndZeros (digits : List Char) : List Char :=
  (digits.reverse.dropWhile (· = '0')).reverse

theorem trimEndZeros_append
    (digits : List Char) :
    trimEndZeros digits ++ List.replicate (digits.length - (trimEndZeros digits).length) '0' =
      digits := by
  unfold trimEndZeros
  have taken : digits.reverse.takeWhile (· = '0') =
      List.replicate (digits.reverse.takeWhile (· = '0')).length '0' := by
    refine List.eq_replicate_iff.mpr ⟨rfl, fun char isChar => ?_⟩
    have isZero : decide (char = '0') = true :=
      List.mem_takeWhile_imp (p := fun char => char = '0') isChar
    exact of_decide_eq_true isZero
  have together := congrArg List.reverse
    (List.takeWhile_append_dropWhile (p := fun char => char = '0') (l := digits.reverse))
  rw [List.reverse_append, List.reverse_reverse] at together
  have count : digits.length - (digits.reverse.dropWhile (· = '0')).reverse.length =
      (digits.reverse.takeWhile (· = '0')).length := by
    have lengths := congrArg List.length together
    rw [List.length_append, List.length_reverse, List.length_reverse] at lengths
    rw [List.length_reverse]
    omega
  rw [count, ← List.reverse_replicate, ← taken]
  exact together

theorem length_trimEndZeros_le
    (digits : List Char) :
    (trimEndZeros digits).length ≤ digits.length := by
  have lengths := congrArg List.length (trimEndZeros_append digits)
  rw [List.length_append] at lengths
  omega

theorem AreDigits.trimEndZeros
    {digits : List Char}
    (areDigits : AreDigits digits) :
    AreDigits (trimEndZeros digits) := by
  refine areDigits.sublist ?_
  conv_rhs => rw [← trimEndZeros_append digits]
  exact List.sublist_append_left _ _

/-- The zeros at the end of digits are powers of ten. -/
theorem digitsValue_trimEndZeros
    (digits : List Char) :
    digitsValue digits = digitsValue (trimEndZeros digits) *
      10 ^ (digits.length - (trimEndZeros digits).length) := by
  conv_lhs => rw [← trimEndZeros_append digits]
  rw [digitsValue_append, digitsValue_replicate, List.length_replicate, Nat.add_zero]

/-- Digits in scientific form: one before the point, and the exponent of that one. -/
def scientific (digits : List Char) (exponent : Int) : List Char :=
  digits.take 1 ++ (if digits.length ≤ 1 then [] else '.' :: digits.drop 1) ++
    'e' :: integerText exponent

namespace Double

/-- The shortest digits of a magnitude. -/
def shortDigits (double : Double) : List Char :=
  Nat.toDigits 10 (shortest double.magnitude).1

/-- The shortest scientific form of a magnitude. -/
def lowerExp (double : Double) : List Char :=
  scientific (trimEndZeros double.shortDigits)
    (double.shortDigits.length - 1 + (shortest double.magnitude).2)

/-- The scientific form of a magnitude with digits after the point.  Doubles have at most 767
digits, so that with 800 none is cut off. -/
def lowerExpWith (places : Nat) (double : Double) : List Char :=
  let digits := Nat.toDigits 10 (units double.magnitude)
  scientific ((digits ++ List.replicate (places + 1) '0').take (places + 1))
    (digits.length - 1 - 1074)

/-- The digits of the shortest form are rounded to the double. -/
theorem nearest_lowerExp
    {double : Double}
    (notZero : double.magnitude ≠ 0) :
    trimEndZeros double.shortDigits ≠ [] ∧
      nearest (decimal (digitsValue (trimEndZeros double.shortDigits))
        (double.shortDigits.length - 1 + (shortest double.magnitude).2 + 1 -
          (trimEndZeros double.shortDigits).length)) = double.magnitude := by
  have rounds := nearest_shortest double.isDouble
  have isValue := digitsValue_trimEndZeros double.shortDigits
  have notLonger := length_trimEndZeros_le double.shortDigits
  have spelled : digitsValue double.shortDigits = (shortest double.magnitude).1 :=
    digitsValue_toDigits _
  rw [spelled] at isValue
  constructor
  · intro isEmpty
    have isZero : nearest 0 = 0 :=
      nearest_of_isDouble ⟨0, 0, le_rfl, by norm_num, by norm_num, by norm_num, by norm_num⟩
    rw [isEmpty] at isValue
    change _ = 0 * _ at isValue
    rw [isValue, Nat.zero_mul] at rounds
    unfold decimal at rounds
    rw [Nat.cast_zero, zero_mul, isZero] at rounds
    exact notZero rounds.symm
  · rw [isValue, decimal_mul_pow] at rounds
    refine Eq.trans ?_ rounds
    congr 2
    omega

end Double

end Lib
