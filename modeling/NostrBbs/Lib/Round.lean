import Mathlib.Data.Nat.Log
import Mathlib.Tactic.Ring

/-!
# Rounding to significant bits

A natural number as a binary floating-point format with some number of
significant bits holds it: the nearest number with so many bits, the even one of
two.  Rounding keeps small numbers and keeps order.
-/

namespace Lib

/-- The nearest multiple of a unit, the even one of two. -/
def nearestMultiple (unit number : Nat) : Nat :=
  if unit < 2 * (number % unit) ∨ unit = 2 * (number % unit) ∧ number / unit % 2 = 1 then
    (number / unit + 1) * unit
  else
    number / unit * unit

theorem nearestMultiple_mul
    {unit : Nat}
    (positive : 0 < unit)
    (count : Nat) :
    nearestMultiple unit (count * unit) = count * unit := by
  have rest : count * unit % unit = 0 := Nat.mul_mod_left count unit
  have whole : count * unit / unit = count := Nat.mul_div_left count positive
  unfold nearestMultiple
  rw [rest, whole, if_neg (by omega)]

theorem nearestMultiple_mono
    {unit first second : Nat}
    (ordered : first ≤ second) :
    nearestMultiple unit first ≤ nearestMultiple unit second := by
  have wholes : first / unit ≤ second / unit := Nat.div_le_div_right ordered
  unfold nearestMultiple
  rcases Nat.lt_or_eq_of_le wholes with further | same
  · -- the first rounds up to at most where the second rounds down
    have step : (first / unit + 1) * unit ≤ second / unit * unit :=
      Nat.mul_le_mul_right unit further
    have grow : first / unit * unit ≤ (first / unit + 1) * unit :=
      Nat.mul_le_mul_right unit (Nat.le_succ _)
    have growSecond : second / unit * unit ≤ (second / unit + 1) * unit :=
      Nat.mul_le_mul_right unit (Nat.le_succ _)
    split <;> split <;> omega
  · have rests : first % unit ≤ second % unit := by
      have firstSplit := Nat.div_add_mod first unit
      have secondSplit := Nat.div_add_mod second unit
      rw [same] at firstSplit
      omega
    have grow : second / unit * unit ≤ (second / unit + 1) * unit :=
      Nat.mul_le_mul_right unit (Nat.le_succ _)
    rw [same]
    split <;> split <;> omega

/-- A number rounded to some significant bits. -/
def roundTo (bits number : Nat) : Nat :=
  if number < 2 ^ bits then number
  else nearestMultiple (2 ^ (number.log2 + 1 - bits)) number

theorem roundTo_of_lt
    {bits number : Nat}
    (small : number < 2 ^ bits) :
    roundTo bits number = number := by
  rw [roundTo, if_pos small]

section Order

variable {bits number : Nat}

theorem bits_le_log
    (large : 2 ^ bits ≤ number) :
    bits ≤ number.log2 := by
  have nonzero : number ≠ 0 := by
    have := Nat.two_pow_pos bits
    omega
  exact (Nat.le_log2 nonzero).mpr large

/-- A large number is not rounded below its leading power of two. -/
theorem pow_log_le_roundTo
    (positive : 0 < bits)
    (large : 2 ^ bits ≤ number) :
    2 ^ number.log2 ≤ roundTo bits number := by
  have nonzero : number ≠ 0 := by
    have := Nat.two_pow_pos bits
    omega
  have long := bits_le_log large
  have multiple : 2 ^ number.log2 = 2 ^ (bits - 1) * 2 ^ (number.log2 + 1 - bits) := by
    rw [← Nat.pow_add]
    congr 1
    omega
  rw [roundTo, if_neg (Nat.not_lt.mpr large)]
  calc 2 ^ number.log2
      = nearestMultiple (2 ^ (number.log2 + 1 - bits)) (2 ^ number.log2) := by
        rw [multiple, nearestMultiple_mul (Nat.two_pow_pos _)]
    _ ≤ nearestMultiple (2 ^ (number.log2 + 1 - bits)) number :=
        nearestMultiple_mono (Nat.log2_self_le nonzero)

/-- Nor above the next power of two. -/
theorem roundTo_le_pow_log
    (large : 2 ^ bits ≤ number) :
    roundTo bits number ≤ 2 ^ (number.log2 + 1) := by
  have long := bits_le_log large
  have multiple : 2 ^ (number.log2 + 1) = 2 ^ bits * 2 ^ (number.log2 + 1 - bits) := by
    rw [← Nat.pow_add]
    congr 1
    omega
  rw [roundTo, if_neg (Nat.not_lt.mpr large)]
  calc nearestMultiple (2 ^ (number.log2 + 1 - bits)) number
      ≤ nearestMultiple (2 ^ (number.log2 + 1 - bits)) (2 ^ (number.log2 + 1)) :=
        nearestMultiple_mono Nat.lt_log2_self.le
    _ = 2 ^ (number.log2 + 1) := by
        rw [multiple, nearestMultiple_mul (Nat.two_pow_pos _)]

/-- Rounding keeps order. -/
theorem roundTo_mono
    {first second : Nat}
    (positive : 0 < bits)
    (ordered : first ≤ second) :
    roundTo bits first ≤ roundTo bits second := by
  by_cases secondSmall : second < 2 ^ bits
  · rw [roundTo_of_lt secondSmall, roundTo_of_lt (Nat.lt_of_le_of_lt ordered secondSmall)]
    exact ordered
  · have secondLarge : 2 ^ bits ≤ second := Nat.not_lt.mp secondSmall
    have secondAbove := pow_log_le_roundTo positive secondLarge
    by_cases firstSmall : first < 2 ^ bits
    · rw [roundTo_of_lt firstSmall]
      have powers : 2 ^ bits ≤ 2 ^ second.log2 :=
        Nat.pow_le_pow_right (by decide) (bits_le_log secondLarge)
      omega
    · have firstLarge : 2 ^ bits ≤ first := Nat.not_lt.mp firstSmall
      have logs : first.log2 ≤ second.log2 := by
        have nonzero : second ≠ 0 := by
          have := Nat.two_pow_pos bits
          omega
        apply (Nat.le_log2 nonzero).mpr
        have firstNonzero : first ≠ 0 := by
          have := Nat.two_pow_pos bits
          omega
        exact (Nat.log2_self_le firstNonzero).trans ordered
      rcases Nat.lt_or_eq_of_le logs with further | same
      · calc roundTo bits first
            ≤ 2 ^ (first.log2 + 1) := roundTo_le_pow_log firstLarge
          _ ≤ 2 ^ second.log2 := Nat.pow_le_pow_right (by decide) further
          _ ≤ roundTo bits second := secondAbove
      · rw [roundTo, roundTo, if_neg firstSmall, if_neg secondSmall, same]
        exact nearestMultiple_mono ordered

/-- A number below a small one was so before it was rounded. -/
theorem roundTo_lt_iff
    {limit : Nat}
    (positive : 0 < bits)
    (small : limit < 2 ^ bits) :
    roundTo bits number < limit ↔ number < limit := by
  constructor
  · intro below
    by_contra above
    have kept := roundTo_mono positive (Nat.not_lt.mp above)
    rw [roundTo_of_lt small] at kept
    omega
  · intro below
    rw [roundTo_of_lt (below.trans small)]
    exact below

end Order

end Lib
