import Mathlib.Tactic.Ring

/-!
# Bytes

Numbers as bytes in either order, slices of byte strings, and the arithmetic of sizes of 32
bits, in which an addition may wrap around and a slice may fall out of range.
-/

namespace Lib

/-! ## Numbers of some bytes -/

/-- The number that bytes make, the least significant one first. -/
def leValue : List UInt8 → Nat
  | [] => 0
  | byte :: rest => byte.toNat + 256 * leValue rest

/-- The least significant bytes of a number, in this order. -/
def leBytes : Nat → Nat → List UInt8
  | 0, _ => []
  | width + 1, value => UInt8.ofNat value :: leBytes width (value / 256)

@[simp] theorem length_leBytes
    (width value : Nat) :
    (leBytes width value).length = width := by
  induction width generalizing value with
  | zero => rfl
  | succ width inductionHypothesis =>
      rw [leBytes, List.length_cons, inductionHypothesis]

theorem leValue_leBytes
    (width value : Nat) :
    leValue (leBytes width value) = value % 256 ^ width := by
  induction width generalizing value with
  | zero => simp [leBytes, leValue, Nat.mod_one]
  | succ width inductionHypothesis =>
      have isByte : (UInt8.ofNat value).toNat = value % 256 := UInt8.toNat_ofNat'
      rw [leBytes, leValue, inductionHypothesis, isByte, Nat.pow_succ', Nat.mod_mul]

theorem leValue_leBytes_of_lt
    {width value : Nat}
    (fits : value < 256 ^ width) :
    leValue (leBytes width value) = value := by
  rw [leValue_leBytes, Nat.mod_eq_of_lt fits]

/-! ## Slices -/

/-- Some bytes from a place on. -/
def bytesAt (bytes : List UInt8) (offset width : Nat) : List UInt8 :=
  (bytes.drop offset).take width

theorem length_bytesAt
    {bytes : List UInt8}
    {offset width : Nat}
    (within : offset + width ≤ bytes.length) :
    (bytesAt bytes offset width).length = width := by
  rw [bytesAt, List.length_take, List.length_drop]
  omega

/-- Bytes that lie in the front of a string are bytes of the front. -/
theorem bytesAt_take
    {bytes : List UInt8}
    {offset width size : Nat}
    (within : offset + width ≤ size) :
    bytesAt (bytes.take size) offset width = bytesAt bytes offset width := by
  rw [bytesAt, bytesAt, List.drop_take, List.take_take, Nat.min_eq_left (by omega)]

/-- The bytes after a front are those that come next. -/
theorem bytesAt_append
    {front middle rest : List UInt8}
    {offset width : Nat}
    (isFront : front.length = offset)
    (isMiddle : middle.length = width) :
    bytesAt (front ++ (middle ++ rest)) offset width = middle := by
  rw [bytesAt, ← isFront, List.drop_left, ← isMiddle, List.take_left]

/-! ## Sizes of 32 bits -/

/-- What ends a program on sizes: an addition that is checked and overflows, an index out of
range, or steps without end. -/
inductive Fault where
  | overflow
  | outOfRange
  | unfinished
deriving DecidableEq, Repr

/-- The number of sizes. -/
def sizeLimit : Nat := 2 ^ 32

/-- The most bytes that a string of the target has. -/
def maxBytes : Nat := 2 ^ 31 - 1

/-- The size that a longer number is cast to. -/
def toSize (value : Nat) : Nat :=
  value % sizeLimit

/-- An addition of sizes: where additions are not checked, it wraps around. -/
def addSize (checked : Bool) (first second : Nat) : Except Fault Nat :=
  if first + second < sizeLimit then .ok (first + second)
  else if checked then .error .overflow
  else .ok (toSize (first + second))

/-- A slice from one place to another. -/
def sliceOf (bytes : List UInt8) (start stop : Nat) : Except Fault (List UInt8) :=
  if start ≤ stop ∧ stop ≤ bytes.length then .ok (bytesAt bytes start (stop - start))
  else .error .outOfRange

theorem addSize_of_lt
    {first second : Nat}
    (checked : Bool)
    (fits : first + second < sizeLimit) :
    addSize checked first second = .ok (first + second) :=
  if_pos fits

theorem sliceOf_of_le
    {bytes : List UInt8}
    {start stop : Nat}
    (ordered : start ≤ stop)
    (within : stop ≤ bytes.length) :
    sliceOf bytes start stop = .ok (bytesAt bytes start (stop - start)) :=
  if_pos ⟨ordered, within⟩

end Lib
