import Mathlib

/-!
# Texts by bytes

Slices of texts at byte indices.  A slice exists only where the index falls between two
characters.
-/

namespace Lib

/-! ## Characters by bytes -/

/-- The number of bytes that characters take. -/
def byteLength (chars : List Char) : Nat :=
  (chars.map Char.utf8Size).sum

@[simp] theorem byteLength_nil : byteLength [] = 0 :=
  rfl

@[simp] theorem byteLength_cons
    (char : Char)
    (chars : List Char) :
    byteLength (char :: chars) = char.utf8Size + byteLength chars := by
  unfold byteLength
  rw [List.map_cons, List.sum_cons]

theorem byteLength_append
    (first second : List Char) :
    byteLength (first ++ second) = byteLength first + byteLength second := by
  unfold byteLength
  rw [List.map_append, List.sum_append]

/-- The characters before and after a byte index; `none` when it lies inside a character
or past the end. -/
def splitBytes : List Char → Nat → Option (List Char × List Char)
  | chars, 0 => some ([], chars)
  | [], _ + 1 => none
  | char :: chars, index + 1 =>
      if char.utf8Size ≤ index + 1 then
        (splitBytes chars (index + 1 - char.utf8Size)).map fun halves =>
          (char :: halves.1, halves.2)
      else none

@[simp] theorem splitBytes_zero
    (chars : List Char) :
    splitBytes chars 0 = some ([], chars) := by
  unfold splitBytes
  rfl

theorem splitBytes_cons
    (char : Char)
    (chars : List Char)
    {index : Nat}
    (fits : char.utf8Size ≤ index) :
    splitBytes (char :: chars) index =
      (splitBytes chars (index - char.utf8Size)).map fun halves =>
        (char :: halves.1, halves.2) := by
  have positive := char.utf8Size_pos
  cases index with
  | zero => omega
  | succ index => rw [splitBytes, if_pos fits]

theorem splitBytes_eq_some_iff
    {chars front rest : List Char}
    {index : Nat} :
    splitBytes chars index = some (front, rest) ↔
      chars = front ++ rest ∧ byteLength front = index := by
  induction chars generalizing front index with
  | nil =>
      cases index with
      | zero =>
          rw [splitBytes_zero, Option.some.injEq, Prod.mk.injEq, List.nil_eq, List.nil_eq,
            List.nil_eq, List.append_eq_nil_iff]
          constructor
          · rintro ⟨rfl, rfl⟩
            exact ⟨⟨rfl, rfl⟩, rfl⟩
          · exact fun halves => halves.1
      | succ index =>
          constructor
          · intro split
            cases split
          · rintro ⟨isFront, length⟩
            rw [(List.append_eq_nil_iff.mp isFront.symm).1] at length
            cases length
  | cons char chars inductionHypothesis =>
      have positive := char.utf8Size_pos
      by_cases atStart : index = 0
      · subst atStart
        rw [splitBytes_zero, Option.some.injEq, Prod.mk.injEq]
        constructor
        · rintro ⟨rfl, rfl⟩
          exact ⟨rfl, rfl⟩
        · rintro ⟨isFront, length⟩
          cases front with
          | nil => exact ⟨rfl, isFront⟩
          | cons first front =>
              have := first.utf8Size_pos
              rw [byteLength_cons] at length
              omega
      · by_cases fits : char.utf8Size ≤ index
        · rw [splitBytes_cons char chars fits, Option.map_eq_some_iff]
          constructor
          · rintro ⟨⟨before, after⟩, split, halves⟩
            cases halves
            obtain ⟨isFront, length⟩ := inductionHypothesis.mp split
            refine ⟨congrArg (char :: ·) isFront, ?_⟩
            rw [byteLength_cons, length]
            omega
          · rintro ⟨isFront, length⟩
            cases front with
            | nil => exact absurd length.symm atStart
            | cons first front =>
                rw [List.cons_append, List.cons.injEq] at isFront
                obtain ⟨rfl, rfl⟩ := isFront
                rw [byteLength_cons] at length
                exact ⟨(front, rest), inductionHypothesis.mpr ⟨rfl, by omega⟩, rfl⟩
        · have inside : splitBytes (char :: chars) index = none := by
            cases index with
            | zero => exact absurd rfl atStart
            | succ index => rw [splitBytes, if_neg fits]
          rw [inside]
          constructor
          · intro split
            cases split
          · rintro ⟨isFront, length⟩
            cases front with
            | nil => exact absurd length.symm atStart
            | cons first front =>
                rw [List.cons_append, List.cons.injEq] at isFront
                rw [byteLength_cons, ← isFront.1] at length
                omega

/-- A byte index that falls between two characters, or at an end. -/
def IsCharBoundary (chars : List Char) (index : Nat) : Prop :=
  ∃ front rest, chars = front ++ rest ∧ byteLength front = index

theorem isSome_splitBytes_iff
    {chars : List Char}
    {index : Nat} :
    (splitBytes chars index).isSome ↔ IsCharBoundary chars index := by
  rw [Option.isSome_iff_exists]
  constructor
  · rintro ⟨⟨front, rest⟩, split⟩
    exact ⟨front, rest, splitBytes_eq_some_iff.mp split⟩
  · rintro ⟨front, rest, halves⟩
    exact ⟨(front, rest), splitBytes_eq_some_iff.mpr halves⟩

instance (chars : List Char) (index : Nat) : Decidable (IsCharBoundary chars index) :=
  decidable_of_iff _ isSome_splitBytes_iff

theorem byteLength_of_ascii
    {chars : List Char}
    (ascii : ∀ char ∈ chars, char.utf8Size = 1) :
    byteLength chars = chars.length := by
  induction chars with
  | nil => rfl
  | cons char chars inductionHypothesis =>
      rw [byteLength_cons, ascii char List.mem_cons_self,
        inductionHypothesis fun other isOther => ascii other (List.mem_cons_of_mem char isOther),
        List.length_cons, Nat.add_comm]

theorem byteLength_eq_one_iff
    {chars : List Char} :
    byteLength chars = 1 ↔ ∃ char : Char, char.utf8Size = 1 ∧ chars = [char] := by
  constructor
  · intro length
    cases chars with
    | nil => cases length
    | cons char chars =>
        have positive := char.utf8Size_pos
        rw [byteLength_cons] at length
        cases chars with
        | nil => exact ⟨char, by rw [byteLength_nil] at length; omega, rfl⟩
        | cons other chars =>
            have otherPositive := other.utf8Size_pos
            rw [byteLength_cons] at length
            omega
  · rintro ⟨char, ascii, rfl⟩
    rw [byteLength_cons, byteLength_nil, ascii]

theorem isCharBoundary_of_ascii
    {front rest : List Char}
    (ascii : ∀ char ∈ front, char.utf8Size = 1) :
    IsCharBoundary (front ++ rest) front.length :=
  ⟨front, rest, rfl, byteLength_of_ascii ascii⟩

theorem utf8Size_of_isDigit
    {char : Char}
    (isDigit : char.isDigit) :
    char.utf8Size = 1 := by
  unfold Char.isDigit at isDigit
  unfold Char.utf8Size
  rw [if_pos]
  rw [Bool.and_eq_true, decide_eq_true_eq, decide_eq_true_eq] at isDigit
  exact UInt32.le_trans isDigit.2 (by decide)

/-! ## Bytes of characters -/

theorem length_bytes
    (chars : List Char) :
    (chars.flatMap String.utf8EncodeChar).length = byteLength chars := by
  unfold byteLength
  rw [List.length_flatMap]
  exact congrArg List.sum (List.map_congr_left fun char _ => String.length_utf8EncodeChar char)

/-- A character of one byte is that byte. -/
theorem utf8EncodeChar_of_ascii
    {char : Char}
    (ascii : char.utf8Size = 1) :
    String.utf8EncodeChar char = [UInt8.ofNat char.toNat] := by
  rw [Char.utf8Size_eq_one_iff, UInt32.le_iff_toNat_le] at ascii
  exact if_pos ascii

theorem bytes_of_ascii
    {chars : List Char}
    (ascii : ∀ char ∈ chars, char.utf8Size = 1) :
    chars.flatMap String.utf8EncodeChar = chars.map fun char => UInt8.ofNat char.toNat := by
  induction chars with
  | nil => rfl
  | cons char chars inductionHypothesis =>
      rw [List.flatMap_cons, List.map_cons, utf8EncodeChar_of_ascii (ascii char List.mem_cons_self),
        inductionHypothesis fun other isOther => ascii other (List.mem_cons_of_mem char isOther)]
      rfl

theorem toNat_of_ascii
    {char : Char}
    (ascii : char.utf8Size = 1) :
    (UInt8.ofNat char.toNat).toNat = char.toNat := by
  rw [Char.utf8Size_eq_one_iff, UInt32.le_iff_toNat_le] at ascii
  rw [UInt8.toNat_ofNat']
  exact Nat.mod_eq_of_lt (Nat.lt_of_le_of_lt ascii (by decide))

/-- Every other character begins with a byte from 128 on. -/
theorem exists_byte_of_not_ascii
    {char : Char}
    (wide : char.utf8Size ≠ 1) :
    ∃ byte ∈ String.utf8EncodeChar char, 128 ≤ byte.toNat := by
  rw [ne_eq, Char.utf8Size_eq_one_iff, UInt32.le_iff_toNat_le] at wide
  unfold String.utf8EncodeChar
  dsimp only
  rw [if_neg (show ¬char.val.toNat ≤ 127 from wide)]
  split
  · exact ⟨_, List.mem_cons_self, by rw [UInt8.toNat_ofNat']; omega⟩
  · split
    · exact ⟨_, List.mem_cons_self, by rw [UInt8.toNat_ofNat']; omega⟩
    · exact ⟨_, List.mem_cons_self, by rw [UInt8.toNat_ofNat']; omega⟩

/-- Characters whose bytes are all below 128 are of one byte each. -/
theorem ascii_of_bytes
    {chars : List Char}
    (small : ∀ byte ∈ chars.flatMap String.utf8EncodeChar, byte.toNat < 128) :
    ∀ char ∈ chars, char.utf8Size = 1 := by
  intro char isChar
  by_contra wide
  obtain ⟨byte, isByte, large⟩ := exists_byte_of_not_ascii wide
  exact absurd (small byte (List.mem_flatMap.mpr ⟨char, isChar, isByte⟩)) (Nat.not_lt_of_le large)

/-- The first characters that fit whole into some bytes. -/
def fitting : List Char → Nat → List Char
  | [], _ => []
  | char :: chars, room =>
      if char.utf8Size ≤ room then char :: fitting chars (room - char.utf8Size) else []

/-! ## Texts by bytes -/

theorem utf8ByteSize_ofList
    (chars : List Char) :
    (String.ofList chars).utf8ByteSize = byteLength chars := by
  induction chars with
  | nil => rfl
  | cons char chars inductionHypothesis =>
      rw [byteLength_cons, ← inductionHypothesis, String.ofList_cons, String.utf8ByteSize_append,
        String.utf8ByteSize_singleton]

theorem byteLength_toList
    (text : String) :
    byteLength text.toList = text.utf8ByteSize := by
  rw [← utf8ByteSize_ofList, String.ofList_toList]

/-- The text before a byte index; `none` when there is no such slice. -/
def sliceTo (text : String) (index : Nat) : Option String :=
  (splitBytes text.toList index).map fun halves => String.ofList halves.1

theorem isSome_sliceTo_iff
    {text : String}
    {index : Nat} :
    (sliceTo text index).isSome ↔ IsCharBoundary text.toList index := by
  unfold sliceTo
  rw [Option.isSome_map, isSome_splitBytes_iff]

end Lib
