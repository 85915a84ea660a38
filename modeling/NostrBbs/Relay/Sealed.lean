import NostrBbs.Lib.Decimals
import NostrBbs.Relay.Event

/-!
# Marks of encrypted messages

The tags of a zone-encrypted channel message and of an envelope that seals an
original, read as the relay, the clients and the migrator all read them.
-/

namespace NostrBbs
namespace Relay

/-! ## Texts -/

/-- An unsigned number of some bits as the source reads it from a text: digits, a
plus before them allowed. -/
def parseUnsigned (bits : Nat) (text : String) : Option Nat :=
  let digits :=
    match text.toList with
    | '+' :: rest => rest
    | chars => chars
  if digits = [] ∨ !digits.all Char.isDigit then none
  else
    let value := digits.foldl (fun value digit => 10 * value + (digit.toNat - 48)) 0
    if value < 2 ^ bits then some value else none

/-- What the unsigned number parser reads: digits, after a plus or not. -/
theorem parseUnsigned_iff
    {bits value : Nat}
    {chars : List Char} :
    parseUnsigned bits (String.ofList chars) = some value ↔
      ∃ digits, (chars = '+' :: digits ∨ chars = digits) ∧ digits ≠ [] ∧ Lib.AreDigits digits ∧
        Lib.digitsValue digits = value ∧ value < 2 ^ bits := by
  have reads : ∀ digits : List Char,
      (if digits = [] ∨ (!digits.all Char.isDigit) = true then none
        else
          if digits.foldl (fun value digit => 10 * value + (digit.toNat - 48)) 0 < 2 ^ bits then
            some (digits.foldl (fun value digit => 10 * value + (digit.toNat - 48)) 0)
          else none) = some value ↔
        digits ≠ [] ∧ Lib.AreDigits digits ∧ Lib.digitsValue digits = value ∧ value < 2 ^ bits := by
    intro digits
    have isValue : digits.foldl (fun value digit => 10 * value + (digit.toNat - 48)) 0 =
        Lib.digitsValue digits := rfl
    rw [isValue]
    by_cases spelled : digits = [] ∨ (!digits.all Char.isDigit) = true
    · rw [if_pos spelled]
      refine iff_of_false (fun reads => by cases reads) ?_
      rintro ⟨notEmpty, areDigits, -⟩
      rcases spelled with isEmpty | notDigits
      · exact notEmpty isEmpty
      · rw [List.all_eq_true.mpr areDigits] at notDigits
        cases notDigits
    · rw [if_neg spelled]
      push Not at spelled
      have areDigits : Lib.AreDigits digits := by
        have all := spelled.2
        rw [ne_eq, Bool.not_eq_true', Bool.not_eq_false] at all
        exact List.all_eq_true.mp all
      by_cases fits : Lib.digitsValue digits < 2 ^ bits
      · rw [if_pos fits, Option.some.injEq]
        constructor
        · rintro rfl
          exact ⟨spelled.1, areDigits, rfl, fits⟩
        · exact fun read => read.2.2.1
      · rw [if_neg fits]
        refine iff_of_false (fun reads => by cases reads) ?_
        rintro ⟨-, -, rfl, isFit⟩
        exact fits isFit
  unfold parseUnsigned
  dsimp only
  rw [String.toList_ofList]
  split
  · rename_i rest
    rw [reads]
    constructor
    · exact fun read => ⟨rest, .inl rfl, read⟩
    · rintro ⟨digits, isChars, notEmpty, areDigits, read⟩
      rcases isChars with isPlus | isDigits
      · cases isPlus
        exact ⟨notEmpty, areDigits, read⟩
      · have plus := areDigits '+' (isDigits ▸ List.mem_cons_self)
        cases plus
  · rename_i noPlus
    rw [reads]
    constructor
    · exact fun read => ⟨chars, .inr rfl, read⟩
    · rintro ⟨digits, isChars, read⟩
      rcases isChars with isPlus | rfl
      · exact absurd isPlus (noPlus digits)
      · exact read

/-- A number that fits is read back from its digits. -/
theorem parseUnsigned_toDigits
    {bits value : Nat}
    (fits : value < 2 ^ bits) :
    parseUnsigned bits (String.ofList (Nat.toDigits 10 value)) = some value :=
  parseUnsigned_iff.mpr ⟨_, .inr rfl, Nat.toDigits_ne_nil, Lib.areDigits_toDigits value,
    Nat.ofDigitChars_ten_toDigits, fits⟩

theorem parseUnsigned_toString
    {bits value : Nat}
    (fits : value < 2 ^ bits) :
    parseUnsigned bits (toString value) = some value := by
  rw [Nat.toString_eq_ofList_toDigits]
  exact parseUnsigned_toDigits fits

def isAsciiHexdigit (char : Char) : Bool :=
  char.isDigit || ('a' ≤ char && char ≤ 'f') || ('A' ≤ char && char ≤ 'F')

/-- A text of 64 hexadecimal characters. -/
def isHex64 (text : String) : Bool :=
  text.length = 64 && text.toList.all isAsciiHexdigit

/-! ## Sealed originals -/

/-- A parsed `sealed` tag: the id of the wrapped original and the format
version. -/
structure SealedRef where
  innerId : String
  version : Nat
deriving DecidableEq, Repr

/-- One tag read as a `sealed` tag. -/
def sealedRef (tag : Tag) : Option SealedRef :=
  if tag.length < 3 ∨ tag.head? ≠ some "sealed" ∨ !isHex64 (tag.getD 1 "") then none
  else (parseUnsigned 32 (tag.getD 2 "")).map fun version =>
    ⟨String.ofList (asciiLower (tag.getD 1 "")), version⟩

/-- The first well-formed `sealed` tag. -/
def parseSealed (tags : List Tag) : Option SealedRef :=
  tags.findSome? sealedRef

/-- Some tag is named `sealed`, well formed or not. -/
def hasSealedTag (tags : List Tag) : Bool :=
  tags.any fun tag => tag.head? == some "sealed"

def hasZkTag (tags : List Tag) : Bool :=
  tags.any fun tag => tag.head? == some "zk"

theorem head_of_sealedRef
    {tag : Tag}
    {ref : SealedRef}
    (parsed : sealedRef tag = some ref) :
    tag.head? = some "sealed" := by
  unfold sealedRef at parsed
  split at parsed
  · cases parsed
  · rename_i passes
    rw [not_or, not_or, ne_eq, not_not] at passes
    exact passes.2.1

/-- A well-formed marker is a marker. -/
theorem hasSealedTag_of_parseSealed
    {tags : List Tag}
    {ref : SealedRef}
    (parsed : parseSealed tags = some ref) :
    hasSealedTag tags := by
  obtain ⟨tag, member, isRef⟩ := List.exists_of_findSome?_eq_some parsed
  apply List.any_eq_true.mpr
  exact ⟨tag, member, beq_iff_eq.mpr (head_of_sealedRef isRef)⟩

/-! ## Zone-key ciphertext -/

/-- A tag names a zone's key: `["zk", zone, epoch, pubkey]`. -/
def isZoneKeyTag (zone : String) (tag : Tag) : Bool :=
  4 ≤ tag.length && tag.head? == some "zk" && tag.getD 1 "" == zone &&
    (parseUnsigned 32 (tag.getD 2 "")).any (1 ≤ ·) && isHex64 (tag.getD 3 "")

/-- A message carries ciphertext for a zone: a tag of the zone's key and content
of the shape of a NIP-44 payload, read with a base64 decoder. -/
def isZoneCiphertext (decodeBase64 : String → Option (List UInt8)) (zone : String)
    (tags : List Tag) (content : String) : Bool :=
  if !tags.any (isZoneKeyTag zone) || content.utf8ByteSize < 132 ||
      87472 < content.utf8ByteSize then false
  else (decodeBase64 content).any fun bytes => 99 ≤ bytes.length && bytes.head? == some 2

end Relay
end NostrBbs
