import NostrBbs.Shared.Texts

/-!
# Signed events

The id of an event is the digest of its canonical JSON form; its signature is checked
against the key that its public key text decodes to.  The digest and the curve are taken
as they come.
-/

namespace NostrBbs
namespace Shared

open Relay (NostrEvent Tag)

abbrev Bytes := List UInt8

/-! ## Hexadecimal texts -/

def hexDigits : List Char :=
  ['0', '1', '2', '3', '4', '5', '6', '7', '8', '9', 'a', 'b', 'c', 'd', 'e', 'f']

def hexDigit (value : Nat) : Char :=
  hexDigits.getD value '0'

/-- The value of a hexadecimal digit in either case. -/
def hexValue (char : Char) : Option Nat :=
  hexDigits.idxOf? char.toLower

def hexEncodeChars (bytes : Bytes) : List Char :=
  bytes.flatMap fun byte => [hexDigit (byte.toNat / 16), hexDigit (byte.toNat % 16)]

def hexEncode (bytes : Bytes) : String :=
  String.ofList (hexEncodeChars bytes)

def hexDecodeChars : List Char → Option Bytes
  | [] => some []
  | [_] => none
  | high :: low :: rest =>
      match hexValue high, hexValue low, hexDecodeChars rest with
      | some first, some second, some bytes => some (UInt8.ofNat (16 * first + second) :: bytes)
      | _, _, _ => none

def hexDecode (text : String) : Option Bytes :=
  hexDecodeChars text.toList

theorem hexValue_spec
    {char : Char}
    {value : Nat}
    (isValue : hexValue char = some value) :
    value < 16 ∧ hexDigit value = char.toLower := by
  unfold hexValue at isValue
  obtain ⟨inBounds, isDigit, -⟩ := List.idxOf?_eq_some_iff.mp isValue
  refine ⟨inBounds, ?_⟩
  unfold hexDigit
  rw [List.getD_eq_getElem?_getD, List.getElem?_eq_getElem inBounds, Option.getD_some]
  exact isDigit

/-- What a text decodes to is encoded as the text in lower case. -/
theorem hexEncodeChars_of_hexDecodeChars
    {chars : List Char}
    {bytes : Bytes}
    (decoded : hexDecodeChars chars = some bytes) :
    hexEncodeChars bytes = chars.map Char.toLower := by
  induction chars using hexDecodeChars.induct generalizing bytes with
  | case1 =>
      cases decoded
      rfl
  | case2 char => cases decoded
  | case3 high low rest first second tail isTail isSecond isFirst inductionHypothesis =>
      rw [hexDecodeChars, isFirst, isSecond, isTail] at decoded
      cases decoded
      obtain ⟨firstBound, isHigh⟩ := hexValue_spec isFirst
      obtain ⟨secondBound, isLow⟩ := hexValue_spec isSecond
      have value : (UInt8.ofNat (16 * first + second)).toNat = 16 * first + second := by
        rw [UInt8.toNat_ofNat']
        exact Nat.mod_eq_of_lt (by omega)
      have digits : hexEncodeChars (UInt8.ofNat (16 * first + second) :: tail) =
          hexDigit ((16 * first + second) / 16) :: hexDigit ((16 * first + second) % 16) ::
            hexEncodeChars tail := by
        unfold hexEncodeChars
        rw [List.flatMap_cons, value]
        rfl
      have highValue : (16 * first + second) / 16 = first := by omega
      have lowValue : (16 * first + second) % 16 = second := by omega
      rw [digits, highValue, lowValue, inductionHypothesis isTail, isHigh, isLow]
      rfl
  | case4 high low rest notDecoded inductionHypothesis =>
      rw [hexDecodeChars] at decoded
      split at decoded
      · rename_i first second tail isFirst isSecond isTail
        exact absurd isTail (notDecoded first second tail isFirst isSecond)
      · cases decoded

theorem hexEncode_of_hexDecode
    {text : String}
    {bytes : Bytes}
    (decoded : hexDecode text = some bytes) :
    hexEncode bytes = toAsciiLowercase text := by
  unfold hexEncode
  rw [hexEncodeChars_of_hexDecodeChars decoded]
  rfl

/-- A hexadecimal form takes one byte for each character. -/
theorem utf8Size_of_mem_hexEncodeChars
    {bytes : Bytes}
    {char : Char}
    (isChar : char ∈ hexEncodeChars bytes) :
    char.utf8Size = 1 := by
  have digits : ∀ value, (hexDigit value).utf8Size = 1 := by
    intro value
    unfold hexDigit
    rw [List.getD_eq_getElem?_getD]
    cases isDigit : hexDigits[value]? with
    | none => rfl
    | some digit =>
        have single : hexDigits.all (fun digit => digit.utf8Size == 1) = true := rfl
        exact beq_iff_eq.mp (List.all_eq_true.mp single digit (List.mem_of_getElem? isDigit))
  unfold hexEncodeChars at isChar
  obtain ⟨byte, -, isDigit⟩ := List.mem_flatMap.mp isChar
  rcases List.mem_cons.mp isDigit with rfl | isLow
  · exact digits _
  · rw [List.mem_singleton.mp isLow]
    exact digits _

/-! ## Events as JSON -/

/-- An unsigned event template. -/
structure UnsignedEvent where
  pubkey : String
  createdAt : Nat
  kind : Nat
  tags : List Tag
  content : String
deriving DecidableEq, Repr

/-- A character in a JSON string. -/
def escapeChar (char : Char) : List Char :=
  if char = '"' then ['\\', '"']
  else if char = '\\' then ['\\', '\\']
  else if char = '\n' then ['\\', 'n']
  else if char = '\r' then ['\\', 'r']
  else if char = '\t' then ['\\', 't']
  else if char.toNat = 8 then ['\\', 'b']
  else if char.toNat = 12 then ['\\', 'f']
  else if char.toNat < 32 then
    ['\\', 'u', '0', '0', hexDigit (char.toNat / 16), hexDigit (char.toNat % 16)]
  else [char]

def jsonString (text : String) : List Char :=
  ['"'] ++ text.toList.flatMap escapeChar ++ ['"']

/-- The forms of items, with commas between them. -/
def jsonList (items : List (List Char)) : List Char :=
  ['['] ++ [','].intercalate items ++ [']']

/-- The array that an event's id is the digest of. -/
def canonicalJson (event : UnsignedEvent) : List Char :=
  jsonList
    [['0'], jsonString event.pubkey, (toString event.createdAt).toList,
      (toString event.kind).toList,
      jsonList (event.tags.map fun tag => jsonList (tag.map jsonString)),
      jsonString event.content]

def utf8 (chars : List Char) : Bytes :=
  chars.flatMap String.utf8EncodeChar

/-! ## Verification -/

/-- What the digest and the curve provide. -/
structure Primitives where
  sha256 : Bytes → Bytes
  isPoint : Bytes → Bool
  isSignature : Bytes → Bool
  verifyRaw : Bytes → Bytes → Bytes → Bool

/-- A signature that verifies was made with the key. -/
def Primitives.Unforgeable (primitives : Primitives) (signed : Bytes → Bytes → Prop) : Prop :=
  ∀ key message signature, primitives.verifyRaw key message signature = true → signed key message

inductive EventError where
  | idMismatch (actual expected : String)
  | invalidPubkey
  | invalidPubkeyPoint
  | invalidSignature
  | signatureInvalid
deriving DecidableEq, Repr

section Verification

variable (primitives : Primitives)

def computeEventId (event : UnsignedEvent) : Bytes :=
  primitives.sha256 (utf8 (canonicalJson event))

/-- The signed fields of an event. -/
def unsignedPart (event : NostrEvent) : UnsignedEvent :=
  ⟨event.pubkey, event.createdAt, event.kind, event.tags, event.content⟩

def recomputeEventId (event : NostrEvent) : Bytes :=
  computeEventId primitives (unsignedPart event)

/-- The bytes that a text of a fixed length decodes to. -/
def hexDecodeSized (size : Nat) (text : String) : Option Bytes :=
  (hexDecode text).filter fun bytes => bytes.length = size

def verifyEventStrict (event : NostrEvent) : Except EventError Unit :=
  let expectedId := recomputeEventId primitives event
  if event.id ≠ hexEncode expectedId then
    .error (.idMismatch event.id (hexEncode expectedId))
  else
    match hexDecodeSized 32 event.pubkey with
    | none => .error .invalidPubkey
    | some verifyingKey =>
        if !primitives.isPoint verifyingKey then
          .error .invalidPubkeyPoint
        else
          match hexDecodeSized 64 event.sig with
          | none => .error .invalidSignature
          | some signature =>
              if !primitives.isSignature signature then
                .error .invalidSignature
              else if primitives.verifyRaw verifyingKey expectedId signature then
                .ok ()
              else .error .signatureInvalid

/-- An event verifies when it has its own id, and its key and its signature decode to ones
that verify that id. -/
theorem verifyEventStrict_eq_ok_iff
    {primitives : Primitives}
    {event : NostrEvent} :
    verifyEventStrict primitives event = .ok () ↔
      event.id = hexEncode (recomputeEventId primitives event) ∧
        ∃ key signature, hexDecodeSized 32 event.pubkey = some key ∧
          primitives.isPoint key = true ∧ hexDecodeSized 64 event.sig = some signature ∧
          primitives.isSignature signature = true ∧
          primitives.verifyRaw key (recomputeEventId primitives event) signature = true := by
  unfold verifyEventStrict
  constructor
  · intro verified
    dsimp only at verified
    split at verified
    · cases verified
    · rename_i sameId
      split at verified
      · cases verified
      · rename_i key isKey
        split at verified
        · cases verified
        · rename_i isPoint
          split at verified
          · cases verified
          · rename_i signature decoded
            split at verified
            · cases verified
            · rename_i isSignature
              split at verified
              · rename_i verifies
                exact ⟨not_not.mp sameId, key, signature, isKey, by simpa using isPoint, decoded,
                  by simpa using isSignature, verifies⟩
              · cases verified
  · rintro ⟨sameId, key, signature, isKey, isPoint, decoded, isSignature, verifies⟩
    dsimp only
    rw [if_neg (not_not.mpr sameId), isKey]
    dsimp only
    rw [isPoint, decoded]
    simp [isSignature, verifies]

end Verification

end Shared
end NostrBbs
