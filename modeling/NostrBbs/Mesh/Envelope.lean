import NostrBbs.Mesh.Delegation

/-!
# Envelopes

What a rumor carries across the mesh: who it is from and to, a body whose shape its kind
says, and the token of a delegation, if there is one.
-/

namespace NostrBbs
namespace Mesh

open Shared
open Relay (JsonValue)

/-! ## Canonical JSON -/

mutual

/-- A value without white space, the members of its objects by their keys. -/
def canonicalize : JsonValue → List Char
  | .null => "null".toList
  | .bool value => if value then "true".toList else "false".toList
  | .number text => text.toList
  | .string text => jsonString text
  | .array items => jsonList (canonicalizeItems items)
  | .object fields =>
      let sorted := (canonicalizeFields fields).mergeSort fun first second => first.1 ≤ second.1
      ['\x7b'] ++ [','].intercalate (sorted.map fun field => jsonString field.1 ++ [':'] ++ field.2) ++
        ['\x7d']

def canonicalizeItems : List JsonValue → List (List Char)
  | [] => []
  | item :: rest => canonicalize item :: canonicalizeItems rest

def canonicalizeFields : List (String × JsonValue) → List (String × List Char)
  | [] => []
  | field :: rest => canonicalizeField field :: canonicalizeFields rest

def canonicalizeField : String × JsonValue → String × List Char
  | (key, value) => (key, canonicalize value)

end

/-! ## Envelopes -/

inductive EnvelopeKind where
  | chat
  | toolInvoke
  | toolResult
  | knowledgeLink
  | moderation
  | meshPing
deriving DecidableEq, Repr

inductive EnvelopeError where
  | missingField (name : String)
  | invalidDid (message : String)
  | unsupportedVersion (version : Nat)
  | viaTooLong (hops : Nat)
  | bodyTooLarge (size : Nat)
  | malformedBody (message : String)
  | invalidDelegation (cause : DelegationError)
  | json (message : String)
deriving DecidableEq, Repr

def envelopeVersion : Nat := 1

def maxViaHops : Nat := 4

def maxBodyBytes : Nat := 64 * 1024

def defaultTtlSecs : Nat := 7 * 24 * 60 * 60

structure Envelope where
  v : Nat
  to' : String
  «from» : String
  via : List String
  ttl : Option Nat
  kind : EnvelopeKind
  body : JsonValue
  delegation : Option DelegationToken

/-! ## Identities -/

def didNostrPrefix : String := "did:nostr:"

def normaliseDid (text : String) : String :=
  didNostrPrefix ++ toAsciiLowercase ((stripPrefix didNostrPrefix text).getD text)

def isLowercaseHexDigit (char : Char) : Bool :=
  char.isDigit || ('a' ≤ char && char ≤ 'f')

/-- The key of an identity. -/
def didToHex (text : String) : Except String String :=
  match stripPrefix didNostrPrefix text with
  | none => .error ("missing did:nostr: prefix: " ++ text)
  | some hex =>
      if hex.utf8ByteSize ≠ 64 then
        .error ("expected 64 hex chars, got " ++ toString hex.utf8ByteSize)
      else if !hex.toList.all isLowercaseHexDigit then
        .error ("non-lowercase-hex in did: " ++ text)
      else .ok hex

def validateDid (text : String) : Except EnvelopeError Unit :=
  ((didToHex text).map fun _ => ()).mapError .invalidDid

/-! ## Validation -/

/-- A member of an object that has to be a text. -/
def requireString (fields : List (String × JsonValue)) (key kind : String) :
    Except EnvelopeError Unit :=
  match fields.lookup key with
  | some (.string _) => .ok ()
  | _ => .error (.malformedBody (kind ++ " requires string " ++ "`" ++ key ++ "`"))

def requireObject (body : JsonValue) (kind : String) :
    Except EnvelopeError (List (String × JsonValue)) :=
  match body with
  | .object fields => .ok fields
  | _ => .error (.malformedBody (kind ++ " body must be an object"))

namespace Envelope

def validateBodyShape (envelope : Envelope) : Except EnvelopeError Unit :=
  match envelope.kind with
  | .chat =>
      match envelope.body with
      | .string _ => .ok ()
      | .object fields =>
          match fields.lookup "text" with
          | some (.string _) => .ok ()
          | _ => .error (.malformedBody "chat object requires string `text`")
      | _ => .error (.malformedBody "chat body must be string or object")
  | .toolInvoke => do
      let fields ← requireObject envelope.body "tool_invoke"
      requireString fields "tool" "tool_invoke"
  | .toolResult => do
      let fields ← requireObject envelope.body "tool_result"
      requireString fields "status" "tool_result"
  | .knowledgeLink => do
      let fields ← requireObject envelope.body "knowledge_link"
      requireString fields "subject_urn" "knowledge_link"
      requireString fields "claim" "knowledge_link"
  | .moderation => do
      let fields ← requireObject envelope.body "moderation"
      requireString fields "action" "moderation"
      requireString fields "target" "moderation"
  | .meshPing => (requireObject envelope.body "mesh_ping").map fun _ => ()

def isNull : JsonValue → Bool
  | .null => true
  | _ => false

def validate (envelope : Envelope) : Except EnvelopeError Unit := do
  if envelope.v ≠ envelopeVersion then
    throw (.unsupportedVersion envelope.v)
  validateDid envelope.to'
  validateDid envelope.from
  if maxViaHops < envelope.via.length then
    throw (.viaTooLong envelope.via.length)
  envelope.via.forM validateDid
  if isNull envelope.body then
    throw (.missingField "body")
  let bodyLength := (String.ofList (canonicalize envelope.body)).utf8ByteSize
  if maxBodyBytes < bodyLength then
    throw (.bodyTooLarge bodyLength)
  envelope.validateBodyShape
  match envelope.delegation with
  | none => pure ()
  | some token => do
      (token.validateStructure).mapError .invalidDelegation
      validateDid (normaliseDid token.delegator)

def originHex (envelope : Envelope) : Except EnvelopeError String :=
  (didToHex envelope.from).mapError .invalidDid

/-- Numbers of 64 bits that are added stay at the greatest one. -/
def isExpiredWithDefault (envelope : Envelope) (now createdAt : Nat) : Bool :=
  match envelope.ttl with
  | some ttl => ttl < now
  | none => min (createdAt + defaultTtlSecs) (2 ^ 64 - 1) < now

end Envelope

theorem not_isUpper_of_isLowercaseHexDigit
    {char : Char}
    (isDigit : isLowercaseHexDigit char = true) :
    ¬char.isUpper := by
  intro isUpper
  simp only [isLowercaseHexDigit, Char.isDigit, Char.isUpper, Bool.or_eq_true, Bool.and_eq_true,
    decide_eq_true_eq, Char.le_def, UInt32.le_iff_toNat_le, ge_iff_le] at isDigit isUpper
  obtain ⟨fromA, toZ⟩ := isUpper
  change 65 ≤ char.val.toNat at fromA
  change char.val.toNat ≤ 90 at toZ
  rcases isDigit with ⟨-, toNine⟩ | ⟨fromSmallA, -⟩
  · change char.val.toNat ≤ 57 at toNine
    omega
  · change 97 ≤ char.val.toNat at fromSmallA
    omega

/-- The key of an identity is in lower case, and the identity is made of it. -/
theorem didToHex_ok
    {text hex : String}
    (isKey : didToHex text = .ok hex) :
    text = didNostrPrefix ++ hex ∧ toAsciiLowercase hex = hex := by
  unfold didToHex at isKey
  split at isKey
  · cases isKey
  · rename_i rest stripped
    split at isKey
    · cases isKey
    · split at isKey
      · cases isKey
      · rename_i isLower
        cases isKey
        refine ⟨stripPrefix_eq_some_iff.mp stripped, ?_⟩
        rw [Bool.not_eq_true', Bool.not_eq_false, List.all_eq_true] at isLower
        unfold toAsciiLowercase Relay.asciiLower
        rw [← String.toList_inj, String.toList_ofList]
        conv_rhs => rw [← List.map_id hex.toList]
        apply List.map_congr_left
        intro char held
        exact Char.toLower_eq_of_not_isUpper
          (not_isUpper_of_isLowercaseHexDigit (isLower char held))

end Mesh
end NostrBbs
