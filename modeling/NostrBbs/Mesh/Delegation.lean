import NostrBbs.Lib.Fallible
import NostrBbs.Shared.Signing

/-!
# Delegation

A delegator signs that another key may sign for it under conditions on the kind and the
time of an event.  The conditions are clauses of a text.
-/

namespace NostrBbs
namespace Mesh

open Shared
open Relay (parseUnsigned isAsciiHexdigit)

/-! ## Conditions -/

inductive DelegationError where
  | malformed (message : String)
  | badSignature
  | conditionsUnmet (message : String)
  | mismatch
deriving DecidableEq, Repr

/-- One clause of a condition text. -/
inductive Clause where
  | kind (value : Nat)
  | createdAfter (time : Nat)
  | createdBefore (time : Nat)
deriving DecidableEq, Repr

/-- The clauses of a text, before they are read. -/
def clauseTexts (text : String) : List (List Char) :=
  ((text.toList.splitOn '&').map trimChars).filter (· ≠ [])

/-- A number after the start of a clause. -/
def readNumber (complaint : String) (clause rest : List Char) : Except DelegationError Nat :=
  match parseUnsigned 64 (String.ofList rest) with
  | some value => .ok value
  | none => .error (.malformed (complaint ++ ": " ++ String.ofList clause))

def readClause (clause : List Char) : Except DelegationError Clause :=
  match stripPrefixChars "kind=".toList clause with
  | some rest => (readNumber "bad kind clause" clause rest).map .kind
  | none =>
      match stripPrefixChars "created_at>".toList clause with
      | some rest => (readNumber "bad created_at>" clause rest).map .createdAfter
      | none =>
          match stripPrefixChars "created_at<".toList clause with
          | some rest => (readNumber "bad created_at<" clause rest).map .createdBefore
          | none => .error (.malformed ("unknown clause: " ++ String.ofList clause))

def readClauses (text : String) : Except DelegationError (List Clause) :=
  (clauseTexts text).mapM readClause

structure Conditions where
  kinds : List Nat
  createdAtGt : Option Nat
  createdAtLt : Option Nat
deriving DecidableEq, Repr

namespace Conditions

def empty : Conditions :=
  ⟨[], none, none⟩

/-- A clause that is read: of the bounds on each side the last one stays. -/
def add (conditions : Conditions) : Clause → Conditions
  | .kind value => { conditions with kinds := conditions.kinds ++ [value] }
  | .createdAfter time => { conditions with createdAtGt := some time }
  | .createdBefore time => { conditions with createdAtLt := some time }

def parse (text : String) : Except DelegationError Conditions := do
  let read ← readClauses text
  let conditions := read.foldl add empty
  if conditions = empty then
    .error (.malformed "no conditions parsed")
  else .ok conditions

def check (conditions : Conditions) (kind createdAt : Nat) : Except DelegationError Unit :=
  if conditions.kinds ≠ [] ∧ kind ∉ conditions.kinds then
    .error (.conditionsUnmet ("kind " ++ toString kind ++ " not in delegated set " ++
      toString conditions.kinds))
  else
    match conditions.createdAtGt.filter fun time => ¬time < createdAt with
    | some time =>
        .error (.conditionsUnmet ("created_at " ++ toString createdAt ++ " not > " ++
          toString time))
    | none =>
        match conditions.createdAtLt.filter fun time => ¬createdAt < time with
        | some time =>
            .error (.conditionsUnmet ("created_at " ++ toString createdAt ++ " not < " ++
              toString time))
        | none => .ok ()

end Conditions

/-! ## Tokens -/

structure DelegationToken where
  delegator : String
  conditions : String
  sig : String
deriving DecidableEq, Repr

def isHex (text : String) : Bool :=
  text ≠ "" && text.toList.all isAsciiHexdigit

namespace DelegationToken

def delegatorHex (token : DelegationToken) : String :=
  toAsciiLowercase ((stripPrefix "did:nostr:" token.delegator).getD token.delegator)

def validateStructure (token : DelegationToken) : Except DelegationError Unit :=
  if token.delegatorHex.utf8ByteSize ≠ 64 ∨ !isHex token.delegatorHex then
    .error (.malformed "delegator must be 64-hex")
  else if trimChars token.conditions.toList = [] then
    .error (.malformed "empty conditions")
  else if token.sig.utf8ByteSize ≠ 128 ∨ !isHex token.sig then
    .error (.malformed "sig must be 128-hex")
  else (Conditions.parse token.conditions).map fun _ => ()

section Verification

variable (primitives : Primitives)

/-- The digest that the delegator signs. -/
def signingMessage (token : DelegationToken) (delegateeHex : String) : Bytes :=
  primitives.sha256 (utf8 ("nostr:delegation:" ++ toAsciiLowercase delegateeHex ++ ":" ++
    token.conditions).toList)

def verify (token : DelegationToken) (delegateeHex : String) :
    Except DelegationError Conditions := do
  token.validateStructure
  let conditions ← Conditions.parse token.conditions
  match hexDecodeSized 32 token.delegatorHex with
  | none =>
      .error (.malformed ("delegator key: invalid public key hex: " ++ token.delegatorHex))
  | some key =>
      if !primitives.isPoint key then
        .error (.malformed "delegator key: invalid public key bytes")
      else
        match hexDecode token.sig with
        | none => .error (.malformed "sig hex")
        | some signature =>
            if signature.length ≠ 64 then
              .error (.malformed "sig must be 64 bytes")
            else if primitives.isSignature signature &&
                primitives.verifyRaw key (token.signingMessage primitives delegateeHex)
                  signature then
              .ok conditions
            else .error .badSignature

def verifyForEvent (token : DelegationToken) (delegateeHex : String)
    (eventKind eventCreatedAt : Nat) : Except DelegationError Unit := do
  let conditions ← token.verify primitives delegateeHex
  conditions.check eventKind eventCreatedAt

end Verification

end DelegationToken

theorem Conditions.parse_eq_ok_iff
    {text : String}
    {conditions : Conditions} :
    Conditions.parse text = .ok conditions ↔
      ∃ read, readClauses text = .ok read ∧
        conditions = read.foldl Conditions.add Conditions.empty ∧
          conditions ≠ Conditions.empty := by
  unfold Conditions.parse
  rw [Lib.bind_eq_ok_iff]
  constructor
  · rintro ⟨read, isRead, rest⟩
    dsimp only at rest
    split at rest
    · cases rest
    · rename_i notEmpty
      cases rest
      exact ⟨read, isRead, rfl, notEmpty⟩
  · rintro ⟨read, isRead, rfl, notEmpty⟩
    refine ⟨read, isRead, ?_⟩
    dsimp only
    rw [if_neg notEmpty]

/-- A token verifies for a key when its parts are well formed and its signature is the
delegator's. -/
theorem DelegationToken.verify_eq_ok_iff
    {primitives : Primitives}
    {token : DelegationToken}
    {delegateeHex : String}
    {conditions : Conditions} :
    token.verify primitives delegateeHex = .ok conditions ↔
      token.validateStructure = .ok () ∧ Conditions.parse token.conditions = .ok conditions ∧
        ∃ key signature, hexDecodeSized 32 token.delegatorHex = some key ∧
          primitives.isPoint key = true ∧ hexDecode token.sig = some signature ∧
          signature.length = 64 ∧ primitives.isSignature signature = true ∧
          primitives.verifyRaw key (token.signingMessage primitives delegateeHex) signature =
            true := by
  unfold DelegationToken.verify
  rw [Lib.bind_eq_ok_iff]
  constructor
  · rintro ⟨_, isValid, rest⟩
    obtain ⟨parsed, isParsed, checks⟩ := Lib.bind_eq_ok_iff.mp rest
    split at checks
    · cases checks
    · rename_i key isKey
      split at checks
      · cases checks
      · rename_i isPoint
        split at checks
        · cases checks
        · rename_i signature decoded
          split at checks
          · cases checks
          · rename_i isSized
            split at checks
            · rename_i verifies
              cases checks
              rw [Bool.and_eq_true] at verifies
              exact ⟨isValid, isParsed, key, signature, isKey, by simpa using isPoint, decoded,
                not_not.mp isSized, verifies.1, verifies.2⟩
            · cases checks
  · rintro ⟨isValid, isParsed, key, signature, isKey, isPoint, decoded, isSized, isSignature,
      verifies⟩
    refine ⟨(), isValid, Lib.bind_eq_ok_iff.mpr ⟨conditions, isParsed, ?_⟩⟩
    rw [isKey]
    dsimp only
    rw [isPoint, decoded]
    simp [isSized, isSignature, verifies]

/-! ## What conditions say -/

/-- What a clause requires of the time of an event. -/
def Clause.Admits (createdAt : Nat) : Clause → Prop
  | .kind _ => True
  | .createdAfter time => time < createdAt
  | .createdBefore time => createdAt < time

/-- Clauses read together: one of the kinds, if there are any, and every bound. -/
structure Holds (read : List Clause) (kind createdAt : Nat) : Prop where
  ofKind : (∀ value, Clause.kind value ∉ read) ∨ Clause.kind kind ∈ read
  bounded : ∀ clause ∈ read, clause.Admits createdAt

/-- A condition text holds of an event. -/
def ConditionsHold (text : String) (kind createdAt : Nat) : Prop :=
  ∃ read, readClauses text = .ok read ∧ Holds read kind createdAt

def Clause.kind? : Clause → Option Nat
  | .kind value => some value
  | _ => none

def Clause.lower? : Clause → Option Nat
  | .createdAfter time => some time
  | _ => none

def Clause.upper? : Clause → Option Nat
  | .createdBefore time => some time
  | _ => none

/-- The last value that a clause gives. -/
def lastOf (value? : Clause → Option Nat) : List Clause → Option Nat
  | [] => none
  | clause :: rest => (lastOf value? rest).or (value? clause)

/-- A bound that a later one on the same side replaces. -/
def Clause.isReplacedIn (rest : List Clause) : Clause → Bool
  | .kind _ => false
  | .createdAfter _ => (lastOf Clause.lower? rest).isSome
  | .createdBefore _ => (lastOf Clause.upper? rest).isSome

/-- The bounds that are replaced by later ones. -/
def replacedBounds : List Clause → List Clause
  | [] => []
  | clause :: rest =>
      if clause.isReplacedIn rest then clause :: replacedBounds rest else replacedBounds rest

section Readings

variable {read : List Clause} {conditions : Conditions} {kind createdAt : Nat}

theorem kinds_foldl :
    (read.foldl Conditions.add conditions).kinds =
      conditions.kinds ++ read.filterMap Clause.kind? := by
  induction read generalizing conditions with
  | nil => simp
  | cons clause rest inductionHypothesis =>
      rw [List.foldl_cons, inductionHypothesis]
      cases clause with
      | kind value => simp [Conditions.add, Clause.kind?]
      | createdAfter time => rfl
      | createdBefore time => rfl

theorem createdAtGt_foldl :
    (read.foldl Conditions.add conditions).createdAtGt =
      (lastOf Clause.lower? read).or conditions.createdAtGt := by
  induction read generalizing conditions with
  | nil => rfl
  | cons clause rest inductionHypothesis =>
      rw [List.foldl_cons, inductionHypothesis, lastOf, Option.or_assoc]
      cases clause <;> rfl

theorem createdAtLt_foldl :
    (read.foldl Conditions.add conditions).createdAtLt =
      (lastOf Clause.upper? read).or conditions.createdAtLt := by
  induction read generalizing conditions with
  | nil => rfl
  | cons clause rest inductionHypothesis =>
      rw [List.foldl_cons, inductionHypothesis, lastOf, Option.or_assoc]
      cases clause <;> rfl

/-- All bounds are met when the last ones and the replaced ones are. -/
theorem bounded_iff :
    (∀ clause ∈ read, clause.Admits createdAt) ↔
      (∀ clause ∈ replacedBounds read, clause.Admits createdAt) ∧
        (∀ time ∈ lastOf Clause.lower? read, time < createdAt) ∧
          ∀ time ∈ lastOf Clause.upper? read, createdAt < time := by
  induction read with
  | nil => simp [replacedBounds, lastOf]
  | cons clause rest inductionHypothesis =>
      rw [List.forall_mem_cons, inductionHypothesis, replacedBounds, lastOf, lastOf]
      cases clause with
      | kind value =>
          simp [Clause.isReplacedIn, Clause.lower?, Clause.upper?, Clause.Admits]
      | createdAfter time =>
          cases later : lastOf Clause.lower? rest with
          | none =>
              simp only [Clause.isReplacedIn, Clause.lower?, Clause.upper?, Clause.Admits, later]
              simp [and_left_comm]
          | some last =>
              simp only [Clause.isReplacedIn, Clause.lower?, Clause.upper?, Clause.Admits, later]
              simp [and_assoc]
      | createdBefore time =>
          cases later : lastOf Clause.upper? rest with
          | none =>
              simp only [Clause.isReplacedIn, Clause.lower?, Clause.upper?, Clause.Admits, later]
              simp
              tauto
          | some last =>
              simp only [Clause.isReplacedIn, Clause.lower?, Clause.upper?, Clause.Admits, later]
              simp [and_assoc]

/-- What conditions that pass the check require. -/
theorem check_ok_iff :
    conditions.check kind createdAt = .ok () ↔
      (conditions.kinds = [] ∨ kind ∈ conditions.kinds) ∧
        (∀ time ∈ conditions.createdAtGt, time < createdAt) ∧
          ∀ time ∈ conditions.createdAtLt, createdAt < time := by
  unfold Conditions.check
  by_cases ofKind : conditions.kinds ≠ [] ∧ kind ∉ conditions.kinds
  · rw [if_pos ofKind]
    refine iff_of_false (by simp) fun required => ?_
    rcases required.1 with none | member
    · exact ofKind.1 none
    · exact ofKind.2 member
  · rw [if_neg ofKind]
    have kinds : conditions.kinds = [] ∨ kind ∈ conditions.kinds := by tauto
    rw [and_iff_right kinds]
    cases conditions.createdAtGt with
    | none =>
        cases conditions.createdAtLt with
        | none => simp
        | some upper => by_cases below : createdAt < upper <;> simp [below, Option.filter]
    | some lower =>
        by_cases above : lower < createdAt
        · cases conditions.createdAtLt with
          | none => simp [above, Option.filter]
          | some upper => by_cases below : createdAt < upper <;> simp [above, below, Option.filter]
        · simp [above, Option.filter]

/-- Conditions that pass the check hold exactly when the replaced bounds are met too. -/
theorem holds_iff_of_check
    (checked : (read.foldl Conditions.add Conditions.empty).check kind createdAt = .ok ()) :
    Holds read kind createdAt ↔ ∀ clause ∈ replacedBounds read, clause.Admits createdAt := by
  rw [check_ok_iff, kinds_foldl, createdAtGt_foldl, createdAtLt_foldl] at checked
  simp only [Conditions.empty, List.nil_append, Option.or_none] at checked
  obtain ⟨ofKind, lower, upper⟩ := checked
  have kinds : (∀ value, Clause.kind value ∉ read) ∨ Clause.kind kind ∈ read := by
    have member : ∀ value, value ∈ read.filterMap Clause.kind? ↔ Clause.kind value ∈ read := by
      intro value
      rw [List.mem_filterMap]
      constructor
      · rintro ⟨clause, held, isKind⟩
        cases clause with
        | kind other =>
            cases isKind
            exact held
        | createdAfter time => cases isKind
        | createdBefore time => cases isKind
      · exact fun held => ⟨_, held, rfl⟩
    rcases ofKind with none | isMember
    · left
      intro value held
      rw [← member, none] at held
      cases held
    · exact Or.inr ((member kind).mp isMember)
  constructor
  · exact fun holds => (bounded_iff.mp holds.bounded).1
  · exact fun replaced => ⟨kinds, bounded_iff.mpr ⟨replaced, lower, upper⟩⟩

end Readings

end Mesh
end NostrBbs
