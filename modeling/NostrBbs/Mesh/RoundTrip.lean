import NostrBbs.Mesh.Envelope
import NostrBbs.Shared.Json

/-!
# Envelopes as text

The canonical text of an envelope and its reading.  An envelope that is valid is read back
from its text, and the order of the members of its body does not show in the text.
-/

namespace NostrBbs
namespace Mesh

open Shared
open Relay (JsonValue parseUnsigned parseUnsigned_toString)
open Relay.JsonValue

/-! ## The canonical order -/

/-- The order of names that the members of an object are sorted by. -/
def nameBefore (first second : String) : Bool :=
  first ≤ second

theorem nameBefore_isOrder : IsOrder nameBefore where
  trans first second third firstBefore secondBefore :=
    decide_eq_true (le_trans (of_decide_eq_true firstBefore) (of_decide_eq_true secondBefore))
  total first second := by
    unfold nameBefore
    rw [← Bool.decide_or, decide_eq_true_eq]
    exact le_total first second
  antisymm first second firstBefore secondBefore :=
    le_antisymm (of_decide_eq_true firstBefore) (of_decide_eq_true secondBefore)

theorem canonicalizeItems_eq
    (items : List JsonValue) :
    canonicalizeItems items = items.map canonicalize := by
  induction items with
  | nil => rfl
  | cons item rest inductionHypothesis =>
      rw [canonicalizeItems, inductionHypothesis, List.map_cons]

theorem canonicalizeFields_eq
    (fields : List (String × JsonValue)) :
    canonicalizeFields fields = fields.map fun field => (field.1, canonicalize field.2) := by
  induction fields with
  | nil => rfl
  | cons field rest inductionHypothesis =>
      rw [canonicalizeFields, inductionHypothesis, List.map_cons, canonicalizeField]

/-- The canonical text is that of the value with sorted members. -/
theorem canonicalize_eq
    (value : JsonValue) :
    canonicalize value = written (arranged nameBefore id value) := by
  induction value using byParts with
  | onNull => rfl
  | onBool value => rfl
  | onNumber text => rfl
  | onString text => rfl
  | onArray items ofItem =>
      rw [canonicalize, arranged, written, canonicalizeItems_eq, arrangedItems_eq,
        writtenItems_eq, List.map_map]
      exact congrArg jsonList (List.map_congr_left ofItem)
  | onObject fields ofField =>
      rw [canonicalize, arranged, written, canonicalizeFields_eq, arrangedFields_eq,
        writtenFields_eq]
      have sameFields : (fields.map fun field => (field.1, canonicalize field.2)) =
          (fields.map fun field => (field.1, arranged nameBefore id field.2)).map fun field =>
            (field.1, written field.2) := by
        rw [List.map_map]
        exact List.map_congr_left fun field isField => Prod.ext rfl (ofField field isField)
      rw [sameFields, ← List.map_mergeSort (r := fun first second =>
        nameBefore first.1 second.1) fun _ _ _ _ => rfl, List.map_map]
      refine congrArg (fun texts => ['\x7b'] ++ [','].intercalate texts ++ ['\x7d']) ?_
      refine List.map_congr_left ?_
      rintro ⟨name, value⟩ -
      rfl

/-! ## Hints -/

structure EnvelopeHint where
  renderWith : Option String
  renderInline : Option Bool
  priority : Option String
deriving DecidableEq

/-- An object of the members that are there. -/
def ofMembers (members : List (String × Option JsonValue)) : JsonValue :=
  .object (members.filterMap fun member => member.2.map fun value => (member.1, value))

def EnvelopeHint.toValue (hint : EnvelopeHint) : JsonValue :=
  ofMembers
    [("render_with", hint.renderWith.map .string),
      ("render_inline", hint.renderInline.map .bool),
      ("priority", hint.priority.map .string)]

def DelegationToken.toValue (token : DelegationToken) : JsonValue :=
  ofMembers
    [("delegator", some (.string token.delegator)),
      ("conditions", some (.string token.conditions)),
      ("sig", some (.string token.sig))]

/-! ## Envelopes and their values -/

def EnvelopeKind.name : EnvelopeKind → String
  | .chat => "chat"
  | .toolInvoke => "tool_invoke"
  | .toolResult => "tool_result"
  | .knowledgeLink => "knowledge_link"
  | .moderation => "moderation"
  | .meshPing => "mesh_ping"

def EnvelopeKind.all : List EnvelopeKind :=
  [.chat, .toolInvoke, .toolResult, .knowledgeLink, .moderation, .meshPing]

/-- An envelope with the fields that only its text carries. -/
structure WireEnvelope extends Envelope where
  subj : Option String
  thread : Option String
  lang : Option String
  hint : Option EnvelopeHint

namespace WireEnvelope

/-- The members of an envelope in the order of its fields; `none` for one that is skipped. -/
def members (envelope : WireEnvelope) : List (String × Option JsonValue) :=
  [("v", some (.number (toString envelope.v))),
    ("to", some (.string envelope.to')),
    ("from", some (.string envelope.from)),
    ("via", if envelope.via = [] then none else some (.array (envelope.via.map .string))),
    ("subj", envelope.subj.map .string),
    ("thread", envelope.thread.map .string),
    ("ttl", envelope.ttl.map fun ttl => .number (toString ttl)),
    ("kind", some (.string envelope.kind.name)),
    ("lang", envelope.lang.map .string),
    ("body", some envelope.body),
    ("hint", envelope.hint.map EnvelopeHint.toValue),
    ("delegation", envelope.delegation.map DelegationToken.toValue)]

def toValue (envelope : WireEnvelope) : JsonValue :=
  ofMembers envelope.members

def toJcsString (envelope : WireEnvelope) : List Char :=
  canonicalize envelope.toValue

end WireEnvelope

/-! ## Reading values -/

/-- The members that a structure is read from: those of an object, or the items of an array
in the order of the fields. -/
def structMembers (names : List String) : JsonValue → Option (List (String × JsonValue))
  | .object fields => some fields
  | .array items => if items.length ≤ names.length then some (names.zip items) else none
  | _ => none

/-- A field that may be missing or null. -/
def readOptional {Field : Type} (read : JsonValue → Option Field) :
    Option JsonValue → Option (Option Field)
  | none => some none
  | some .null => some none
  | some value => (read value).map some

def readUnsigned (bits : Nat) : JsonValue → Option Nat
  | .number text => parseUnsigned bits text
  | _ => none

def readBool : JsonValue → Option Bool
  | .bool value => some value
  | _ => none

def readHint (value : JsonValue) : Option EnvelopeHint := do
  let fields ← structMembers ["render_with", "render_inline", "priority"] value
  let renderWith ← readOptional asStr (fields.lookup "render_with")
  let renderInline ← readOptional readBool (fields.lookup "render_inline")
  let priority ← readOptional asStr (fields.lookup "priority")
  some ⟨renderWith, renderInline, priority⟩

def readDelegation (value : JsonValue) : Option DelegationToken := do
  let fields ← structMembers ["delegator", "conditions", "sig"] value
  let delegator ← (fields.lookup "delegator").bind asStr
  let conditions ← (fields.lookup "conditions").bind asStr
  let sig ← (fields.lookup "sig").bind asStr
  some ⟨delegator, conditions, sig⟩

/-- A kind is read from its name, or from an object that gives it nothing. -/
def readKind : JsonValue → Option EnvelopeKind
  | .string name => EnvelopeKind.all.find? fun kind => kind.name = name
  | .object [(name, .null)] => EnvelopeKind.all.find? fun kind => kind.name = name
  | _ => none

/-- The identities of a chain, none when the field is missing. -/
def readVia : Option JsonValue → Option (List String)
  | none => some []
  | some value => value.asArray.bind fun items => items.mapM asStr

def fieldNames : List String :=
  ["v", "to", "from", "via", "subj", "thread", "ttl", "kind", "lang", "body", "hint",
    "delegation"]

def readFields (fields : List (String × JsonValue)) : Option WireEnvelope := do
  let v ← (fields.lookup "v").bind (readUnsigned 8)
  let to' ← (fields.lookup "to").bind asStr
  let «from» ← (fields.lookup "from").bind asStr
  let via ← readVia (fields.lookup "via")
  let subj ← readOptional asStr (fields.lookup "subj")
  let thread ← readOptional asStr (fields.lookup "thread")
  let ttl ← readOptional (readUnsigned 64) (fields.lookup "ttl")
  let kind ← (fields.lookup "kind").bind readKind
  let lang ← readOptional asStr (fields.lookup "lang")
  let body ← fields.lookup "body"
  let hint ← readOptional readHint (fields.lookup "hint")
  let delegation ← readOptional readDelegation (fields.lookup "delegation")
  some { v, to', «from», via, subj, thread, ttl, kind, lang, body, hint, delegation }

def readEnvelope (value : JsonValue) : Option WireEnvelope :=
  (structMembers fieldNames value).bind readFields

/-- A reader of JSON texts. -/
structure JsonReader where
  /-- The value of a text, or why it has none. -/
  parse : List Char → Except String JsonValue
  /-- Why a text is not an envelope. -/
  mismatch : List Char → String
  /-- The texts that numbers are printed as. -/
  isNumber : String → Prop

namespace JsonReader

variable (reader : JsonReader)

def fromStr (text : List Char) : Except EnvelopeError WireEnvelope :=
  match reader.parse text with
  | .error message => .error (.json message)
  | .ok value =>
      match readEnvelope value with
      | none => .error (.json (reader.mismatch text))
      | some envelope => .ok envelope

def fromJcsStr (text : List Char) : Except EnvelopeError WireEnvelope := do
  let envelope ← reader.fromStr text
  envelope.validate
  return envelope

/-- The reader undoes the printer on values whose objects are maps, and unsigned integers
are printed in decimal. -/
structure Inverse : Prop where
  integers : ∀ value < 2 ^ 64, reader.isNumber (toString value)
  parses : ∀ value, Built reader.isNumber List.Nodup value →
    reader.parse (written value) = .ok value

end JsonReader

/-! ## Members that are there -/

section Members

variable {members : List (String × Option JsonValue)}

theorem lookup_ofMembers
    (distinct : (members.map Prod.fst).Nodup)
    (name : String) :
    (members.filterMap fun member => member.2.map fun value => (member.1, value)).lookup name =
      (members.lookup name).join := by
  induction members with
  | nil => rfl
  | cons member rest inductionHypothesis =>
      rw [List.map_cons, List.nodup_cons] at distinct
      have later := inductionHypothesis distinct.2
      obtain ⟨first, value⟩ := member
      rw [List.lookup_cons]
      by_cases isFirst : name = first
      · subst isFirst
        rw [beq_self_eq_true]
        cases value with
        | some value => exact List.lookup_cons_self
        | none =>
            have missing : rest.lookup name = none := by
              rw [List.lookup_eq_none_iff]
              intro other isOther
              rw [bne_iff_ne]
              rintro rfl
              exact distinct.1 (List.mem_map.mpr ⟨other, isOther, rfl⟩)
            rw [missing] at later
            exact later
      · rw [beq_eq_false_iff_ne.mpr isFirst]
        cases value with
        | some value =>
            refine Eq.trans ?_ later
            exact (List.lookup_cons).trans (by rw [beq_eq_false_iff_ne.mpr isFirst])
        | none => exact later

theorem nodup_ofMembers
    (distinct : (members.map Prod.fst).Nodup) :
    ((members.filterMap fun member => member.2.map fun value => (member.1, value)).map
      Prod.fst).Nodup := by
  refine distinct.sublist ?_
  induction members with
  | nil => exact List.Sublist.refl _
  | cons member rest inductionHypothesis =>
      rw [List.map_cons, List.nodup_cons] at distinct
      obtain ⟨name, value⟩ := member
      cases value with
      | some value => exact (inductionHypothesis distinct.2).cons_cons name
      | none => exact (inductionHypothesis distinct.2).cons name

/-- The members of an object that is arranged. -/
theorem arranged_ofMembers
    (distinct : (members.map Prod.fst).Nodup) :
    ∃ sorted, arranged nameBefore id (ofMembers members) = .object sorted ∧
      ∀ name value, members.lookup name = some value →
        sorted.lookup name = value.map (arranged nameBefore id) := by
  obtain ⟨sorted, isSorted, isPerm⟩ := arranged_object nameBefore id
    (members.filterMap fun member => member.2.map fun value => (member.1, value))
  refine ⟨sorted, isSorted, fun name value isMember => ?_⟩
  rw [lookup_of_perm_map (nodup_ofMembers distinct) _ isPerm, lookup_ofMembers distinct, isMember,
    Option.join_some]

theorem built_ofMembers
    {isNumber : String → Prop}
    (distinct : (members.map Prod.fst).Nodup)
    (built : ∀ member ∈ members, ∀ value ∈ member.2, Built isNumber List.Nodup value) :
    Built isNumber List.Nodup (ofMembers members) := by
  unfold ofMembers
  rw [built_object_iff]
  refine ⟨nodup_ofMembers distinct, fun field isField => ?_⟩
  obtain ⟨member, isMember, isThere⟩ := List.mem_filterMap.mp isField
  obtain ⟨value, isValue, rfl⟩ := Option.map_eq_some_iff.mp isThere
  exact built member isMember value isValue

end Members

/-! ## What is written is read -/

/-- An optional field is read back when its value is. -/
theorem readOptional_arranged
    {Field : Type}
    {read : JsonValue → Option Field}
    (notNull : read .null = none)
    {write : Field → JsonValue}
    {field : Option Field}
    (reads : ∀ value ∈ field, read (arranged nameBefore id (write value)) = some value) :
    readOptional read ((field.map write).map (arranged nameBefore id)) = some field := by
  cases field with
  | none => rfl
  | some value =>
      have isRead := reads value rfl
      unfold readOptional
      rw [Option.map_some, Option.map_some]
      split
      · rename_i isNone
        cases isNone
      · rename_i isNull
        rw [Option.some.inj isNull, notNull] at isRead
        cases isRead
      · rename_i other isOther
        rw [← Option.some.inj isOther, isRead]
        rfl

theorem readHint_arranged
    (hint : EnvelopeHint) :
    readHint (arranged nameBefore id hint.toValue) = some hint := by
  have distinct : (["render_with", "render_inline", "priority"] : List String).Nodup := by decide
  obtain ⟨sorted, isSorted, isMember⟩ := @arranged_ofMembers
    [("render_with", hint.renderWith.map .string),
      ("render_inline", hint.renderInline.map .bool),
      ("priority", hint.priority.map .string)] distinct
  unfold readHint EnvelopeHint.toValue
  rw [isSorted]
  simp only [structMembers, Option.bind_eq_bind, Option.bind_some]
  rw [isMember "render_with" _ rfl, isMember "render_inline" _ rfl, isMember "priority" _ rfl,
    readOptional_arranged rfl fun _ _ => rfl, readOptional_arranged rfl fun _ _ => rfl,
    readOptional_arranged rfl fun _ _ => rfl]
  rfl

theorem readDelegation_arranged
    (token : DelegationToken) :
    readDelegation (arranged nameBefore id token.toValue) = some token := by
  have distinct : (["delegator", "conditions", "sig"] : List String).Nodup := by decide
  obtain ⟨sorted, isSorted, isMember⟩ := @arranged_ofMembers
    [("delegator", some (.string token.delegator)),
      ("conditions", some (.string token.conditions)),
      ("sig", some (.string token.sig))] distinct
  unfold readDelegation DelegationToken.toValue
  rw [isSorted]
  simp only [structMembers, Option.bind_eq_bind, Option.bind_some]
  rw [isMember "delegator" _ rfl, isMember "conditions" _ rfl, isMember "sig" _ rfl]
  rfl

theorem mapM_asStr
    (texts : List String) :
    (texts.map JsonValue.string).mapM asStr = some texts := by
  induction texts with
  | nil => rfl
  | cons text texts inductionHypothesis =>
      rw [List.map_cons, List.mapM_cons, inductionHypothesis]
      rfl

theorem readKind_name
    (kind : EnvelopeKind) :
    readKind (.string kind.name) = some kind := by
  cases kind <;> rfl

namespace WireEnvelope

/-- What the types of the fields say: a time of 64 bits, and a body whose objects are maps. -/
structure WellTyped (reader : JsonReader) (envelope : WireEnvelope) : Prop where
  ttlFits : ∀ ttl ∈ envelope.ttl, ttl < 2 ^ 64
  isBody : Built reader.isNumber List.Nodup envelope.body

/-- Envelopes whose fields are equal, the objects of their bodies as maps. -/
structure Same (first second : WireEnvelope) : Prop where
  sameFields : { first with body := second.body } = second
  sameBody : equal (· == ·) first.body second.body = true

/-- An envelope with the members of its body sorted. -/
def withSortedBody (envelope : WireEnvelope) : WireEnvelope :=
  { envelope with body := arranged nameBefore id envelope.body }

variable {reader : JsonReader} {envelope : WireEnvelope}

theorem distinct_members
    (envelope : WireEnvelope) :
    (envelope.members.map Prod.fst).Nodup := by
  have distinct : fieldNames.Nodup := by decide
  exact distinct

/-- The value of an envelope that is arranged is read as the envelope. -/
theorem readEnvelope_arranged
    (isVersion : envelope.v < 2 ^ 8)
    (ttlFits : ∀ ttl ∈ envelope.ttl, ttl < 2 ^ 64) :
    readEnvelope (arranged nameBefore id envelope.toValue) = some envelope.withSortedBody := by
  obtain ⟨sorted, isSorted, isMember⟩ := arranged_ofMembers envelope.distinct_members
  have versionRead : ((some (JsonValue.number (toString envelope.v))).map
      (arranged nameBefore id)).bind (readUnsigned 8) = some envelope.v :=
    parseUnsigned_toString isVersion
  have textRead : ∀ text, ((some (JsonValue.string text)).map (arranged nameBefore id)).bind
      asStr = some text := fun _ => rfl
  have kindRead : ((some (JsonValue.string envelope.kind.name)).map
      (arranged nameBefore id)).bind readKind = some envelope.kind := readKind_name envelope.kind
  have viaRead : readVia ((if envelope.via = [] then none else
      some (JsonValue.array (envelope.via.map .string))).map (arranged nameBefore id)) =
        some envelope.via := by
    split_ifs with isEmpty
    · rw [isEmpty]
      rfl
    · rw [Option.map_some, arranged, arrangedItems_eq, List.map_map]
      exact mapM_asStr envelope.via
  have ttlRead : ∀ ttl ∈ envelope.ttl, readUnsigned 64
      (arranged nameBefore id (.number (toString ttl))) = some ttl := fun ttl isTtl =>
    parseUnsigned_toString (ttlFits ttl isTtl)
  unfold readEnvelope toValue
  rw [isSorted]
  change readFields sorted = _
  unfold readFields
  rw [isMember "v" _ rfl, isMember "to" _ rfl, isMember "from" _ rfl, isMember "via" _ rfl,
    isMember "subj" _ rfl, isMember "thread" _ rfl, isMember "ttl" _ rfl, isMember "kind" _ rfl,
    isMember "lang" _ rfl, isMember "body" _ rfl, isMember "hint" _ rfl,
    isMember "delegation" _ rfl, versionRead, textRead, textRead, viaRead,
    readOptional_arranged rfl fun _ _ => rfl, readOptional_arranged rfl fun _ _ => rfl,
    readOptional_arranged rfl ttlRead, kindRead, readOptional_arranged rfl fun _ _ => rfl,
    readOptional_arranged rfl fun hint _ => readHint_arranged hint,
    readOptional_arranged rfl fun token _ => readDelegation_arranged token]
  rfl

/-- Sorting the members of the body leaves its canonical text. -/
theorem canonicalize_arranged
    {isNumber : String → Prop}
    {body : JsonValue}
    (isBody : Built isNumber List.Nodup body) :
    canonicalize (arranged nameBefore id body) = canonicalize body := by
  have sortedBuilt : Built isNumber List.Nodup (arranged nameBefore id body) :=
    built_arranged (fun _ isNumber => isNumber) isBody
  have sameBody : equal (· == ·) (arranged nameBefore id body) body = true :=
    equal_arranged (fun text _ => beq_self_eq_true text) isBody
  have sameArranged : arranged nameBefore id (arranged nameBefore id body) =
      arranged nameBefore id body :=
    arranged_of_equal nameBefore_isOrder (fun _ _ _ _ same => beq_iff_eq.mp same) sortedBuilt
      isBody sameBody
  rw [canonicalize_eq, canonicalize_eq, sameArranged]

/-- The shape of a body does not depend on the order of its members. -/
theorem validateBodyShape_withSortedBody
    {isNumber : String → Prop}
    (isBody : Built isNumber List.Nodup envelope.body) :
    envelope.withSortedBody.validateBodyShape = envelope.validateBodyShape := by
  have sameKind : envelope.withSortedBody.kind = envelope.kind := rfl
  have isSortedBody : envelope.withSortedBody.body = arranged nameBefore id envelope.body := rfl
  unfold Envelope.validateBodyShape
  rw [sameKind, isSortedBody]
  cases bodyIs : envelope.body with
  | object fields =>
      rw [bodyIs, built_object_iff] at isBody
      obtain ⟨sorted, isSorted, isPerm⟩ := arranged_object nameBefore id fields
      have found := lookup_of_perm_map isBody.1 (arranged nameBefore id) isPerm
      have sameString : ∀ key kind,
          requireString sorted key kind = requireString fields key kind := by
        intro key kind
        unfold requireString
        rw [found]
        cases fields.lookup key with
        | none => rfl
        | some value => cases value <;> rfl
      rw [isSorted]
      cases envelope.kind with
      | chat =>
          dsimp only
          rw [found]
          cases fields.lookup "text" with
          | none => rfl
          | some value => cases value <;> rfl
      | knowledgeLink =>
          change (requireString sorted _ _ >>= fun _ => requireString sorted _ _) = _
          rw [sameString, sameString]
          rfl
      | moderation =>
          change (requireString sorted _ _ >>= fun _ => requireString sorted _ _) = _
          rw [sameString, sameString]
          rfl
      | toolInvoke => exact sameString "tool" "tool_invoke"
      | toolResult => exact sameString "status" "tool_result"
      | meshPing => rfl
  | _ => cases envelope.kind <;> rfl

theorem validate_withSortedBody
    {isNumber : String → Prop}
    (isBody : Built isNumber List.Nodup envelope.body) :
    envelope.withSortedBody.validate = envelope.validate := by
  have sameNull : Envelope.isNull (arranged nameBefore id envelope.body) =
      Envelope.isNull envelope.body := by
    cases envelope.body <;> rfl
  have isSortedBody : envelope.withSortedBody.body = arranged nameBefore id envelope.body := rfl
  unfold Envelope.validate
  rw [validateBodyShape_withSortedBody isBody, isSortedBody, sameNull,
    canonicalize_arranged isBody]
  rfl

/-- Bodies that are equal have one canonical text. -/
theorem canonicalize_of_equal
    {isNumber : String → Prop}
    {body other : JsonValue}
    (isBody : Built isNumber List.Nodup body)
    (isOther : Built isNumber List.Nodup other)
    (same : equal (· == ·) body other = true) :
    canonicalize body = canonicalize other := by
  have sameArranged : arranged nameBefore id body = arranged nameBefore id other :=
    arranged_of_equal nameBefore_isOrder (fun _ _ _ _ same => beq_iff_eq.mp same) isBody isOther
      same
  rw [canonicalize_eq, canonicalize_eq, sameArranged]

/-- The canonical text of an object is made of the texts of its members. -/
theorem canonicalize_ofMembers_congr
    {members others : List (String × Option JsonValue)}
    (sameTexts : (members.map fun member => (member.1, member.2.map canonicalize)) =
      others.map fun member => (member.1, member.2.map canonicalize)) :
    canonicalize (ofMembers members) = canonicalize (ofMembers others) := by
  have textsOf : ∀ members : List (String × Option JsonValue),
      canonicalizeFields (members.filterMap fun member =>
        member.2.map fun value => (member.1, value)) =
      (members.map fun member => (member.1, member.2.map canonicalize)).filterMap fun member =>
        member.2.map fun text => (member.1, text) := by
    intro members
    rw [canonicalizeFields_eq, List.map_filterMap, List.filterMap_map]
    refine List.filterMap_congr fun member _ => ?_
    obtain ⟨name, value⟩ := member
    cases value <;> rfl
  unfold ofMembers canonicalize
  rw [textsOf, textsOf, sameTexts]

theorem built_of_map
    {isNumber : String → Prop}
    {Field : Type}
    {write : Field → JsonValue}
    {field : Option Field}
    (built : ∀ value ∈ field, Built isNumber List.Nodup (write value)) :
    ∀ value ∈ field.map write, Built isNumber List.Nodup value := by
  intro value isValue
  obtain ⟨held, isHeld, rfl⟩ := Option.map_eq_some_iff.mp isValue
  exact built held isHeld

theorem built_hint
    {isNumber : String → Prop}
    (hint : EnvelopeHint) :
    Built isNumber List.Nodup hint.toValue := by
  have distinct : (["render_with", "render_inline", "priority"] : List String).Nodup := by decide
  refine built_ofMembers distinct ?_
  simp only [List.forall_mem_cons]
  exact ⟨built_of_map fun _ _ => trivial, built_of_map fun _ _ => trivial,
    built_of_map fun _ _ => trivial, List.forall_mem_nil _⟩

theorem built_delegation
    {isNumber : String → Prop}
    (token : DelegationToken) :
    Built isNumber List.Nodup token.toValue := by
  have distinct : (["delegator", "conditions", "sig"] : List String).Nodup := by decide
  refine built_ofMembers distinct ?_
  simp only [List.forall_mem_cons, Option.mem_def, Option.some.injEq, forall_eq']
  exact ⟨trivial, trivial, trivial, List.forall_mem_nil _⟩

/-- The value of an envelope has distinct names and numbers as they are printed. -/
theorem built_toValue
    (inverse : reader.Inverse)
    (wellTyped : envelope.WellTyped reader)
    (versionFits : envelope.v < 2 ^ 64) :
    Built reader.isNumber List.Nodup envelope.toValue := by
  have viaBuilt : ∀ value ∈ (if envelope.via = [] then none else
      some (JsonValue.array (envelope.via.map .string))),
        Built reader.isNumber List.Nodup value := by
    intro value isValue
    split_ifs at isValue
    · cases isValue
    · cases isValue
      rw [built_array_iff, List.forall_mem_map]
      exact fun _ _ => trivial
  refine built_ofMembers envelope.distinct_members ?_
  unfold members
  simp only [List.forall_mem_cons]
  refine ⟨?_, ?_, ?_, viaBuilt, built_of_map fun _ _ => trivial, built_of_map fun _ _ => trivial,
    built_of_map fun ttl isTtl => inverse.integers ttl (wellTyped.ttlFits ttl isTtl), ?_,
    built_of_map fun _ _ => trivial, ?_, built_of_map fun hint _ => built_hint hint,
    built_of_map fun token _ => built_delegation token, List.forall_mem_nil _⟩
  · rintro value ⟨⟩
    exact inverse.integers envelope.v versionFits
  · rintro value ⟨⟩
    trivial
  · rintro value ⟨⟩
    trivial
  · rintro value ⟨⟩
    trivial
  · rintro value ⟨⟩
    exact wellTyped.isBody

theorem version_of_validate
    (valid : envelope.validate = .ok ()) :
    envelope.v = 1 := by
  by_contra isOther
  change envelope.v ≠ envelopeVersion at isOther
  unfold Envelope.validate at valid
  dsimp only at valid
  rw [if_pos isOther] at valid
  cases valid

/-- A valid envelope is read back with the members of its body sorted. -/
theorem fromJcsStr_ok
    (inverse : reader.Inverse)
    (wellTyped : envelope.WellTyped reader)
    (valid : envelope.validate = .ok ()) :
    reader.fromJcsStr envelope.toJcsString = .ok envelope.withSortedBody := by
  have isVersion := version_of_validate valid
  have built := built_toValue inverse wellTyped (by rw [isVersion]; decide)
  have sortedBuilt : Built reader.isNumber List.Nodup
      (arranged nameBefore id envelope.toValue) :=
    built_arranged (fun _ isNumber => isNumber) built
  have isRead : reader.fromStr envelope.toJcsString = .ok envelope.withSortedBody := by
    unfold JsonReader.fromStr toJcsString
    rw [canonicalize_eq, inverse.parses _ sortedBuilt]
    dsimp only
    rw [readEnvelope_arranged (by rw [isVersion]; decide) wellTyped.ttlFits]
  have stillValid : envelope.withSortedBody.validate = .ok () := by
    rw [validate_withSortedBody wellTyped.isBody, valid]
  unfold JsonReader.fromJcsStr
  rw [isRead]
  change (envelope.withSortedBody.validate >>= fun _ => .ok envelope.withSortedBody) = _
  rw [stillValid]
  rfl

/-- The text of a valid envelope is read as that envelope, and envelopes that differ only in
the order of the members of their bodies have the same text. -/
theorem fromJcsStr_toJcsString
    (inverse : reader.Inverse) :
    (∀ envelope : WireEnvelope, envelope.WellTyped reader → envelope.validate = .ok () →
      ∃ read, reader.fromJcsStr envelope.toJcsString = .ok read ∧ read.Same envelope) ∧
    ∀ first second : WireEnvelope, first.WellTyped reader → second.WellTyped reader →
      first.Same second → first.toJcsString = second.toJcsString := by
  constructor
  · intro envelope wellTyped valid
    refine ⟨_, fromJcsStr_ok inverse wellTyped valid, rfl, ?_⟩
    exact equal_arranged (fun text _ => beq_self_eq_true text) wellTyped.isBody
  · intro first second firstTyped secondTyped same
    have sameText := canonicalize_of_equal firstTyped.isBody secondTyped.isBody same.sameBody
    obtain ⟨sameFields, -⟩ := same
    refine canonicalize_ofMembers_congr ?_
    rw [← sameFields]
    unfold members
    simp only [List.map_cons, List.map_nil, Option.map_some, sameText]

/-! An invocation of a tool, on its way over one bridge. -/

namespace Invocation

/-- The reader of texts as they are written. -/
def textReader : JsonReader where
  parse text :=
    match readText text with
    | some value => .ok value
    | none => .error "expected value"
  mismatch _ := "invalid type"
  isNumber := IsNumeral

theorem textReader_inverse : textReader.Inverse where
  integers value _ := by
    have isText : (toString value).toList = Nat.toDigits 10 value := by
      rw [Nat.toString_eq_ofList_toDigits, String.toList_ofList]
    unfold textReader IsNumeral
    dsimp only
    rw [isText]
    refine ⟨Nat.toDigits_ne_nil, fun char isChar => ?_⟩
    have isDigit := Nat.isDigit_of_mem_toDigits (by decide) (by decide) isChar
    unfold isNumberChar
    rw [isDigit]
    rfl
  parses value built := by
    unfold textReader
    dsimp only
    rw [readText_written built]

def key : String :=
  "3bf0c63fcb93463407af97a5e5ee64fa883d107ef9e558472c4eb9aaaefa459d"

def body : JsonValue :=
  .object [("tool", .string "ping"), ("args", .object [("hops", .number "3")])]

def sent : WireEnvelope where
  v := 1
  to' := didNostrPrefix ++ key
  «from» := didNostrPrefix ++ key
  via := [didNostrPrefix ++ key]
  subj := none
  thread := some "a1"
  ttl := some 1763000000
  kind := .toolInvoke
  lang := none
  body := body
  hint := some ⟨some "card", some true, none⟩
  delegation := none

def turned : WireEnvelope :=
  { sent with
    body := .object [("args", .object [("hops", .number "3")]), ("tool", .string "ping")] }

theorem canonicalize_body :
    canonicalize body = "\x7b\"args\":\x7b\"hops\":3\x7d,\"tool\":\"ping\"\x7d".toList := by
  rw [canonicalize_eq]
  have isSorted : arranged nameBefore id body = .object
      [("args", .object [("hops", .number "3")]), ("tool", .string "ping")] := by
    simp [body, arranged, arrangedFields, arrangedField, List.mergeSort, nameBefore]
  rw [isSorted]
  decide +kernel

end Invocation

/-- An envelope with a chain, a time and a hint is read back, and has the text of the one with
the members of its body turned around. -/
theorem fromJcsStr_toJcsString_invocation :
    (∃ read, Invocation.textReader.fromJcsStr Invocation.sent.toJcsString = .ok read ∧
      read.Same Invocation.sent) ∧
    Invocation.sent.toJcsString = Invocation.turned.toJcsString := by
  have isValid : Invocation.sent.validate = .ok () := by
    unfold Envelope.validate
    have isBody : Invocation.sent.body = Invocation.body := rfl
    rw [isBody, Invocation.canonicalize_body]
    decide +kernel
  have isNumeral : IsNumeral "3" := Invocation.textReader_inverse.integers 3 (by decide)
  have isBody : Built IsNumeral List.Nodup Invocation.sent.body :=
    ⟨by decide, trivial, ⟨by decide, isNumeral, trivial⟩, trivial⟩
  have isTurned : Built IsNumeral List.Nodup Invocation.turned.body :=
    ⟨by decide, ⟨by decide, isNumeral, trivial⟩, trivial, trivial⟩
  have ttlFits : ∀ ttl ∈ some 1763000000, ttl < 2 ^ 64 := by
    decide
  have same : Invocation.sent.Same Invocation.turned := ⟨rfl, by decide⟩
  obtain ⟨readsBack, sameText⟩ := fromJcsStr_toJcsString Invocation.textReader_inverse
  exact ⟨readsBack _ ⟨ttlFits, isBody⟩ isValid,
    sameText _ _ ⟨ttlFits, isBody⟩ ⟨ttlFits, isTurned⟩ same⟩

end WireEnvelope

end Mesh
end NostrBbs
