import NostrBbs.Shared.Signing

/-!
# JSON values

The texts of JSON values, with the members of an object in their order or sorted, the
equality of values whose objects are maps, and a reader of such texts.
-/

namespace NostrBbs
namespace Relay
namespace JsonValue

open Shared

/-! ## Values by their parts -/

/-- What holds of a value when it holds of its items or of its members. -/
theorem byParts
    {Holds : JsonValue → Prop}
    (onNull : Holds .null)
    (onBool : ∀ value, Holds (.bool value))
    (onNumber : ∀ text, Holds (.number text))
    (onString : ∀ text, Holds (.string text))
    (onArray : ∀ items, (∀ item ∈ items, Holds item) → Holds (.array items))
    (onObject : ∀ fields, (∀ field ∈ fields, Holds field.2) → Holds (.object fields))
    (value : JsonValue) :
    Holds value := by
  refine @JsonValue.rec Holds (fun items => ∀ item ∈ items, Holds item)
    (fun fields => ∀ field ∈ fields, Holds field.2) (fun field => Holds field.2)
    onNull onBool onNumber onString onArray onObject ?_ ?_ ?_ ?_ ?_ value
  · intro item isItem
    cases isItem
  · intro head tail onHead onTail item isItem
    rcases List.mem_cons.mp isItem with rfl | isLater
    · exact onHead
    · exact onTail item isLater
  · intro field isField
    cases isField
  · intro head tail onHead onTail field isField
    rcases List.mem_cons.mp isField with rfl | isLater
    · exact onHead
    · exact onTail field isLater
  · intro name value onValue
    exact onValue

mutual

/-- The numbers of a value satisfy one condition, the names in each of its objects another. -/
def Built (isNumber : String → Prop) (areNames : List String → Prop) : JsonValue → Prop
  | .null => True
  | .bool _ => True
  | .number text => isNumber text
  | .string _ => True
  | .array items => ItemsBuilt isNumber areNames items
  | .object fields => areNames (fields.map Prod.fst) ∧ FieldsBuilt isNumber areNames fields

def ItemsBuilt (isNumber : String → Prop) (areNames : List String → Prop) :
    List JsonValue → Prop
  | [] => True
  | item :: rest => Built isNumber areNames item ∧ ItemsBuilt isNumber areNames rest

def FieldsBuilt (isNumber : String → Prop) (areNames : List String → Prop) :
    List (String × JsonValue) → Prop
  | [] => True
  | field :: rest => FieldBuilt isNumber areNames field ∧ FieldsBuilt isNumber areNames rest

def FieldBuilt (isNumber : String → Prop) (areNames : List String → Prop) :
    String × JsonValue → Prop
  | (_, value) => Built isNumber areNames value

end

mutual

/-- A value with its numbers rewritten and the members of its objects in an order. -/
def arranged (before : String → String → Bool) (numeral : String → String) :
    JsonValue → JsonValue
  | .null => .null
  | .bool value => .bool value
  | .number text => .number (numeral text)
  | .string text => .string text
  | .array items => .array (arrangedItems before numeral items)
  | .object fields =>
      .object ((arrangedFields before numeral fields).mergeSort fun first second =>
        before first.1 second.1)

def arrangedItems (before : String → String → Bool) (numeral : String → String) :
    List JsonValue → List JsonValue
  | [] => []
  | item :: rest => arranged before numeral item :: arrangedItems before numeral rest

def arrangedFields (before : String → String → Bool) (numeral : String → String) :
    List (String × JsonValue) → List (String × JsonValue)
  | [] => []
  | field :: rest => arrangedField before numeral field :: arrangedFields before numeral rest

def arrangedField (before : String → String → Bool) (numeral : String → String) :
    String × JsonValue → String × JsonValue
  | (name, value) => (name, arranged before numeral value)

end

mutual

/-- Whether values are equal where objects are maps. -/
def equal (sameNumber : String → String → Bool) : JsonValue → JsonValue → Bool
  | .null, .null => true
  | .bool value, .bool other => value == other
  | .number text, .number other => sameNumber text other
  | .string text, .string other => text == other
  | .array items, .array others => equalItems sameNumber items others
  | .object fields, .object others =>
      fields.length == others.length && equalFields sameNumber fields others
  | _, _ => false
termination_by structural value => value

def equalItems (sameNumber : String → String → Bool) :
    List JsonValue → List JsonValue → Bool
  | [], [] => true
  | item :: rest, other :: others =>
      equal sameNumber item other && equalItems sameNumber rest others
  | _, _ => false
termination_by structural items => items

/-- Each member is one of the other object's. -/
def equalFields (sameNumber : String → String → Bool) :
    List (String × JsonValue) → List (String × JsonValue) → Bool
  | [], _ => true
  | field :: rest, others =>
      equalField sameNumber field others && equalFields sameNumber rest others
termination_by structural fields => fields

def equalField (sameNumber : String → String → Bool) :
    String × JsonValue → List (String × JsonValue) → Bool
  | (name, value), others =>
      match others.lookup name with
      | some other => equal sameNumber value other
      | none => false
termination_by structural field => field

end

mutual

/-- The text of a value without white space, the members of its objects as they come. -/
def written : JsonValue → List Char
  | .null => "null".toList
  | .bool value => if value then "true".toList else "false".toList
  | .number text => text.toList
  | .string text => jsonString text
  | .array items => jsonList (writtenItems items)
  | .object fields => ['\x7b'] ++ [','].intercalate (writtenFields fields) ++ ['\x7d']

def writtenItems : List JsonValue → List (List Char)
  | [] => []
  | item :: rest => written item :: writtenItems rest

def writtenFields : List (String × JsonValue) → List (List Char)
  | [] => []
  | field :: rest => writtenField field :: writtenFields rest

def writtenField : String × JsonValue → List Char
  | (name, value) => jsonString name ++ [':'] ++ written value

end

section Parts

variable {isNumber : String → Prop} {areNames : List String → Prop}

theorem itemsBuilt_iff
    {items : List JsonValue} :
    ItemsBuilt isNumber areNames items ↔ ∀ item ∈ items, Built isNumber areNames item := by
  induction items with
  | nil => exact iff_of_true trivial (List.forall_mem_nil _)
  | cons item rest inductionHypothesis =>
      rw [ItemsBuilt, inductionHypothesis, List.forall_mem_cons]

theorem fieldsBuilt_iff
    {fields : List (String × JsonValue)} :
    FieldsBuilt isNumber areNames fields ↔
      ∀ field ∈ fields, Built isNumber areNames field.2 := by
  induction fields with
  | nil => exact iff_of_true trivial (List.forall_mem_nil _)
  | cons field rest inductionHypothesis =>
      rw [FieldsBuilt, inductionHypothesis, List.forall_mem_cons, FieldBuilt]

theorem built_array_iff
    {items : List JsonValue} :
    Built isNumber areNames (.array items) ↔ ∀ item ∈ items, Built isNumber areNames item := by
  rw [Built, itemsBuilt_iff]

theorem built_object_iff
    {fields : List (String × JsonValue)} :
    Built isNumber areNames (.object fields) ↔
      areNames (fields.map Prod.fst) ∧ ∀ field ∈ fields, Built isNumber areNames field.2 := by
  rw [Built, fieldsBuilt_iff]

/-- Conditions that follow from others hold of the same values. -/
theorem Built.mono
    {otherNumber : String → Prop}
    {otherNames : List String → Prop}
    (ofNumber : ∀ text, isNumber text → otherNumber text)
    (ofNames : ∀ names, areNames names → otherNames names)
    {value : JsonValue}
    (built : Built isNumber areNames value) :
    Built otherNumber otherNames value := by
  induction value using byParts with
  | onNull => trivial
  | onBool value => trivial
  | onNumber text => exact ofNumber text built
  | onString text => trivial
  | onArray items ofItem =>
      rw [built_array_iff] at built ⊢
      exact fun item isItem => ofItem item isItem (built item isItem)
  | onObject fields ofField =>
      rw [built_object_iff] at built ⊢
      exact ⟨ofNames _ built.1, fun field isField => ofField field isField (built.2 field isField)⟩

theorem Built.and
    {otherNumber : String → Prop}
    {otherNames : List String → Prop}
    {value : JsonValue}
    (built : Built isNumber areNames value)
    (otherBuilt : Built otherNumber otherNames value) :
    Built (fun text => isNumber text ∧ otherNumber text)
      (fun names => areNames names ∧ otherNames names) value := by
  induction value using byParts with
  | onNull => trivial
  | onBool value => trivial
  | onNumber text => exact ⟨built, otherBuilt⟩
  | onString text => trivial
  | onArray items ofItem =>
      rw [built_array_iff] at built otherBuilt ⊢
      exact fun item isItem => ofItem item isItem (built item isItem) (otherBuilt item isItem)
  | onObject fields ofField =>
      rw [built_object_iff] at built otherBuilt ⊢
      exact ⟨⟨built.1, otherBuilt.1⟩, fun field isField =>
        ofField field isField (built.2 field isField) (otherBuilt.2 field isField)⟩

variable (before : String → String → Bool) (numeral : String → String)

theorem arrangedItems_eq
    (items : List JsonValue) :
    arrangedItems before numeral items = items.map (arranged before numeral) := by
  induction items with
  | nil => rfl
  | cons item rest inductionHypothesis => rw [arrangedItems, inductionHypothesis, List.map_cons]

theorem arrangedFields_eq
    (fields : List (String × JsonValue)) :
    arrangedFields before numeral fields =
      fields.map fun field => (field.1, arranged before numeral field.2) := by
  induction fields with
  | nil => rfl
  | cons field rest inductionHypothesis =>
      rw [arrangedFields, inductionHypothesis, List.map_cons, arrangedField]

/-- The members of an object that is arranged, up to their order. -/
theorem arranged_object
    (fields : List (String × JsonValue)) :
    ∃ sorted, arranged before numeral (.object fields) = .object sorted ∧
      sorted.Perm (fields.map fun field => (field.1, arranged before numeral field.2)) := by
  refine ⟨_, rfl, ?_⟩
  rw [arrangedFields_eq]
  exact List.mergeSort_perm _ _

theorem writtenItems_eq
    (items : List JsonValue) :
    writtenItems items = items.map written := by
  induction items with
  | nil => rfl
  | cons item rest inductionHypothesis => rw [writtenItems, inductionHypothesis, List.map_cons]

theorem writtenFields_eq
    (fields : List (String × JsonValue)) :
    writtenFields fields = fields.map writtenField := by
  induction fields with
  | nil => rfl
  | cons field rest inductionHypothesis =>
      rw [writtenFields, inductionHypothesis, List.map_cons]

variable (sameNumber : String → String → Bool)

theorem equalItems_iff
    {items others : List JsonValue} :
    equalItems sameNumber items others = true ↔
      List.Forall₂ (fun item other => equal sameNumber item other = true) items others := by
  induction items generalizing others with
  | nil =>
      cases others with
      | nil => exact iff_of_true rfl .nil
      | cons other others => exact iff_of_false (by rintro ⟨⟩) (by rintro ⟨⟩)
  | cons item rest inductionHypothesis =>
      cases others with
      | nil => exact iff_of_false (by rintro ⟨⟩) (by rintro ⟨⟩)
      | cons other others =>
          rw [equalItems, Bool.and_eq_true, inductionHypothesis, List.forall₂_cons]

theorem equalFields_iff
    {fields others : List (String × JsonValue)} :
    equalFields sameNumber fields others = true ↔
      ∀ field ∈ fields, ∃ other, others.lookup field.1 = some other ∧
        equal sameNumber field.2 other = true := by
  induction fields with
  | nil => exact iff_of_true rfl (List.forall_mem_nil _)
  | cons field rest inductionHypothesis =>
      rw [equalFields, Bool.and_eq_true, inductionHypothesis, List.forall_mem_cons]
      refine and_congr_left fun _ => ?_
      rw [equalField]
      cases others.lookup field.1 with
      | none => exact iff_of_false (by rintro ⟨⟩) (by rintro ⟨other, ⟨⟩, -⟩)
      | some other =>
          constructor
          · exact fun same => ⟨other, rfl, same⟩
          · rintro ⟨found, isFound, same⟩
            cases isFound
            exact same

theorem equal_array_iff
    {items others : List JsonValue} :
    equal sameNumber (.array items) (.array others) = true ↔
      List.Forall₂ (fun item other => equal sameNumber item other = true) items others := by
  rw [equal, equalItems_iff]

theorem equal_object_iff
    {fields others : List (String × JsonValue)} :
    equal sameNumber (.object fields) (.object others) = true ↔
      fields.length = others.length ∧
        ∀ field ∈ fields, ∃ other, others.lookup field.1 = some other ∧
          equal sameNumber field.2 other = true := by
  rw [equal, Bool.and_eq_true, beq_iff_eq, equalFields_iff]

end Parts

/-! ## Values as maps -/

/-- The members of a map are what its names lead to. -/
theorem lookup_eq_some_iff_mem
    {Member : Type}
    {fields : List (String × Member)}
    (distinct : (fields.map Prod.fst).Nodup)
    {name : String}
    {member : Member} :
    fields.lookup name = some member ↔ (name, member) ∈ fields := by
  induction fields with
  | nil => exact iff_of_false (by rintro ⟨⟩) (List.not_mem_nil)
  | cons field rest inductionHypothesis =>
      rw [List.map_cons, List.nodup_cons] at distinct
      rw [List.lookup_cons, List.mem_cons, ← inductionHypothesis distinct.2]
      by_cases isName : name = field.1
      · rw [beq_iff_eq.mpr isName]
        subst isName
        have notLater : rest.lookup field.1 ≠ some member := fun found =>
          distinct.1 (List.mem_map.mpr
            ⟨_, (inductionHypothesis distinct.2).mp found, rfl⟩)
        rw [or_iff_left notLater, Option.some.injEq, Prod.ext_iff]
        exact ⟨fun same => ⟨rfl, same.symm⟩, fun same => same.2.symm⟩
      · rw [beq_eq_false_iff_ne.mpr isName]
        refine (or_iff_right ?_).symm
        rintro rfl
        exact isName rfl

/-- The members of a map whose members are changed and moved. -/
theorem lookup_of_perm_map
    {Member Changed : Type}
    {fields : List (String × Member)}
    (distinct : (fields.map Prod.fst).Nodup)
    (change : Member → Changed)
    {moved : List (String × Changed)}
    (isPerm : moved.Perm (fields.map fun field => (field.1, change field.2)))
    (name : String) :
    moved.lookup name = (fields.lookup name).map change := by
  have movedDistinct : (moved.map Prod.fst).Nodup := by
    rw [(isPerm.map Prod.fst).nodup_iff, List.map_map]
    exact distinct
  ext changed
  rw [lookup_eq_some_iff_mem movedDistinct, isPerm.mem_iff, List.mem_map, Option.map_eq_some_iff]
  constructor
  · rintro ⟨field, isField, isChanged⟩
    obtain ⟨rfl, rfl⟩ := Prod.ext_iff.mp isChanged
    exact ⟨field.2, (lookup_eq_some_iff_mem distinct).mpr isField, rfl⟩
  · rintro ⟨member, isMember, rfl⟩
    exact ⟨(name, member), (lookup_eq_some_iff_mem distinct).mp isMember, rfl⟩

section Maps

variable {isNumber : String → Prop} {before : String → String → Bool}
variable {numeral : String → String} {sameNumber : String → String → Bool}

/-- Arranging keeps the names of each object. -/
theorem built_arranged
    {otherNumber : String → Prop}
    (rewritten : ∀ text, isNumber text → otherNumber (numeral text))
    {value : JsonValue}
    (built : Built isNumber List.Nodup value) :
    Built otherNumber List.Nodup (arranged before numeral value) := by
  induction value using byParts with
  | onNull => trivial
  | onBool value => trivial
  | onNumber text => exact rewritten text built
  | onString text => trivial
  | onArray items ofItem =>
      rw [built_array_iff] at built
      rw [arranged, built_array_iff, arrangedItems_eq, List.forall_mem_map]
      exact fun item isItem => ofItem item isItem (built item isItem)
  | onObject fields ofField =>
      rw [built_object_iff] at built
      obtain ⟨sorted, isSorted, isPerm⟩ := arranged_object before numeral fields
      rw [isSorted, built_object_iff]
      constructor
      · rw [(isPerm.map Prod.fst).nodup_iff, List.map_map]
        exact built.1
      · intro field isField
        obtain ⟨original, isOriginal, rfl⟩ := List.mem_map.mp (isPerm.mem_iff.mp isField)
        exact ofField original isOriginal (built.2 original isOriginal)

/-- Values that are arranged the same are equal, when the numbers that are rewritten the same
are. -/
theorem equal_of_arranged
    (sameOf : ∀ text other, isNumber text → isNumber other → numeral text = numeral other →
      sameNumber text other = true)
    {value other : JsonValue}
    (built : Built isNumber List.Nodup value)
    (otherBuilt : Built isNumber List.Nodup other)
    (sameArranged : arranged before numeral value = arranged before numeral other) :
    equal sameNumber value other = true := by
  induction value using byParts generalizing other with
  | onNull =>
      cases other with
      | null => rfl
      | _ => cases sameArranged
  | onBool value =>
      cases other with
      | bool otherValue =>
          cases sameArranged
          exact beq_self_eq_true value
      | _ => cases sameArranged
  | onNumber text =>
      cases other with
      | number otherText =>
          exact sameOf _ _ built otherBuilt (JsonValue.number.inj sameArranged)
      | _ => cases sameArranged
  | onString text =>
      cases other with
      | string otherText =>
          cases sameArranged
          exact beq_self_eq_true text
      | _ => cases sameArranged
  | onArray items ofItem =>
      cases other with
      | array others =>
          rw [built_array_iff] at built otherBuilt
          have sameItems := JsonValue.array.inj sameArranged
          rw [arrangedItems_eq, arrangedItems_eq] at sameItems
          rw [equal_array_iff, List.forall₂_iff_get]
          have sameLength : items.length = others.length := by
            simpa using congrArg List.length sameItems
          refine ⟨sameLength, fun index first second => ?_⟩
          refine ofItem _ (List.get_mem _ _) (built _ (List.get_mem _ _))
            (otherBuilt _ (List.get_mem _ _)) ?_
          have sameHere := congrArg (fun all => all[index]?) sameItems
          simpa [first, second] using sameHere
      | _ => cases sameArranged
  | onObject fields ofField =>
      cases other with
      | object others =>
          rw [built_object_iff] at built otherBuilt
          obtain ⟨sorted, isSorted, isPerm⟩ := arranged_object before numeral fields
          obtain ⟨otherSorted, isOtherSorted, isOtherPerm⟩ :=
            arranged_object before numeral others
          rw [isSorted, isOtherSorted] at sameArranged
          cases sameArranged
          have together := isPerm.symm.trans isOtherPerm
          rw [equal_object_iff]
          constructor
          · simpa using together.length_eq
          · intro field isField
            obtain ⟨twin, isTwin, sameMember⟩ := List.mem_map.mp
              (together.mem_iff.mp (List.mem_map.mpr ⟨field, isField, rfl⟩))
            obtain ⟨sameName, sameValue⟩ := Prod.ext_iff.mp sameMember
            refine ⟨twin.2, ?_, ?_⟩
            · rw [lookup_eq_some_iff_mem otherBuilt.1, ← sameName]
              exact isTwin
            · exact ofField field isField (built.2 field isField) (otherBuilt.2 twin isTwin)
                sameValue.symm
      | _ => cases sameArranged

/-- An order of names, by which a list of them is sorted in one way. -/
structure IsOrder (before : String → String → Bool) : Prop where
  trans : ∀ first second third, before first second = true → before second third = true →
    before first third = true
  total : ∀ first second, (before first second || before second first) = true
  antisymm : ∀ first second, before first second = true → before second first = true →
    first = second

/-- Members in another order are sorted the same. -/
theorem sorted_of_perm
    {Member : Type}
    (isOrder : IsOrder before)
    {fields others : List (String × Member)}
    (distinct : (fields.map Prod.fst).Nodup)
    (isPerm : fields.Perm others) :
    fields.mergeSort (fun first second => before first.1 second.1) =
      others.mergeSort fun first second => before first.1 second.1 := by
  have sortedPairwise : ∀ members : List (String × Member),
      (members.mergeSort fun first second => before first.1 second.1).Pairwise
        fun first second => before first.1 second.1 = true := by
    intro members
    refine List.pairwise_mergeSort ?_ ?_ members
    · exact fun first second third => isOrder.trans first.1 second.1 third.1
    · exact fun first second => isOrder.total first.1 second.1
  refine List.Perm.eq_of_pairwise ?_ (sortedPairwise fields) (sortedPairwise others)
    ((List.mergeSort_perm _ _).trans (isPerm.trans (List.mergeSort_perm _ _).symm))
  intro first second isFirst isSecond firstBefore secondBefore
  exact List.inj_on_of_nodup_map distinct ((List.mergeSort_perm _ _).mem_iff.mp isFirst)
    (isPerm.mem_iff.mpr ((List.mergeSort_perm _ _).mem_iff.mp isSecond))
    (isOrder.antisymm _ _ firstBefore secondBefore)

/-- Values that are equal are arranged the same, when numbers that are the same are rewritten
the same. -/
theorem arranged_of_equal
    (isOrder : IsOrder before)
    (sameOf : ∀ text other, isNumber text → isNumber other → sameNumber text other = true →
      numeral text = numeral other)
    {value other : JsonValue}
    (built : Built isNumber List.Nodup value)
    (otherBuilt : Built isNumber List.Nodup other)
    (same : equal sameNumber value other = true) :
    arranged before numeral value = arranged before numeral other := by
  induction value using byParts generalizing other with
  | onNull =>
      cases other with
      | null => rfl
      | _ => cases same
  | onBool value =>
      cases other with
      | bool otherValue => rw [beq_iff_eq.mp same]
      | _ => cases same
  | onNumber text =>
      cases other with
      | number otherText =>
          exact congrArg JsonValue.number (sameOf _ _ built otherBuilt same)
      | _ => cases same
  | onString text =>
      cases other with
      | string otherText => rw [beq_iff_eq.mp same]
      | _ => cases same
  | onArray items ofItem =>
      cases other with
      | array others =>
          rw [built_array_iff] at built otherBuilt
          rw [equal_array_iff, List.forall₂_iff_get] at same
          obtain ⟨sameLength, sameItems⟩ := same
          rw [arranged, arranged, arrangedItems_eq, arrangedItems_eq]
          refine congrArg JsonValue.array (List.ext_get (by simpa using sameLength) ?_)
          intro index first second
          rw [List.length_map] at first second
          have sameHere := ofItem _ (List.get_mem items ⟨index, first⟩)
            (built _ (List.get_mem _ _)) (otherBuilt _ (List.get_mem others ⟨index, second⟩))
            (sameItems index first second)
          simpa using sameHere
      | _ => cases same
  | onObject fields ofField =>
      cases other with
      | object others =>
          rw [built_object_iff] at built otherBuilt
          obtain ⟨sameLength, sameFields⟩ := equal_object_iff sameNumber |>.mp same
          rw [arranged, arranged, arrangedFields_eq, arrangedFields_eq]
          have distinct : ((fields.map fun field =>
              (field.1, arranged before numeral field.2)).map Prod.fst).Nodup := by
            rw [List.map_map]
            exact built.1
          refine congrArg JsonValue.object (sorted_of_perm isOrder distinct ?_)
          refine (List.subperm_of_subset distinct.of_map ?_).perm_of_length_le
            (by rw [List.length_map, List.length_map, sameLength])
          intro member isMember
          obtain ⟨field, isField, rfl⟩ := List.mem_map.mp isMember
          obtain ⟨twin, isTwin, sameValue⟩ := sameFields field isField
          have twinMember := (lookup_eq_some_iff_mem otherBuilt.1).mp isTwin
          rw [ofField field isField (built.2 field isField) (otherBuilt.2 _ twinMember) sameValue]
          exact List.mem_map.mpr ⟨_, twinMember, rfl⟩
      | _ => cases same

/-- A value that is arranged with its numbers as they are is equal to it. -/
theorem equal_arranged
    (sameOf : ∀ text, isNumber text → sameNumber (numeral text) text = true)
    {value : JsonValue}
    (built : Built isNumber List.Nodup value) :
    equal sameNumber (arranged before numeral value) value = true := by
  induction value using byParts with
  | onNull => rfl
  | onBool value => exact beq_self_eq_true value
  | onNumber text => exact sameOf text built
  | onString text => exact beq_self_eq_true text
  | onArray items ofItem =>
      rw [built_array_iff] at built
      rw [arranged, equal_array_iff, arrangedItems_eq, List.forall₂_map_left_iff,
        List.forall₂_same]
      exact fun item isItem => ofItem item isItem (built item isItem)
  | onObject fields ofField =>
      rw [built_object_iff] at built
      obtain ⟨sorted, isSorted, isPerm⟩ := arranged_object before numeral fields
      rw [isSorted, equal_object_iff]
      constructor
      · rw [isPerm.length_eq, List.length_map]
      · intro field isField
        obtain ⟨original, isOriginal, rfl⟩ := List.mem_map.mp (isPerm.mem_iff.mp isField)
        exact ⟨original.2, (lookup_eq_some_iff_mem built.1).mpr isOriginal,
          ofField original isOriginal (built.2 original isOriginal)⟩

/-- Orders that agree on the names of each object arrange a value the same. -/
theorem arranged_congr
    {otherBefore : String → String → Bool}
    {otherNumeral : String → String}
    {value : JsonValue}
    (agree : Built (fun text => numeral text = otherNumeral text)
      (fun names => ∀ first ∈ names, ∀ second ∈ names,
        before first second = otherBefore first second) value) :
    arranged before numeral value = arranged otherBefore otherNumeral value := by
  induction value using byParts with
  | onNull => rfl
  | onBool value => rfl
  | onNumber text => exact congrArg JsonValue.number agree
  | onString text => rfl
  | onArray items ofItem =>
      rw [built_array_iff] at agree
      rw [arranged, arranged, arrangedItems_eq, arrangedItems_eq]
      exact congrArg JsonValue.array
        (List.map_congr_left fun item isItem => ofItem item isItem (agree item isItem))
  | onObject fields ofField =>
      rw [built_object_iff] at agree
      have sameFields : (fields.map fun field => (field.1, arranged before numeral field.2)) =
          fields.map fun field => (field.1, arranged otherBefore otherNumeral field.2) :=
        List.map_congr_left fun field isField =>
          Prod.ext rfl (ofField field isField (agree.2 field isField))
      rw [arranged, arranged, arrangedFields_eq, arrangedFields_eq, sameFields]
      refine congrArg JsonValue.object ?_
      refine (List.map_id _).symm.trans ((List.map_mergeSort (f := id) ?_).trans
        (congrArg (List.mergeSort · _) (List.map_id _)))
      intro first isFirst second isSecond
      obtain ⟨field, isField, rfl⟩ := List.mem_map.mp isFirst
      obtain ⟨other, isOther, rfl⟩ := List.mem_map.mp isSecond
      exact agree.1 _ (List.mem_map.mpr ⟨field, isField, rfl⟩) _
        (List.mem_map.mpr ⟨other, isOther, rfl⟩)

end Maps

/-! ## Reading a text -/

def isDelimiter (char : Char) : Bool :=
  char = ',' || char = ']' || char = '\x7d'

def isNumberChar (char : Char) : Bool :=
  char.isDigit || char = '-' || char = '+' || char = '.' || char = 'e' || char = 'E'

/-- A text that only the characters of numbers are in. -/
def IsNumeral (text : String) : Prop :=
  text.toList ≠ [] ∧ ∀ char ∈ text.toList, isNumberChar char = true

def hexValue (char : Char) : Nat :=
  hexDigits.idxOf char

/-- What follows a backslash. -/
def readEscape : List Char → Option (Char × List Char)
  | 'n' :: rest => some ('\n', rest)
  | 'r' :: rest => some ('\r', rest)
  | 't' :: rest => some ('\t', rest)
  | 'b' :: rest => some (Char.ofNat 8, rest)
  | 'f' :: rest => some (Char.ofNat 12, rest)
  | 'u' :: '0' :: '0' :: high :: low :: rest =>
      some (Char.ofNat (hexValue high * 16 + hexValue low), rest)
  | char :: rest => some (char, rest)
  | [] => none

/-- The characters up to the closing quote. -/
def readChars : Nat → List Char → Option (List Char × List Char)
  | 0, _ => none
  | count + 1, chars =>
      match chars with
      | [] => none
      | char :: rest =>
          if char = '"' then some ([], rest)
          else if char = '\\' then do
            let (read, rest) ← readEscape rest
            let (text, rest) ← readChars count rest
            some (read :: text, rest)
          else do
            let (text, rest) ← readChars count rest
            some (char :: text, rest)

def readString (chars : List Char) : Option (String × List Char) :=
  match chars with
  | '"' :: rest =>
      (readChars (rest.length + 1) rest).map fun (text, rest) => (String.ofList text, rest)
  | _ => none

/-- Items with commas between them, up to what closes them. -/
def readUntil {Item : Type} (close : Char) (read : List Char → Option (Item × List Char)) :
    Nat → List Char → Option (List Item × List Char)
  | 0, _ => none
  | count + 1, chars =>
      if chars.head? = some close then some ([], chars.tail)
      else do
        let (item, rest) ← read chars
        if rest.head? = some ',' then do
          let (items, rest) ← readUntil close read count rest.tail
          some (item :: items, rest)
        else if rest.head? = some close then some ([item], rest.tail)
        else none

def readMember (read : List Char → Option (JsonValue × List Char)) (chars : List Char) :
    Option ((String × JsonValue) × List Char) := do
  let (name, rest) ← readString chars
  if rest.head? = some ':' then do
    let (value, rest) ← read rest.tail
    some ((name, value), rest)
  else none

def readWord (word : List Char) : Option JsonValue :=
  if word = "null".toList then some .null
  else if word = "true".toList then some (.bool true)
  else if word = "false".toList then some (.bool false)
  else if word = [] then none
  else some (.number (String.ofList word))

/-- A value at the start of a text without white space. -/
def readValue : Nat → List Char → Option (JsonValue × List Char)
  | 0, _ => none
  | fuel + 1, chars =>
      if chars.head? = some '"' then
        (readString chars).map fun (text, rest) => (.string text, rest)
      else if chars.head? = some '[' then
        (readUntil ']' (readValue fuel) chars.length chars.tail).map fun (items, rest) =>
          (.array items, rest)
      else if chars.head? = some '\x7b' then
        (readUntil '\x7d' (readMember (readValue fuel)) chars.length chars.tail).map
          fun (fields, rest) => (.object fields, rest)
      else
        (readWord (chars.takeWhile fun char => !isDelimiter char)).map fun value =>
          (value, chars.dropWhile fun char => !isDelimiter char)

/-- The value of a whole text. -/
def readText (chars : List Char) : Option JsonValue :=
  match readValue chars.length chars with
  | some (value, []) => some value
  | _ => none

theorem readEscape_escapeChar
    {char : Char}
    (isEscaped : escapeChar char ≠ [char])
    (rest : List Char) :
    ∃ code, escapeChar char = '\\' :: code ∧ readEscape (code ++ rest) = some (char, rest) := by
  have ofNat : ∀ value, char.toNat = value → char = Char.ofNat value := by
    rintro value rfl
    exact (Char.ofNat_toNat char).symm
  unfold escapeChar at isEscaped ⊢
  split_ifs at isEscaped ⊢ with isQuote isSlash isFeed isReturn isTab isBack isForm isLow
  · exact ⟨_, rfl, by rw [isQuote]; rfl⟩
  · exact ⟨_, rfl, by rw [isSlash]; rfl⟩
  · exact ⟨_, rfl, by rw [isFeed]; rfl⟩
  · exact ⟨_, rfl, by rw [isReturn]; rfl⟩
  · exact ⟨_, rfl, by rw [isTab]; rfl⟩
  · exact ⟨_, rfl, by rw [ofNat 8 isBack]; rfl⟩
  · exact ⟨_, rfl, by rw [ofNat 12 isForm]; rfl⟩
  · refine ⟨_, rfl, ?_⟩
    have readsBack : ∀ value < 32,
        hexValue (hexDigit (value / 16)) * 16 + hexValue (hexDigit (value % 16)) = value := by
      decide
    change some (Char.ofNat _, rest) = _
    rw [readsBack _ isLow, Char.ofNat_toNat]
  · exact absurd rfl isEscaped

theorem readChars_escaped
    (chars rest : List Char)
    {count : Nat}
    (enough : chars.length < count) :
    readChars count (chars.flatMap escapeChar ++ '"' :: rest) = some (chars, rest) := by
  induction chars generalizing count with
  | nil =>
      cases count with
      | zero => omega
      | succ count => rfl
  | cons char chars inductionHypothesis =>
      cases count with
      | zero => omega
      | succ count =>
          have later := inductionHypothesis (Nat.lt_of_succ_lt_succ enough)
          rw [List.flatMap_cons, List.append_assoc]
          by_cases isEscaped : escapeChar char = [char]
          · have notQuote : char ≠ '"' := by
              rintro rfl
              cases isEscaped
            have notSlash : char ≠ '\\' := by
              rintro rfl
              cases isEscaped
            rw [isEscaped, List.singleton_append, readChars]
            dsimp only
            rw [if_neg notQuote, if_neg notSlash, later]
            rfl
          · obtain ⟨code, isCode, isRead⟩ := readEscape_escapeChar isEscaped
              (chars.flatMap escapeChar ++ '"' :: rest)
            rw [isCode, List.cons_append, readChars]
            dsimp only
            rw [if_neg (by decide), if_pos rfl, isRead]
            dsimp only [Option.bind_eq_bind, Option.bind_some]
            rw [later]
            rfl

theorem length_le_flatMap_escapeChar
    (chars : List Char) :
    chars.length ≤ (chars.flatMap escapeChar).length := by
  induction chars with
  | nil => exact Nat.le_refl 0
  | cons char chars inductionHypothesis =>
      have oneOrMore : 1 ≤ (escapeChar char).length := by
        unfold escapeChar
        split_ifs <;> exact Nat.le_add_left 1 _
      rw [List.flatMap_cons, List.length_append, List.length_cons]
      omega

theorem readString_jsonString
    (text : String)
    (rest : List Char) :
    readString (jsonString text ++ rest) = some (text, rest) := by
  unfold jsonString
  rw [List.append_assoc, List.append_assoc, List.singleton_append, List.singleton_append,
    readString]
  have escaped := length_le_flatMap_escapeChar text.toList
  rw [readChars_escaped _ _ (by rw [List.length_append, List.length_cons]; omega),
    Option.map_some]
  dsimp only
  rw [String.ofList_toList]

section Lists

variable {Item : Type} {read : List Char → Option (Item × List Char)} {close : Char}
variable (texts : Item → List Char)

/-- Where a value ends: at a delimiter or at the end of the text. -/
def Stops (rest : List Char) : Prop :=
  ∀ char ∈ rest.head?, isDelimiter char = true

/-- Items that are read one by one are read as a list. -/
theorem readUntil_intercalate
    (closes : isDelimiter close = true)
    (notComma : close ≠ ',')
    {items : List Item}
    (notClosed : ∀ item ∈ items, ∀ rest, (texts item ++ rest).head? ≠ some close)
    (reads : ∀ item ∈ items, ∀ rest, Stops rest →
      read (texts item ++ rest) = some (item, rest))
    {count : Nat}
    (enough : items.length < count)
    (rest : List Char) :
    readUntil close read count ([','].intercalate (items.map texts) ++ close :: rest) =
      some (items, rest) := by
  induction items generalizing count with
  | nil =>
      cases count with
      | zero => omega
      | succ count =>
          rw [readUntil]
          exact if_pos rfl
  | cons item items inductionHypothesis =>
      cases count with
      | zero => omega
      | succ count =>
          have itemNotClosed := notClosed item List.mem_cons_self
          have itemReads := reads item List.mem_cons_self
          have later := inductionHypothesis
            (fun other isOther => notClosed other (List.mem_cons_of_mem item isOther))
            (fun other isOther => reads other (List.mem_cons_of_mem item isOther))
            (Nat.lt_of_succ_lt_succ enough)
          rw [readUntil]
          cases items with
          | nil =>
              rw [List.map_singleton, List.intercalate_singleton, if_neg (itemNotClosed _),
                itemReads _ (fun char isChar => by cases isChar; exact closes)]
              change (if some close = some ',' then _ else
                if some close = some close then some ([item], rest) else none) = _
              rw [if_neg (mt Option.some.inj notComma), if_pos rfl]
          | cons next items =>
              rw [List.map_cons, List.map_cons, List.intercalate_cons_cons, List.append_assoc,
                List.append_assoc, ← List.map_cons, if_neg (itemNotClosed _),
                itemReads _ (fun char isChar => by cases isChar; rfl)]
              change ((readUntil close read count
                ([','].intercalate ((next :: items).map texts) ++ close :: rest)) >>=
                  fun later => some (item :: later.1, later.2)) = _
              rw [later]
              rfl

/-- The text of an item is no longer than that of the list. -/
theorem length_le_intercalate
    {items : List (List Char)}
    {item : List Char}
    (isItem : item ∈ items) :
    item.length ≤ ([','].intercalate items).length := by
  induction items with
  | nil => cases isItem
  | cons head items inductionHypothesis =>
      cases items with
      | nil => rw [List.mem_singleton.mp isItem, List.intercalate_singleton]
      | cons next items =>
          rw [List.intercalate_cons_cons, List.length_append, List.length_append]
          rcases List.mem_cons.mp isItem with rfl | isLater
          · omega
          · have := inductionHypothesis isLater
            omega

theorem length_lt_intercalate
    {items : List (List Char)} :
    items.length ≤ ([','].intercalate items).length + 1 := by
  induction items with
  | nil => exact Nat.zero_le _
  | cons head items inductionHypothesis =>
      cases items with
      | nil => exact Nat.le_add_left 1 _
      | cons next items =>
          rw [List.intercalate_cons_cons, List.length_append, List.length_append,
            List.length_cons, List.length_singleton]
          omega

end Lists

theorem readValue_string
    (fuel : Nat)
    (rest : List Char) :
    readValue (fuel + 1) ('"' :: rest) =
      (readString ('"' :: rest)).map fun (text, rest) => (.string text, rest) :=
  rfl

theorem readValue_array
    (fuel : Nat)
    (rest : List Char) :
    readValue (fuel + 1) ('[' :: rest) =
      (readUntil ']' (readValue fuel) (rest.length + 1) rest).map fun (items, rest) =>
        (.array items, rest) :=
  rfl

theorem readValue_object
    (fuel : Nat)
    (rest : List Char) :
    readValue (fuel + 1) ('\x7b' :: rest) =
      (readUntil '\x7d' (readMember (readValue fuel)) (rest.length + 1) rest).map
        fun (fields, rest) => (.object fields, rest) :=
  rfl

/-- A word is read up to where it ends. -/
theorem readValue_word
    {word : List Char}
    {value : JsonValue}
    (isWord : readWord word = some value)
    (inWord : ∀ char ∈ word, isDelimiter char = false ∧ char ≠ '"' ∧ char ≠ '[' ∧ char ≠ '\x7b')
    {rest : List Char}
    (stops : Stops rest)
    (fuel : Nat) :
    readValue (fuel + 1) (word ++ rest) = some (value, rest) := by
  have stopped : ∀ char ∈ rest.head?, ¬(!isDelimiter char) = true := by
    intro char isChar
    rw [stops char isChar]
    decide
  have headOf : ∀ char ∈ (word ++ rest).head?, char ≠ '"' ∧ char ≠ '[' ∧ char ≠ '\x7b' := by
    intro char isChar
    cases word with
    | nil => cases isWord
    | cons head word =>
        cases isChar
        exact (inWord _ List.mem_cons_self).2
  have notString : (word ++ rest).head? ≠ some '"' := fun isHead => (headOf _ isHead).1 rfl
  have notArray : (word ++ rest).head? ≠ some '[' := fun isHead => (headOf _ isHead).2.1 rfl
  have notObject : (word ++ rest).head? ≠ some '\x7b' := fun isHead => (headOf _ isHead).2.2 rfl
  rw [readValue, if_neg notString, if_neg notArray, if_neg notObject,
    List.takeWhile_append_of_pos fun char isChar => by rw [(inWord char isChar).1]; rfl,
    List.dropWhile_append_of_pos fun char isChar => by rw [(inWord char isChar).1]; rfl]
  have nothingTaken : rest.takeWhile (fun char => !isDelimiter char) = [] := by
    cases rest with
    | nil => rfl
    | cons char rest => exact List.takeWhile_cons_of_neg (stopped char rfl)
  have nothingDropped : rest.dropWhile (fun char => !isDelimiter char) = rest := by
    cases rest with
    | nil => rfl
    | cons char rest => exact List.dropWhile_cons_of_neg (stopped char rfl)
  rw [nothingTaken, nothingDropped, List.append_nil, isWord, Option.map_some]

theorem isNumberChar_spec
    {char : Char}
    (isNumber : isNumberChar char = true) :
    isDelimiter char = false ∧ char ≠ '"' ∧ char ≠ '[' ∧ char ≠ '\x7b' ∧ char ≠ 'n' ∧
      char ≠ 't' ∧ char ≠ 'f' := by
  refine ⟨?_, ?_, ?_, ?_, ?_, ?_, ?_⟩
  · rw [← Bool.not_eq_true]
    intro isDelimiter
    unfold JsonValue.isDelimiter at isDelimiter
    simp only [Bool.or_eq_true, decide_eq_true_eq] at isDelimiter
    rcases isDelimiter with (rfl | rfl) | rfl <;> cases isNumber
  all_goals
    rintro rfl
    cases isNumber

theorem readWord_numeral
    {text : String}
    (isNumeral : IsNumeral text) :
    readWord text.toList = some (.number text) := by
  have startsOther : ∀ head word, isNumberChar head = false → text.toList ≠ head :: word := by
    intro head word notNumber isText
    have isNumber := isNumeral.2 head (by rw [isText]; exact List.mem_cons_self)
    rw [notNumber] at isNumber
    cases isNumber
  have notNull : text.toList ≠ "null".toList := startsOther 'n' _ (by decide)
  have notTrue : text.toList ≠ "true".toList := startsOther 't' _ (by decide)
  have notFalse : text.toList ≠ "false".toList := startsOther 'f' _ (by decide)
  unfold readWord
  rw [if_neg notNull, if_neg notTrue, if_neg notFalse, if_neg isNumeral.1, String.ofList_toList]

/-- The text of a value starts with what no list ends with. -/
theorem head_written
    {areNames : List String → Prop}
    {value : JsonValue}
    (built : Built IsNumeral areNames value) :
    ∃ head tail, written value = head :: tail ∧ isDelimiter head = false := by
  cases value with
  | null => exact ⟨'n', _, rfl, by decide⟩
  | bool value => cases value <;> exact ⟨_, _, rfl, by decide⟩
  | number text =>
      obtain ⟨notEmpty, areNumbers⟩ := built
      obtain ⟨head, tail, isText⟩ := List.exists_cons_of_ne_nil notEmpty
      exact ⟨head, tail, isText,
        (isNumberChar_spec (areNumbers head (by rw [isText]; exact List.mem_cons_self))).1⟩
  | string text => exact ⟨'"', _, rfl, by decide⟩
  | array items => exact ⟨'[', _, rfl, by decide⟩
  | object fields => exact ⟨'\x7b', _, rfl, by decide⟩

theorem exists_succ_of_written
    {areNames : List String → Prop}
    {value : JsonValue}
    (built : Built IsNumeral areNames value)
    {fuel : Nat}
    (enough : (written value).length ≤ fuel) :
    ∃ less, fuel = less + 1 := by
  obtain ⟨head, tail, isText, -⟩ := head_written built
  rw [isText, List.length_cons] at enough
  exact Nat.exists_eq_add_of_le' (le_trans (Nat.le_add_left 1 _) enough)

/-- The text of a value is read as the value, whatever follows. -/
theorem readValue_written
    {areNames : List String → Prop}
    {value : JsonValue}
    (built : Built IsNumeral areNames value)
    {fuel : Nat}
    (enough : (written value).length ≤ fuel)
    {rest : List Char}
    (stops : Stops rest) :
    readValue fuel (written value ++ rest) = some (value, rest) := by
  obtain ⟨less, rfl⟩ := exists_succ_of_written built enough
  induction value using byParts generalizing less rest with
  | onNull =>
      have isText : "null".toList = ['n', 'u', 'l', 'l'] := rfl
      rw [written, isText]
      exact readValue_word rfl (by simp [isDelimiter]) stops less
  | onBool value =>
      cases value with
      | false =>
          have isText : written (.bool false) = ['f', 'a', 'l', 's', 'e'] := rfl
          rw [isText]
          exact readValue_word rfl (by simp [isDelimiter]) stops less
      | true =>
          have isText : written (.bool true) = ['t', 'r', 'u', 'e'] := rfl
          rw [isText]
          exact readValue_word rfl (by simp [isDelimiter]) stops less
  | onNumber text =>
      refine readValue_word (readWord_numeral built) (fun char isChar => ?_) stops less
      have isNumber := isNumberChar_spec (built.2 char isChar)
      exact ⟨isNumber.1, isNumber.2.1, isNumber.2.2.1, isNumber.2.2.2.1⟩
  | onString text =>
      have isRead := readString_jsonString text rest
      change readString ('"' :: _) = _ at isRead
      change readValue (less + 1) ('"' :: _) = _
      rw [readValue_string, isRead]
      rfl
  | onArray items ofItem =>
      rw [built_array_iff] at built
      rw [written, writtenItems_eq] at enough ⊢
      unfold jsonList at enough ⊢
      rw [List.length_append, List.length_append, List.length_singleton,
        List.length_singleton] at enough
      rw [List.append_assoc, List.append_assoc, List.singleton_append, List.singleton_append,
        readValue_array, readUntil_intercalate written rfl (by decide) ?_ ?_ ?_ rest]
      · rfl
      · intro item isItem others isHead
        obtain ⟨head, tail, isText, notDelimiter⟩ := head_written (built item isItem)
        rw [isText] at isHead
        cases isHead
        cases notDelimiter
      · intro item isItem others othersStop
        have shorter := length_le_intercalate (List.mem_map_of_mem (f := written) isItem)
        have fits : (written item).length ≤ less := by omega
        obtain ⟨lesser, rfl⟩ := exists_succ_of_written (built item isItem) fits
        exact ofItem item isItem (built item isItem) othersStop lesser fits
      · have counted := @length_lt_intercalate (items.map written)
        rw [List.length_map] at counted
        rw [List.length_append, List.length_cons]
        omega
  | onObject fields ofField =>
      rw [built_object_iff] at built
      rw [written, writtenFields_eq] at enough ⊢
      rw [List.length_append, List.length_append, List.length_singleton,
        List.length_singleton] at enough
      rw [List.append_assoc, List.append_assoc, List.singleton_append, List.singleton_append,
        readValue_object, readUntil_intercalate writtenField rfl (by decide) ?_ ?_ ?_ rest]
      · rfl
      · rintro ⟨name, value⟩ - others ⟨⟩
      · rintro ⟨name, value⟩ isField others othersStop
        have shorter := length_le_intercalate (List.mem_map_of_mem (f := writtenField) isField)
        rw [writtenField, List.length_append] at shorter
        unfold readMember
        rw [writtenField, List.append_assoc, List.append_assoc, readString_jsonString]
        change (do
          let (value, rest) ← readValue less (written value ++ others)
          some ((name, value), rest)) = _
        have fits : (written value).length ≤ less := by omega
        obtain ⟨lesser, rfl⟩ := exists_succ_of_written (built.2 _ isField) fits
        rw [ofField _ isField (built.2 _ isField) othersStop lesser fits]
        rfl
      · have counted := @length_lt_intercalate (fields.map writtenField)
        rw [List.length_map] at counted
        rw [List.length_append, List.length_cons]
        omega

/-- The text of a value is read as the value. -/
theorem readText_written
    {areNames : List String → Prop}
    {value : JsonValue}
    (built : Built IsNumeral areNames value) :
    readText (written value) = some value := by
  have isRead : readValue (written value).length (written value ++ []) = some (value, []) :=
    readValue_written built (Nat.le_refl _) (by rintro char ⟨⟩)
  rw [List.append_nil] at isRead
  unfold readText
  rw [isRead]

/-- Values with the same text are the same. -/
theorem written_injective
    {areNames : List String → Prop}
    {value other : JsonValue}
    (built : Built IsNumeral areNames value)
    (otherBuilt : Built IsNumeral areNames other)
    (sameText : written value = written other) :
    value = other := by
  have isRead := readText_written built
  rw [sameText, readText_written otherBuilt] at isRead
  exact (Option.some.inj isRead).symm

end JsonValue
end Relay
end NostrBbs
