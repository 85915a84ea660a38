import Mathlib.Data.String.Basic
import NostrBbs.Lib.Page

/-!
# Container listings

A container's children are recovered from the flat keys of a bucket: the keys under its
prefix are listed, and each is cut after its first segment.  One list call returns a page of
the keys, in their order.
-/

namespace NostrBbs
namespace Pod

/-! ## The bucket -/

/-- A key, and when its object was stored. -/
structure ListedObject where
  key : String
  uploaded : Nat
deriving DecidableEq, Repr

/-- The objects of a bucket in the order of their keys. -/
structure Bucket where
  objects : List ListedObject
  sorted : (objects.map ListedObject.key).Pairwise (· < ·)

/-- The keys that one list call returns, at most. -/
def listPageSize : Nat := 1000

/-- What follows a prefix in a key. -/
def relativeTo (start key : String) : Option (List Char) :=
  start.toList.isPrefixOf? key.toList

namespace Bucket

/-- The objects whose keys begin with a prefix. -/
def startingWith (bucket : Bucket) (start : String) : List ListedObject :=
  bucket.objects.filter fun object => (relativeTo start object.key).isSome

/-- The answer of one list call: a page, and whether there is more. -/
def list (bucket : Bucket) (start : String) : List ListedObject × Bool :=
  ((bucket.startingWith start).take listPageSize,
    decide (listPageSize < (bucket.startingWith start).length))

end Bucket

/-! ## Containers -/

/-- A member of a listing. -/
structure ContainerMember where
  id : String
  modified : Nat
deriving DecidableEq, Repr

/-- The first segment of a relative path, with the slash that ends it. -/
def childName (relative : List Char) : List Char :=
  match relative.findIdx? (· == '/') with
  | some slash => relative.take (slash + 1)
  | none => relative

/-- An object adds the child that it shows, unless that one is listed already. -/
def addMember (containerPath start : String) (members : List ContainerMember)
    (object : ListedObject) : List ContainerMember :=
  match relativeTo start object.key with
  | none => members
  | some [] => members
  | some relative =>
      let id := containerPath ++ String.ofList (childName relative)
      if members.any fun listed => listed.id == id then members
      else members ++ [⟨id, object.uploaded⟩]

/-- The prefix of the keys of a container. -/
def containerPrefix (ownerPubkey containerPath : String) : String :=
  "pods/" ++ ownerPubkey ++ containerPath

def listContainer (bucket : Bucket) (ownerPubkey containerPath : String) :
    List ContainerMember :=
  let start := containerPrefix ownerPubkey containerPath
  (bucket.list start).1.foldl (addMember containerPath start) []

/-! ## Children -/

/-- A key is that of a child, or of something in it when the child is a container. -/
def Shows (start key : String) (name : List Char) : Prop :=
  (name ≠ [] ∧ '/' ∉ name ∧ key.toList = start.toList ++ name) ∨
    ∃ segment rest, '/' ∉ segment ∧ name = segment ++ ['/'] ∧
      key.toList = start.toList ++ segment ++ '/' :: rest

/-- A direct child of a container. -/
def IsChild (bucket : Bucket) (start : String) (name : List Char) : Prop :=
  ∃ object ∈ bucket.objects, Shows start object.key name

theorem relativeTo_eq_some_iff
    {start key : String}
    {relative : List Char} :
    relativeTo start key = some relative ↔ key.toList = start.toList ++ relative := by
  unfold relativeTo
  rw [List.isPrefixOf?_eq_some_iff_append_eq, eq_comm]

theorem childName_of_slash
    {segment : List Char}
    (noSlash : '/' ∉ segment)
    (rest : List Char) :
    childName (segment ++ '/' :: rest) = segment ++ ['/'] := by
  have inSegment : segment.findIdx? (· == '/') = none := by
    rw [List.findIdx?_eq_none_iff]
    intro char isChar
    rw [beq_eq_false_iff_ne]
    rintro rfl
    exact noSlash isChar
  have firstSlash : (segment ++ '/' :: rest).findIdx? (· == '/') = some segment.length := by
    rw [List.findIdx?_append, inSegment, List.findIdx?_cons]
    simp
  unfold childName
  rw [firstSlash]
  exact List.take_length_add_append 1

theorem childName_of_no_slash
    {relative : List Char}
    (noSlash : '/' ∉ relative) :
    childName relative = relative := by
  have none : relative.findIdx? (· == '/') = none := by
    rw [List.findIdx?_eq_none_iff]
    intro char isChar
    rw [beq_eq_false_iff_ne]
    rintro rfl
    exact noSlash isChar
  unfold childName
  rw [none]

/-- A key shows the child that its relative path is cut to. -/
theorem shows_iff
    {start key : String}
    {name : List Char} :
    Shows start key name ↔
      ∃ relative, relativeTo start key = some relative ∧ relative ≠ [] ∧
        childName relative = name := by
  constructor
  · rintro (⟨nonempty, noSlash, isKey⟩ | ⟨segment, rest, noSlash, rfl, isKey⟩)
    · exact ⟨name, relativeTo_eq_some_iff.mpr isKey, nonempty, childName_of_no_slash noSlash⟩
    · rw [List.append_assoc] at isKey
      exact ⟨segment ++ '/' :: rest, relativeTo_eq_some_iff.mpr isKey, by simp,
        childName_of_slash noSlash rest⟩
  · rintro ⟨relative, isRelative, nonempty, rfl⟩
    have isKey := relativeTo_eq_some_iff.mp isRelative
    by_cases hasSlash : '/' ∈ relative
    · obtain ⟨segment, rest, rfl, noSlash⟩ := List.eq_append_cons_of_mem hasSlash
      rw [← List.append_assoc] at isKey
      exact .inr ⟨segment, rest, noSlash, childName_of_slash noSlash rest, isKey⟩
    · rw [childName_of_no_slash hasSlash]
      exact .inl ⟨nonempty, hasSlash, isKey⟩

/-! ## Listing -/

/-- The id of a child. -/
def childId (containerPath : String) (name : List Char) : String :=
  containerPath ++ String.ofList name

/-- The ids that a listing gives. -/
def listedIds (members : List ContainerMember) : List String :=
  members.map ContainerMember.id

/-- An object adds the child that it shows, once. -/
theorem addMember_spec
    (containerPath start : String)
    {members : List ContainerMember}
    (object : ListedObject)
    (distinct : (listedIds members).Nodup) :
    (listedIds (addMember containerPath start members object)).Nodup ∧
      ∀ id, id ∈ listedIds (addMember containerPath start members object) ↔
        id ∈ listedIds members ∨
          ∃ name, Shows start object.key name ∧ id = childId containerPath name := by
  have shown : ∀ relative, relativeTo start object.key = some relative → relative ≠ [] →
      ∀ id, (∃ name, Shows start object.key name ∧ id = childId containerPath name) ↔
        id = childId containerPath (childName relative) := by
    intro relative isRelative nonempty id
    constructor
    · rintro ⟨name, isShown, rfl⟩
      obtain ⟨other, isOther, -, rfl⟩ := shows_iff.mp isShown
      rw [isRelative] at isOther
      cases isOther
      rfl
    · rintro rfl
      exact ⟨_, shows_iff.mpr ⟨relative, isRelative, nonempty, rfl⟩, rfl⟩
  have shownNot : (relativeTo start object.key = none ∨ relativeTo start object.key = some []) →
      ∀ id, ¬∃ name, Shows start object.key name ∧ id = childId containerPath name := by
    rintro nothing id ⟨name, isShown, -⟩
    obtain ⟨relative, isRelative, nonempty, -⟩ := shows_iff.mp isShown
    rcases nothing with outside | marker
    · rw [outside] at isRelative
      cases isRelative
    · rw [marker] at isRelative
      cases isRelative
      exact nonempty rfl
  unfold addMember
  cases cut : relativeTo start object.key with
  | none => exact ⟨distinct, fun id => (or_iff_left (shownNot (.inl cut) id)).symm⟩
  | some relative =>
      cases relative with
      | nil => exact ⟨distinct, fun id => (or_iff_left (shownNot (.inr cut) id)).symm⟩
      | cons first rest =>
          have isShown := shown (first :: rest) cut (List.cons_ne_nil _ _)
          dsimp only
          change (listedIds (if members.any (fun listed =>
              listed.id == childId containerPath (childName (first :: rest))) then members
            else members ++ [⟨childId containerPath (childName (first :: rest)),
              object.uploaded⟩])).Nodup ∧ ∀ id, id ∈ listedIds (if members.any (fun listed =>
                listed.id == childId containerPath (childName (first :: rest))) then members
              else members ++ [⟨childId containerPath (childName (first :: rest)),
                object.uploaded⟩]) ↔ _
          have seen : members.any (fun listed =>
              listed.id == childId containerPath (childName (first :: rest))) = true ↔
              childId containerPath (childName (first :: rest)) ∈ listedIds members := by
            unfold listedIds
            rw [List.any_eq_true, List.mem_map]
            simp only [beq_iff_eq]
          split
          · rename_i isSeen
            refine ⟨distinct, fun id => ?_⟩
            rw [isShown, or_iff_left_of_imp]
            rintro rfl
            exact seen.mp isSeen
          · rename_i notSeen
            unfold listedIds at distinct seen ⊢
            rw [List.map_append]
            refine ⟨List.nodup_append.mpr ⟨distinct, List.nodup_singleton _, ?_⟩, fun id => ?_⟩
            · rintro id isListed other isOther rfl
              rw [List.map_singleton, List.mem_singleton] at isOther
              rw [isOther] at isListed
              exact notSeen (seen.mpr isListed)
            · rw [List.mem_append, List.map_singleton, List.mem_singleton, isShown]

/-- A listing gives the children that the keys of its page show, each once. -/
theorem listContainer_spec
    (bucket : Bucket)
    (ownerPubkey containerPath : String) :
    (listedIds (listContainer bucket ownerPubkey containerPath)).Nodup ∧
      ∀ id, id ∈ listedIds (listContainer bucket ownerPubkey containerPath) ↔
        ∃ object ∈ (bucket.list (containerPrefix ownerPubkey containerPath)).1, ∃ name,
          Shows (containerPrefix ownerPubkey containerPath) object.key name ∧
            id = childId containerPath name := by
  have folded : ∀ (objects : List ListedObject) (members : List ContainerMember),
      (listedIds members).Nodup →
        (listedIds (objects.foldl
          (addMember containerPath (containerPrefix ownerPubkey containerPath)) members)).Nodup ∧
        ∀ id, id ∈ listedIds (objects.foldl
            (addMember containerPath (containerPrefix ownerPubkey containerPath)) members) ↔
          id ∈ listedIds members ∨ ∃ object ∈ objects, ∃ name,
            Shows (containerPrefix ownerPubkey containerPath) object.key name ∧
              id = childId containerPath name := by
    intro objects
    induction objects with
    | nil =>
        intro members distinct
        refine ⟨distinct, fun id => (or_iff_left ?_).symm⟩
        rintro ⟨object, isObject, -⟩
        cases isObject
    | cons object rest inductionHypothesis =>
        intro members distinct
        obtain ⟨added, ids⟩ :=
          addMember_spec containerPath (containerPrefix ownerPubkey containerPath) object distinct
        obtain ⟨later, laterIds⟩ := inductionHypothesis _ added
        refine ⟨later, fun id => ?_⟩
        rw [List.foldl_cons, laterIds, ids, or_assoc]
        refine or_congr_right ?_
        simp only [List.mem_cons, exists_eq_or_imp]
  obtain ⟨distinct, ids⟩ := folded (bucket.list (containerPrefix ownerPubkey containerPath)).1 []
    List.nodup_nil
  refine ⟨distinct, fun id => (ids id).trans (or_iff_right ?_)⟩
  exact List.not_mem_nil

/-! ## Complete listings -/

/-- A listing gives each direct child once and nothing else. -/
def ListsChildren (bucket : Bucket) (ownerPubkey containerPath : String) : Prop :=
  (listedIds (listContainer bucket ownerPubkey containerPath)).Nodup ∧
    ∀ id, id ∈ listedIds (listContainer bucket ownerPubkey containerPath) ↔
      ∃ name, IsChild bucket (containerPrefix ownerPubkey containerPath) name ∧
        id = childId containerPath name

/-- A child is shown by a key that has less than a page of the container's keys before it. -/
def ShownEarly (bucket : Bucket) (start : String) (name : List Char) : Prop :=
  ∃ object ∈ bucket.objects, Shows start object.key name ∧
    (Lib.before ListedObject.key (bucket.startingWith start) object.key).length < listPageSize

theorem childId_inj
    {containerPath : String}
    {name other : List Char}
    (same : childId containerPath name = childId containerPath other) :
    name = other := by
  unfold childId at same
  have lists := congrArg String.toList same
  rw [String.toList_append, String.toList_append, String.toList_ofList, String.toList_ofList]
    at lists
  exact List.append_cancel_left lists

/-- The page of a container shows a child exactly when it is shown early. -/
theorem page_shows_iff
    {bucket : Bucket}
    {start : String}
    {name : List Char} :
    (∃ object ∈ (bucket.list start).1, Shows start object.key name) ↔
      ShownEarly bucket start name := by
  have sorted : ((bucket.startingWith start).map ListedObject.key).Pairwise (· < ·) :=
    bucket.sorted.sublist (List.filter_sublist.map _)
  have inContainer : ∀ object, object ∈ bucket.objects → Shows start object.key name →
      object ∈ bucket.startingWith start := by
    intro object isObject isShown
    obtain ⟨relative, isRelative, -⟩ := shows_iff.mp isShown
    exact List.mem_filter.mpr ⟨isObject, by rw [isRelative]; rfl⟩
  constructor
  · rintro ⟨object, onPage, isShown⟩
    have isListed := List.mem_of_mem_take onPage
    exact ⟨object, (List.mem_filter.mp isListed).1, isShown,
      (Lib.mem_take_iff sorted isListed listPageSize).mp onPage⟩
  · rintro ⟨object, isObject, isShown, early⟩
    exact ⟨object, (Lib.mem_take_iff sorted (inContainer object isObject isShown)
      listPageSize).mpr early, isShown⟩

/-- A listing is complete exactly when each direct child is shown within the first page of the
container's keys. -/
theorem listsChildren_iff
    (bucket : Bucket)
    (ownerPubkey containerPath : String) :
    ListsChildren bucket ownerPubkey containerPath ↔
      ∀ name, IsChild bucket (containerPrefix ownerPubkey containerPath) name →
        ShownEarly bucket (containerPrefix ownerPubkey containerPath) name := by
  obtain ⟨distinct, ids⟩ := listContainer_spec bucket ownerPubkey containerPath
  constructor
  · rintro ⟨-, complete⟩ name isChild
    obtain ⟨object, onPage, other, isShown, same⟩ :=
      (ids _).mp ((complete _).mpr ⟨name, isChild, rfl⟩)
    cases childId_inj same
    exact page_shows_iff.mp ⟨object, onPage, isShown⟩
  · intro early
    refine ⟨distinct, fun id => (ids id).trans ⟨?_, ?_⟩⟩
    · rintro ⟨object, onPage, name, isShown, rfl⟩
      have isListed := List.mem_of_mem_take onPage
      exact ⟨name, ⟨object, (List.mem_filter.mp isListed).1, isShown⟩, rfl⟩
    · rintro ⟨name, isChild, rfl⟩
      obtain ⟨object, onPage, isShown⟩ := page_shows_iff.mpr (early name isChild)
      exact ⟨object, onPage, name, isShown, rfl⟩

/-! ## A full page -/

/-- An object in a sub-container, with a name of some length. -/
def tallied (count : Nat) : ListedObject :=
  ⟨String.ofList ("pods/owner/files/".toList ++ 'a' :: '/' :: List.replicate count 'x'), 0⟩

/-- An object beside the sub-container. -/
def beside : ListedObject :=
  ⟨"pods/owner/files/b", 0⟩

theorem tallied_toList
    (count : Nat) :
    (tallied count).key.toList =
      "pods/owner/files/".toList ++ 'a' :: '/' :: List.replicate count 'x' :=
  String.toList_ofList

theorem replicate_lt_replicate
    {first second : Nat}
    (less : first < second) :
    List.replicate first 'x' < List.replicate second 'x' := by
  induction first generalizing second with
  | zero =>
      obtain ⟨second, rfl⟩ := Nat.exists_eq_succ_of_ne_zero (Nat.ne_zero_of_lt less)
      exact List.Lex.nil
  | succ first inductionHypothesis =>
      obtain ⟨second, rfl⟩ := Nat.exists_eq_succ_of_ne_zero (Nat.ne_zero_of_lt less)
      exact List.Lex.cons (inductionHypothesis (Nat.lt_of_succ_lt_succ less))

/-- A sub-container that fills a page, and an object after it. -/
def fullBucket : Bucket where
  objects := (List.range listPageSize).map tallied ++ [beside]
  sorted := by
    have append : ∀ {first second : List Char} (start : List Char), first < second →
        start ++ first < start ++ second := by
      intro first second start less
      induction start with
      | nil => exact less
      | cons head rest inductionHypothesis => exact List.Lex.cons inductionHypothesis
    rw [List.map_append, List.pairwise_append]
    refine ⟨?_, List.pairwise_singleton _ _, ?_⟩
    · rw [List.map_map, List.pairwise_map]
      refine (List.pairwise_lt_range (n := listPageSize)).imp fun {first second} less => ?_
      rw [Function.comp_apply, Function.comp_apply, String.lt_iff_toList_lt, tallied_toList,
        tallied_toList]
      exact append _ (List.Lex.cons (List.Lex.cons (replicate_lt_replicate less)))
    · intro key isKey other isOther
      obtain ⟨object, isObject, rfl⟩ := List.mem_map.mp isKey
      obtain ⟨count, -, rfl⟩ := List.mem_map.mp isObject
      rw [List.map_singleton, List.mem_singleton] at isOther
      rw [isOther, String.lt_iff_toList_lt, tallied_toList]
      exact append "pods/owner/files/".toList
        (List.Lex.rel (show 'a' < 'b' by decide))

theorem page_of_fullBucket :
    (fullBucket.list "pods/owner/files/").1 = (List.range listPageSize).map tallied := by
  have allUnder : fullBucket.startingWith "pods/owner/files/" = fullBucket.objects := by
    unfold Bucket.startingWith
    rw [List.filter_eq_self]
    intro object isObject
    rcases List.mem_append.mp isObject with isTallied | isBeside
    · obtain ⟨count, -, rfl⟩ := List.mem_map.mp isTallied
      rw [relativeTo_eq_some_iff.mpr (tallied_toList count)]
      rfl
    · rw [List.mem_singleton.mp isBeside]
      decide
  have size : ((List.range listPageSize).map tallied).length = listPageSize := by
    rw [List.length_map, List.length_range]
  unfold Bucket.list
  dsimp only
  rw [allUnder]
  unfold fullBucket
  dsimp only
  rw [List.take_left' size]

/-- The object after a sub-container of a thousand objects is not listed. -/
theorem full_page_hides_object :
    ¬ListsChildren fullBucket "owner" "/files/" := by
  rintro ⟨-, complete⟩
  have isPrefix : containerPrefix "owner" "/files/" = "pods/owner/files/" := by decide
  have isChild : IsChild fullBucket (containerPrefix "owner" "/files/") ['b'] :=
    ⟨beside, List.mem_append_right _ List.mem_cons_self,
      .inl ⟨List.cons_ne_nil _ _, by decide, by decide⟩⟩
  obtain ⟨object, onPage, name, isShown, same⟩ :=
    ((listContainer_spec fullBucket "owner" "/files/").2 _).mp
      ((complete _).mpr ⟨['b'], isChild, rfl⟩)
  cases childId_inj same
  rw [isPrefix, page_of_fullBucket] at onPage
  obtain ⟨count, -, rfl⟩ := List.mem_map.mp onPage
  obtain ⟨relative, isRelative, -, cut⟩ := shows_iff.mp isShown
  rw [isPrefix, relativeTo_eq_some_iff.mpr (tallied_toList count)] at isRelative
  cases isRelative
  have named : childName ('a' :: '/' :: List.replicate count 'x') = ['a', '/'] :=
    childName_of_slash (List.not_mem_cons_of_ne_of_not_mem (by decide) List.not_mem_nil) _
  rw [named] at cut
  cases cut

end Pod
end NostrBbs
