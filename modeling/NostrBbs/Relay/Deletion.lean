import Mathlib.Data.Int.Log
import Mathlib.Data.Rat.Floor
import NostrBbs.Relay.Hiding

/-!
# Deletion requests

A deletion request deletes the events that its `e` tags name and the rows at the coordinates
of its `a` tags.  A coordinate is matched on the stored columns alone, so that it reaches more
than the version it names when its kind is not one of versions, or the version is newer than
the request.
-/

namespace NostrBbs
namespace Relay

/-! ## Reading a double -/

/-- A double, the finite ones by their values. -/
inductive Double where
  | nan
  | infinite (negative : Bool)
  | finite (value : ℚ)
deriving DecidableEq, Repr

/-- The nearest integer, the even one of two. -/
def nearestEven (value : ℚ) : Int :=
  let below := ⌊value⌋
  let rest := value - below
  if rest < 1 / 2 ∨ rest = 1 / 2 ∧ below % 2 = 0 then below else below + 1

/-- The nearest double of a value that is not negative: 53 bits, down to a least unit. -/
def nearestDouble (value : ℚ) : ℚ :=
  let unit : ℚ := 2 ^ max (Int.log 2 value - 52) (-1074)
  nearestEven (value / unit) * unit

/-- The value of decimal digits. -/
def digitsValue (digits : List Char) : Nat :=
  digits.foldl (fun value digit => value * 10 + (digit.toNat - 48)) 0

/-- A sign and what follows it. -/
def splitSign : List Char → Bool × List Char
  | '-' :: rest => (true, rest)
  | '+' :: rest => (false, rest)
  | rest => (false, rest)

/-- An exponent after `e`, which may be missing as a whole. -/
def readExponent : List Char → Option Int
  | [] => some 0
  | mark :: rest =>
      if mark ≠ 'e' ∧ mark ≠ 'E' then none
      else
        let signed := splitSign rest
        if signed.2 = [] ∨ !signed.2.all Char.isDigit then none
        else some (if signed.1 then -(digitsValue signed.2 : Int) else digitsValue signed.2)

/-- Digits with a point among them and an exponent, rounded to a double. -/
def readNumber (negative : Bool) (text : List Char) : Option Double :=
  let whole := text.takeWhile Char.isDigit
  let pointed := text.dropWhile Char.isDigit
  let fraction := if pointed.head? = some '.' then pointed.tail.takeWhile Char.isDigit else []
  let rest := if pointed.head? = some '.' then pointed.tail.dropWhile Char.isDigit else pointed
  if whole = [] ∧ fraction = [] then none
  else
    (readExponent rest).map fun exponent =>
      let value := nearestDouble
        (digitsValue (whole ++ fraction) * 10 ^ (exponent - (fraction.length : Int)))
      if 2 ^ 1024 ≤ value then .infinite negative
      else .finite (if negative then -value else value)

/-- A text read as a double. -/
def parseDouble (text : String) : Option Double :=
  let signed := splitSign text.toList
  let lower := signed.2.map Char.toLower
  if lower = "inf".toList ∨ lower = "infinity".toList then some (.infinite signed.1)
  else if lower = "nan".toList then some .nan
  else readNumber signed.1 signed.2

/-! ## Coordinates -/

/-- An `a` reference: the kind, the author and the `d` value. -/
structure ARef where
  kind : Double
  pubkey : String
  dTag : String
deriving DecidableEq, Repr

/-- What stands before a colon, and after it. -/
def splitColon (text : List Char) : Option (List Char × List Char) :=
  match text.dropWhile (· ≠ ':') with
  | [] => none
  | _ :: rest => some (text.takeWhile (· ≠ ':'), rest)

/-- A reference `kind:pubkey:d-tag` in its parts; only the first two colons separate, since a
`d` value may hold colons. -/
def splitARef (aRef : String) : Option ARef := do
  let (kindText, rest) ← splitColon aRef.toList
  let kind ← parseDouble (String.ofList kindText)
  let (pubkey, dTag) ← splitColon rest
  some ⟨kind, String.ofList pubkey, String.ofList dTag⟩

/-- The row's columns are those of the reference. -/
def ARef.isOf (ref : ARef) (row : EventRow) : Bool :=
  ref.kind == .finite row.kind && row.pubkey == ref.pubkey && row.dTag == ref.dTag

/-! ## The deletion -/

/-- The row that an `e` tag deletes. -/
def deletesId (event : NostrEvent) (canDeleteAny : Bool) (tag : Tag) (row : EventRow) : Bool :=
  row.id == firstValue tag && (canDeleteAny || row.pubkey == event.pubkey)

/-- The rows that an `a` tag deletes; one that cannot be read deletes none, nor one of another
author without the privilege. -/
def deletesCoordinate (event : NostrEvent) (canDeleteAny : Bool) (tag : Tag) (row : EventRow) :
    Bool :=
  match splitARef (firstValue tag) with
  | none => false
  | some ref =>
      if !canDeleteAny && ref.pubkey != event.pubkey then false else ref.isOf row

namespace Store

variable {trigger : TagTrigger}

/-- One deletion for each tag. -/
def deleteEach (store : Store trigger) (tags : List Tag) (doomed : Tag → EventRow → Bool) :
    Store trigger :=
  tags.foldl (fun store tag => store.deleteWhere (doomed tag)) store

theorem mem_deleteEach
    {store : Store trigger}
    {tags : List Tag}
    {doomed : Tag → EventRow → Bool}
    {row : EventRow} :
    row ∈ (store.deleteEach tags doomed).events ↔
      row ∈ store.events ∧ ∀ tag ∈ tags, doomed tag row = false := by
  induction tags generalizing store with
  | nil => simp [deleteEach]
  | cons tag tags inductionHypothesis =>
      have rest := @inductionHypothesis (store.deleteWhere (doomed tag))
      unfold deleteEach at rest ⊢
      rw [List.foldl_cons, rest, mem_deleteWhere, List.forall_mem_cons, and_assoc]

/-- A kind-5 event processed: the targets of its `e` tags are deleted, then those of its `a`
tags. -/
def processDeletion (store : Store trigger) (event : NostrEvent) (canDeleteAny : Bool) :
    Store trigger :=
  (store.deleteEach (event.tags.filter (isValued "e")) (deletesId event canDeleteAny)).deleteEach
    (event.tags.filter (isValued "a")) (deletesCoordinate event canDeleteAny)

end Store

/-- Administrators and trusted members may delete anyone's events. -/
def Ingress.canDeleteAny (ingress : Ingress) (event : NostrEvent) : Bool :=
  ingress.isAdmin event.pubkey || !(ingress.trustLevel (ingress.principalOf event)).below .trusted

/-! ## What a request names -/

section Named

variable (event : NostrEvent) (canDeleteAny : Bool) (row : EventRow)

/-- The author of a request may delete a row. -/
def MayDelete : Prop :=
  canDeleteAny = true ∨ row.pubkey = event.pubkey

/-- An `e` tag names a row that the author may delete. -/
def NamedById : Prop :=
  (∃ tag ∈ event.tags, isValued "e" tag ∧ firstValue tag = row.id) ∧
    MayDelete event canDeleteAny row

/-- A row that the author may delete is at the coordinate of an `a` tag. -/
def AtCoordinate : Prop :=
  (∃ tag ∈ event.tags, isValued "a" tag ∧ ∃ ref, splitARef (firstValue tag) = some ref ∧
    ref.kind = .finite row.kind ∧ ref.pubkey = row.pubkey ∧ ref.dTag = row.dTag) ∧
    MayDelete event canDeleteAny row

/-- A version that is not newer than the request. -/
def IsEarlierVersion : Prop :=
  eventTreatment row.kind = .parameterizedReplaceable ∧ row.createdAt ≤ asF64 event.createdAt

end Named

section Rules

variable {event : NostrEvent} {canDeleteAny : Bool} {row : EventRow}

theorem deletesId_iff
    (tag : Tag) :
    deletesId event canDeleteAny tag row ↔
      firstValue tag = row.id ∧ MayDelete event canDeleteAny row := by
  unfold deletesId MayDelete
  rw [Bool.and_eq_true, Bool.or_eq_true, beq_iff_eq, beq_iff_eq, eq_comm]

theorem ARef.isOf_iff
    (ref : ARef) :
    ref.isOf row ↔
      ref.kind = .finite row.kind ∧ ref.pubkey = row.pubkey ∧ ref.dTag = row.dTag := by
  unfold ARef.isOf
  rw [Bool.and_eq_true, Bool.and_eq_true, beq_iff_eq, beq_iff_eq, beq_iff_eq, and_assoc,
    eq_comm (a := row.pubkey), eq_comm (a := row.dTag)]

theorem deletesCoordinate_iff
    (tag : Tag) :
    deletesCoordinate event canDeleteAny tag row ↔
      (∃ ref, splitARef (firstValue tag) = some ref ∧
        ref.kind = .finite row.kind ∧ ref.pubkey = row.pubkey ∧ ref.dTag = row.dTag) ∧
        MayDelete event canDeleteAny row := by
  unfold deletesCoordinate MayDelete
  cases read : splitARef (firstValue tag) with
  | none => simp
  | some ref =>
      dsimp only
      constructor
      · intro deletes
        split at deletes
        · cases deletes
        · rename_i permitted
          have isOf := (ARef.isOf_iff ref).mp deletes
          refine ⟨⟨ref, rfl, isOf⟩, ?_⟩
          rw [isOf.2.1] at permitted
          simpa [or_iff_not_imp_left] using permitted
      · rintro ⟨⟨other, same, isOf⟩, permitted⟩
        obtain rfl := Option.some.inj same
        rw [if_neg, ARef.isOf_iff]
        · exact isOf
        · rw [isOf.2.1]
          simpa [or_iff_not_imp_left] using permitted

/-- None of the tags of a name deletes, or one of them reaches what may be deleted. -/
theorem noneReaches_iff
    {tags : List Tag}
    {name : String}
    {reaches : Tag → Prop}
    {permitted : Prop} :
    (∀ tag, tag ∈ tags ∧ isValued name tag → ¬(reaches tag ∧ permitted)) ↔
      ¬((∃ tag ∈ tags, isValued name tag ∧ reaches tag) ∧ permitted) := by
  constructor
  · rintro spared ⟨⟨tag, held, isNamed, reached⟩, permitted⟩
    exact spared tag ⟨held, isNamed⟩ ⟨reached, permitted⟩
  · rintro spared tag ⟨held, isNamed⟩ ⟨reached, permitted⟩
    exact spared ⟨⟨tag, held, isNamed, reached⟩, permitted⟩

end Rules

section Deletion

variable {trigger : TagTrigger} {store : Store trigger} {event : NostrEvent}
  {canDeleteAny : Bool} {row : EventRow}

/-- A deletion leaves the rows that no tag of the request reaches. -/
theorem mem_processDeletion :
    row ∈ (store.processDeletion event canDeleteAny).events ↔
      row ∈ store.events ∧ ¬NamedById event canDeleteAny row ∧
        ¬AtCoordinate event canDeleteAny row := by
  have byIds : (∀ tag ∈ event.tags.filter (isValued "e"),
      deletesId event canDeleteAny tag row = false) ↔ ¬NamedById event canDeleteAny row := by
    simp only [← Bool.not_eq_true, deletesId_iff, List.mem_filter]
    exact noneReaches_iff
  have byCoordinates : (∀ tag ∈ event.tags.filter (isValued "a"),
      deletesCoordinate event canDeleteAny tag row = false) ↔
        ¬AtCoordinate event canDeleteAny row := by
    simp only [← Bool.not_eq_true, deletesCoordinate_iff, List.mem_filter]
    exact noneReaches_iff
  unfold Store.processDeletion
  rw [Store.mem_deleteEach, Store.mem_deleteEach, byIds, byCoordinates, and_assoc]

/-- Without the privilege no row of another author is deleted. -/
theorem processDeletion_own
    (held : row ∈ store.events)
    (deleted : row ∉ (store.processDeletion event canDeleteAny).events) :
    MayDelete event canDeleteAny row := by
  by_contra mayNot
  apply deleted
  rw [mem_processDeletion]
  exact ⟨held, fun named => mayNot named.2, fun atCoordinate => mayNot atCoordinate.2⟩

end Deletion

/-- A deletion removes exactly what its tags name: the events of its `e` tags, and the versions
at the coordinates of its `a` tags that are not newer than it. -/
def DeletesExactly {trigger : TagTrigger} (store : Store trigger) (event : NostrEvent)
    (canDeleteAny : Bool) : Prop :=
  ∀ row, row ∈ (store.processDeletion event canDeleteAny).events ↔
    row ∈ store.events ∧
      ¬(NamedById event canDeleteAny row ∨
        AtCoordinate event canDeleteAny row ∧ IsEarlierVersion event row)

/-- A deletion never removes the row of another author without the privilege, and it removes
exactly what it names when each stored row at one of its coordinates is a version that is not
newer than it, or is named by an `e` tag. -/
theorem processDeletion_exact_iff
    {trigger : TagTrigger}
    (store : Store trigger)
    (event : NostrEvent)
    (canDeleteAny : Bool) :
    (∀ row ∈ store.events, row ∉ (store.processDeletion event canDeleteAny).events →
        MayDelete event canDeleteAny row) ∧
      (DeletesExactly store event canDeleteAny ↔
        ∀ row ∈ store.events, AtCoordinate event canDeleteAny row →
          IsEarlierVersion event row ∨ NamedById event canDeleteAny row) := by
  refine ⟨fun row held deleted => processDeletion_own held deleted, ?_⟩
  unfold DeletesExactly
  constructor
  · intro exact row held atCoordinate
    by_contra spared
    rw [not_or] at spared
    have kept := (exact row).mpr ⟨held, by tauto⟩
    rw [mem_processDeletion] at kept
    exact kept.2.2 atCoordinate
  · intro reaches row
    rw [mem_processDeletion]
    constructor
    · rintro ⟨held, notNamed, notAtCoordinate⟩
      exact ⟨held, by tauto⟩
    · rintro ⟨held, spared⟩
      have reached := reaches row held
      exact ⟨held, by tauto, by tauto⟩

/-! ## A coordinate without a `d` value -/

/-- A member's note. -/
def memberNote : NostrEvent where
  id := String.ofList (List.replicate 64 '1')
  pubkey := String.ofList (List.replicate 64 'k')
  createdAt := 100
  kind := 1
  tags := []
  content := "good evening"
  sig := String.ofList (List.replicate 128 'f')

/-- The member's request to delete at the coordinate of notes without a `d` value. -/
def notesRequest : Submission where
  event :=
    { id := String.ofList (List.replicate 64 '2')
      pubkey := String.ofList (List.replicate 64 'k')
      createdAt := 200
      kind := 5
      tags := [["a", "1:" ++ String.ofList (List.replicate 64 'k') ++ ":"]]
      content := ""
      sig := String.ofList (List.replicate 128 'f') }
  withinRate := true
  sessionAuthed := true
  now := 200

/-- The accepted request removes the note, which is no version of anything. -/
theorem notes_request_deletes_note :
    let store := storeAfter .probeBlind [.save memberNote 100]
    let saved := membersRelay.handleEvent store notesRequest true
    let request := notesRequest.event
    saved.1 = .ok true "" ∧
      EventRow.ofEvent memberNote 100 ∈ saved.2.events ∧
      eventTreatment memberNote.kind = .regular ∧
      (saved.2.processDeletion request (membersRelay.canDeleteAny request)).events.map
        EventRow.id = [request.id] ∧
      ¬DeletesExactly saved.2 request (membersRelay.canDeleteAny request) := by
  intro store saved request
  have held : EventRow.ofEvent memberNote 100 ∈ saved.2.events := by decide +kernel
  have left : (saved.2.processDeletion request (membersRelay.canDeleteAny request)).events.map
      EventRow.id = [request.id] := by decide +kernel
  refine ⟨by decide +kernel, held, by decide, left, ?_⟩
  intro exact
  have kept := (exact (EventRow.ofEvent memberNote 100)).mpr ⟨held, ?_⟩
  · have idLeft := List.mem_map_of_mem (f := EventRow.id) kept
    rw [left] at idLeft
    revert idLeft
    decide
  · rintro (⟨⟨tag, named, isNamed, -⟩, -⟩ | ⟨-, isVersion, -⟩)
    · obtain rfl := List.mem_singleton.mp named
      revert isNamed
      decide
    · revert isVersion
      decide

end Relay
end NostrBbs
