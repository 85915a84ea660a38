import Mathlib
import NostrBbs.Lib.Round

/-!
# Signed events and their tags

The event record of the relay and the readers of its tags.  Kinds, times and
tag positions are natural numbers; key texts are compared exactly or up to the
case of their ASCII letters, as each reader of the source does.
-/

namespace NostrBbs
namespace Relay

/-- A tag: its name and then its values. -/
abbrev Tag := List String

/-- A fully signed event. -/
structure NostrEvent where
  id : String
  pubkey : String
  createdAt : Nat
  kind : Nat
  tags : List Tag
  content : String
  sig : String
deriving DecidableEq, Repr

/-! ## Numbers and texts -/

/-- The value of a number as a double, which is how it is bound. -/
def asF64 (number : Nat) : Nat :=
  Lib.roundTo 53 number

theorem asF64_of_lt
    {number : Nat}
    (exact : number < 2 ^ 53) :
    asF64 number = number :=
  Lib.roundTo_of_lt exact

theorem lt_of_asF64_lt
    {first second : Nat}
    (below : asF64 first < asF64 second) :
    first < second := by
  by_contra notBelow
  have ordered : asF64 second ≤ asF64 first :=
    Lib.roundTo_mono (by decide) (Nat.not_lt.mp notBelow)
  exact absurd below (Nat.not_lt.mpr ordered)

/-- The characters of a text with its ASCII letters in lower case. -/
def asciiLower (text : String) : List Char :=
  text.toList.map Char.toLower

def eqIgnoreAsciiCase (first second : String) : Bool :=
  asciiLower first == asciiLower second

theorem eqIgnoreAsciiCase_refl (text : String) : eqIgnoreAsciiCase text text := by
  simp [eqIgnoreAsciiCase]

/-- The only text like the empty one is the empty one. -/
theorem eq_empty_of_eqIgnoreAsciiCase
    {text : String}
    (like : eqIgnoreAsciiCase "" text) :
    text = "" := by
  have same : [] = text.toList.map Char.toLower := by
    simpa [eqIgnoreAsciiCase, asciiLower] using like
  have empty : text.toList = [] := List.map_eq_nil_iff.mp same.symm
  exact String.toList_eq_nil_iff.mp empty

/-! ## Tags -/

/-- A tag of a name with at least one value. -/
def isValued (name : String) (tag : Tag) : Bool :=
  decide (2 ≤ tag.length) && tag.head? == some name

/-- The first value of a tag. -/
def firstValue (tag : Tag) : String :=
  tag.getD 1 ""

/-- The first value for a tag name. -/
def tagValue (event : NostrEvent) (name : String) : Option String :=
  (event.tags.find? (isValued name)).map firstValue

/-- Every pubkey that a `p` tag names. -/
def recipients (event : NostrEvent) : List String :=
  (event.tags.filter (isValued "p")).map firstValue

/-- The channel a message belongs to: its `root`-marked `e` tag, else the first
`e` tag. -/
def channelTag (event : NostrEvent) : Option String :=
  let eTags := event.tags.filter (isValued "e")
  ((eTags.find? fun tag => tag[3]? == some "root").or eTags.head?).map firstValue

/-- The channel whose zone governs reading an event. -/
def zoneChannelId (event : NostrEvent) : Option String :=
  match event.kind with
  | 40 => some event.id
  | 41 | 42 => channelTag event
  | _ => none

/-- The value of the first `d` tag, empty when there is none. -/
def dTagValue (event : NostrEvent) : String :=
  match event.tags.find? fun tag => tag.head? == some "d" with
  | some tag => tag.getD 1 ""
  | none => ""

end Relay
end NostrBbs
