import NostrBbs.Relay.Event

/-!
# Subscription filters

The NIP-01 filter type and its in-memory matching, which live broadcasts use.
The unnamed entries of a filter keep the order in which they are walked, which
the source leaves to a hash map: every statement holds for any order.
-/

namespace NostrBbs
namespace Relay

/-- A JSON value, as a filter's unnamed entries hold it. -/
inductive JsonValue where
  | null
  | bool (value : Bool)
  | number (text : String)
  | string (text : String)
  | array (items : List JsonValue)
  | object (fields : List (String × JsonValue))

namespace JsonValue

def asArray : JsonValue → Option (List JsonValue)
  | array items => some items
  | _ => none

def asStr : JsonValue → Option String
  | string text => some text
  | _ => none

end JsonValue

/-- The unnamed entries of a filter, one for each key. -/
structure Extra where
  entries : List (String × JsonValue)
  distinct : (entries.map Prod.fst).Nodup

namespace Extra

/-- No entries. -/
def empty : Extra :=
  ⟨[], List.nodup_nil⟩

/-- An entry set, in place of an earlier one for its key. -/
def insert (extra : Extra) (key : String) (value : JsonValue) : Extra where
  entries := (key, value) :: extra.entries.filter fun entry => entry.1 != key
  distinct := by
    rw [List.map_cons, List.nodup_cons]
    constructor
    · intro member
      obtain ⟨entry, kept, sameKey⟩ := List.mem_map.mp member
      simpa [sameKey] using (List.mem_filter.mp kept).2
    · exact extra.distinct.sublist (List.filter_sublist.map _)

end Extra

/-- A NIP-01 subscription filter. -/
structure NostrFilter where
  ids : Option (List String)
  authors : Option (List String)
  kinds : Option (List Nat)
  since : Option Nat
  «until» : Option Nat
  search : Option String
  extra : Extra

/-! ## The plan shared with the SQL builder -/

/-- How one entry of a filter is to be applied. -/
inductive TagFilterPlan where
  | ignore
  | matchNothing
  | values (name : String) (required : List String)
deriving DecidableEq

/-- The characters of a tag name that a filter may use. -/
def isTagNameChar (char : Char) : Bool :=
  char.isAlphanum || char == '_' || char == '-'

def tagFilterPlan (key : String) (value : JsonValue) : TagFilterPlan :=
  match key.toList with
  | '#' :: name =>
      if !name.all isTagNameChar then .ignore
      -- probe rows are kept out of the tag index, so the live path agrees
      else if String.ofList name = "probe" then .matchNothing
      else
        match value.asArray with
        | none => .ignore
        | some items =>
            let nonempty := (items.filterMap JsonValue.asStr).filter (· ≠ "")
            if nonempty = [] then .matchNothing
            else .values (String.ofList name) nonempty
  | _ => .ignore

/-- The search term a filter applies, `none` when absent or empty. -/
def searchTerm (filter : NostrFilter) : Option String :=
  filter.search.filter (· ≠ "")

/-- Whether a text occurs within another. -/
def containsText (needle : List Char) : List Char → Bool
  | [] => needle.isEmpty
  | char :: rest => needle.isPrefixOf (char :: rest) || containsText needle rest

theorem containsText_iff
    (needle text : List Char) :
    containsText needle text ↔ needle <:+: text := by
  induction text with
  | nil =>
      simp [containsText]
  | cons char text inductionHypothesis =>
      rw [containsText, Bool.or_eq_true, List.isPrefixOf_iff_prefix, inductionHypothesis,
        List.infix_cons_iff]

/-- A substring match up to the case of ASCII letters. -/
def contentMatchesSearch (content term : String) : Bool :=
  containsText (asciiLower term) (asciiLower content)

/-! ## Matching -/

/-- An event has a tag of a name with one of the required values. -/
def hasTag (event : NostrEvent) (name : String) (required : List String) : Bool :=
  event.tags.any fun tag =>
    tag.head? == some name && tag[1]?.any fun value => required.contains value

/-- One entry of a filter admits an event. -/
def entryMatches (event : NostrEvent) (entry : String × JsonValue) : Bool :=
  match tagFilterPlan entry.1 entry.2 with
  | .ignore => true
  | .matchNothing => false
  | .values name required => hasTag event name required

/-- An event passes every condition of a filter. -/
def eventMatches (event : NostrEvent) (filter : NostrFilter) : Bool :=
  filter.ids.all (fun ids => ids.contains event.id) &&
  filter.authors.all (fun authors => authors.contains event.pubkey) &&
  filter.kinds.all (fun kinds => kinds.contains event.kind) &&
  filter.since.all (fun since => decide (since ≤ event.createdAt)) &&
  filter.until.all (fun until_ => decide (event.createdAt ≤ until_)) &&
  (searchTerm filter).all (fun term => contentMatchesSearch event.content term) &&
  filter.extra.entries.all (entryMatches event)

def eventMatchesFilters (event : NostrEvent) (filters : List NostrFilter) : Bool :=
  filters.any (eventMatches event)

end Relay
end NostrBbs
