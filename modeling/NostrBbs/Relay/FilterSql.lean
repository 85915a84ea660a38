import NostrBbs.Lib.Like
import NostrBbs.Relay.Filter
import NostrBbs.Relay.Store

/-!
# Filters as SQL conditions

The conditions and bound parameters that a filter becomes, and the rows they
select.  A condition names its parameters by number, so that a condition already
written means the same whatever is bound after it.
-/

namespace NostrBbs
namespace Relay

/-! ## Conditions -/

/-- A bound parameter or the value of a column. -/
inductive SqlValue
  | number (value : Nat)
  | text (value : String)
  deriving DecidableEq, Repr

/-- The columns that conditions compare for equality. -/
inductive Column
  | id
  | pubkey
  | kind
  deriving DecidableEq, Repr

def EventRow.column (row : EventRow) : Column → SqlValue
  | .id => .text row.id
  | .pubkey => .text row.pubkey
  | .kind => .number row.kind

/-- A condition over the numbers of its parameters. -/
inductive Condition
  /-- `1 = 0` -/
  | never
  /-- `column IN (?1,?2)` -/
  | among (column : Column) (placeholders : List Nat)
  /-- `created_at >= ?1` -/
  | createdFrom (placeholder : Nat)
  /-- `created_at <= ?1` -/
  | createdUntil (placeholder : Nat)
  /-- `EXISTS (SELECT 1 FROM event_tags t WHERE t.event_id = events.id AND
  t.name = ?1 AND t.value IN (?2,?3))` -/
  | tagged (name : Nat) (values : List Nat)
  /-- `content LIKE ?1 ESCAPE '\'` -/
  | contentLike (placeholder : Nat)
  deriving DecidableEq, Repr

/-- `(SELECT DISTINCT event_id FROM event_tags WHERE name = ?1 AND value IN
(?2,?3))` -/
structure TagDriver where
  name : Nat
  values : List Nat
deriving DecidableEq, Repr

/-! ## The search pattern -/

/-- A text with every occurrence of a character replaced. -/
def replaceChar (old : Char) (new : List Char) (text : List Char) : List Char :=
  text.flatMap fun char => if char = old then new else [char]

/-- The pattern of a search term; the escape character is escaped first. -/
def likePattern (term : String) : String :=
  let escaped :=
    replaceChar '_' ['\\', '_'] (replaceChar '%' ['\\', '%']
      (replaceChar '\\' ['\\', '\\'] term.toList))
  String.ofList ('%' :: (escaped ++ ['%']))

/-- The signs of a pattern under the escape character that the condition
names. -/
def likeSigns : Lib.LikeSigns Char where
  many := '%'
  single := '_'
  escape := '\\'

/-! ## The builder -/

/-- The conditions and parameters written so far, the number of the next
parameter, and the subquery that drives the query. -/
structure Builder where
  conditions : List Condition
  params : List SqlValue
  paramIdx : Nat
  tagDriver : Option TagDriver
deriving DecidableEq, Repr

namespace Builder

/-- Nothing written yet. -/
def start : Builder where
  conditions := []
  params := []
  paramIdx := 1
  tagDriver := none

/-- The numbers of the next parameters. -/
def placeholders (builder : Builder) (count : Nat) : List Nat :=
  List.range' builder.paramIdx count

/-- Binding the next parameters. -/
def bind (builder : Builder) (values : List SqlValue) : Builder :=
  { builder with
    params := builder.params ++ values
    paramIdx := builder.paramIdx + values.length }

def addCondition (builder : Builder) (condition : Condition) : Builder :=
  { builder with conditions := builder.conditions ++ [condition] }

/-- A list of a filter: its column holds one of the values. -/
def addAmong
    (builder : Builder)
    (column : Column) : Option (List SqlValue) → Builder
  | none => builder
  | some values =>
      if values = [] then builder.addCondition .never
      else (builder.addCondition (.among column (builder.placeholders values.length))).bind values

/-- A bound of a filter or its search term, on one parameter. -/
def addBound
    (builder : Builder)
    (condition : Nat → Condition) : Option SqlValue → Builder
  | none => builder
  | some value => (builder.addCondition (condition builder.paramIdx)).bind [value]

/-- A tag name and its values: the driver when there is none yet, else a
condition. -/
def addTag (builder : Builder) (name : String) (values : List String) : Builder :=
  let valuePlaceholders := List.range' (builder.paramIdx + 1) values.length
  let bound := builder.bind (.text name :: values.map .text)
  match builder.tagDriver with
  | none => { bound with tagDriver := some ⟨builder.paramIdx, valuePlaceholders⟩ }
  | some _ => bound.addCondition (.tagged builder.paramIdx valuePlaceholders)

/-- An unnamed entry of a filter. -/
def addEntry (builder : Builder) (entry : String × JsonValue) : Builder :=
  match tagFilterPlan entry.1 entry.2 with
  | .ignore => builder
  | .matchNothing => builder.addCondition .never
  | .values name values => builder.addTag name values

end Builder

/-- The conditions of a filter, written after those of a builder. -/
def buildFilterConditions (filter : NostrFilter) (builder : Builder) : Builder :=
  let builder := builder.addAmong .id (filter.ids.map (List.map .text))
  let builder := builder.addAmong .pubkey (filter.authors.map (List.map .text))
  let builder := builder.addAmong .kind
    (filter.kinds.map (List.map fun kind => .number (asF64 kind)))
  let builder := builder.addBound .createdFrom
    (filter.since.map fun since => .number (asF64 since))
  let builder := builder.addBound .createdUntil
    (filter.until.map fun last => .number (asF64 last))
  let builder := filter.extra.entries.foldl Builder.addEntry builder
  builder.addBound .contentLike
    ((searchTerm filter).map fun term => .text (likePattern term))

/-! ## Selection -/

/-- The value bound to a parameter; parameters are numbered from one. -/
def boundTo (params : List SqlValue) (placeholder : Nat) : Option SqlValue :=
  params[placeholder - 1]?

/-- A value is bound to one of some parameters. -/
def boundAmong (params : List SqlValue) (placeholders : List Nat) (value : SqlValue) : Bool :=
  placeholders.any fun placeholder => boundTo params placeholder == some value

/-- SQLite's order: numbers by value and before texts, texts by their bytes. -/
def SqlValue.atMost : SqlValue → SqlValue → Bool
  | number first, number second => decide (first ≤ second)
  | number _, text _ => true
  | text _, number _ => false
  | text first, text second => decide (first ≤ second)

/-- The text that an operator on texts reads. -/
def SqlValue.asText : SqlValue → String
  | number value => toString value
  | text value => value

/-- SQLite's `LIKE`, which ignores the case of ASCII letters. -/
def SqlValue.like (pattern : SqlValue) (content : String) : Bool :=
  likeSigns.like Char.toLower pattern.asText.toList content.toList

/-- An index row has a bound name and one of the bound values. -/
def entrySelected (params : List SqlValue) (name : Nat) (values : List Nat)
    (entry : TagRow) : Bool :=
  boundTo params name == some (.text entry.name) &&
    boundAmong params values (.text entry.value)

/-- A row satisfies a condition; one over an unbound parameter fails. -/
def Condition.holds (params : List SqlValue) (tags : List TagRow) (row : EventRow) :
    Condition → Bool
  | never => false
  | among column placeholders => boundAmong params placeholders (row.column column)
  | createdFrom placeholder =>
      (boundTo params placeholder).any fun bound => bound.atMost (.number row.createdAt)
  | createdUntil placeholder =>
      (boundTo params placeholder).any fun bound => (SqlValue.number row.createdAt).atMost bound
  | tagged name values =>
      tags.any fun entry => entry.eventId == row.id && entrySelected params name values entry
  | contentLike placeholder =>
      (boundTo params placeholder).any fun pattern => pattern.like row.content

/-- The event ids of the driving subquery, each once. -/
def TagDriver.eventIds (params : List SqlValue) (tags : List TagRow) (driver : TagDriver) :
    List String :=
  ((tags.filter (entrySelected params driver.name driver.values)).map TagRow.eventId).dedup

/-- The rows of the table that satisfy every condition of a builder. -/
def Builder.rowsWhere {trigger : TagTrigger} (builder : Builder) (params : List SqlValue)
    (store : Store trigger) : List EventRow :=
  store.events.filter fun row =>
    builder.conditions.all fun condition => condition.holds params store.tags row

/-- The rows that a query selects, before their order and number are limited: the
limit is one more parameter. -/
def selectedRows {trigger : TagTrigger} (store : Store trigger) (filter : NostrFilter)
    (limit : Nat) : List EventRow :=
  let builder := buildFilterConditions filter Builder.start
  let params := builder.params ++ [.number limit]
  match builder.tagDriver with
  | none => builder.rowsWhere params store
  | some driver =>
      (driver.eventIds params store.tags).flatMap fun id =>
        (builder.rowsWhere params store).filter fun row => row.id == id

end Relay
end NostrBbs
