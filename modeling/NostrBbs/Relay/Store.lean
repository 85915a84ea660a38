import NostrBbs.Lib.Run
import NostrBbs.Relay.Event

/-!
# The event table and its tag index

The rows of the `events` table, the `event_tags` index that triggers keep in
step with it, and the saving of events.  The `tags` column holds the tags' JSON
text, which reads back as they were; a text is compared as a whole.
-/

namespace NostrBbs
namespace Relay

/-! ## Treatment of kinds -/

/-- How events of a kind are kept. -/
inductive EventTreatment
  | regular
  | replaceable
  | ephemeral
  | parameterizedReplaceable
  deriving DecidableEq, Repr

def eventTreatment (kind : Nat) : EventTreatment :=
  if 20000 ≤ kind ∧ kind < 30000 then .ephemeral
  else if 10000 ≤ kind ∧ kind < 20000 ∨ kind = 0 ∨ kind = 3 then .replaceable
  else if 30000 ≤ kind ∧ kind < 40000 then .parameterizedReplaceable
  else .regular

/-! ## Rows -/

/-- A row of the `events` table. -/
structure EventRow where
  id : String
  pubkey : String
  createdAt : Nat
  kind : Nat
  tags : List Tag
  content : String
  sig : String
  dTag : String
  receivedAt : Nat
deriving DecidableEq, Repr

/-- The row that saving an event inserts. -/
def EventRow.ofEvent (event : NostrEvent) (now : Nat) : EventRow where
  id := event.id
  pubkey := event.pubkey
  createdAt := asF64 event.createdAt
  kind := asF64 event.kind
  tags := event.tags
  content := event.content
  sig := event.sig
  dTag := dTagValue event
  receivedAt := asF64 now

/-- A row of the `event_tags` table. -/
structure TagRow where
  eventId : String
  name : String
  value : String
deriving DecidableEq, Repr

/-! ## The triggers -/

/-- The trigger that writes the tag index after an insert: the one of the first
migration, or the one that took its place and leaves probes out. -/
inductive TagTrigger
  | original
  | probeBlind

namespace TagTrigger

/-- The names that a trigger indexes. -/
def indexes : TagTrigger → String → Bool
  | original, _ => true
  | probeBlind, name => name != "probe"

/-- The index row of one tag; a tag without a name has none, a missing value
counts as empty. -/
def tagRow (trigger : TagTrigger) (id : String) : Tag → Option TagRow
  | [] => none
  | name :: values =>
      if trigger.indexes name then some ⟨id, name, values.headD ""⟩ else none

/-- The index rows of an event row. -/
def tagRows (trigger : TagTrigger) (row : EventRow) : List TagRow :=
  row.tags.filterMap (trigger.tagRow row.id)

theorem mem_tagRows
    {trigger : TagTrigger}
    {row : EventRow}
    {entry : TagRow} :
    entry ∈ trigger.tagRows row ↔
      ∃ name values, name :: values ∈ row.tags ∧ trigger.indexes name ∧
        entry = ⟨row.id, name, values.headD ""⟩ := by
  unfold tagRows
  rw [List.mem_filterMap]
  constructor
  · rintro ⟨tag, member, written⟩
    cases tag with
    | nil => simp [tagRow] at written
    | cons name values =>
        simp only [tagRow] at written
        split at written
        · exact ⟨name, values, member, ‹_›, (Option.some.inj written).symm⟩
        · cases written
  · rintro ⟨name, values, member, indexed, rfl⟩
    exact ⟨name :: values, member, by simp [tagRow, indexed]⟩

theorem eventId_of_mem_tagRows
    {trigger : TagTrigger}
    {row : EventRow}
    {entry : TagRow}
    (written : entry ∈ trigger.tagRows row) :
    entry.eventId = row.id := by
  obtain ⟨name, values, -, -, rfl⟩ := mem_tagRows.mp written
  rfl

end TagTrigger

/-! ## The store -/

/-- The event table under its primary key, and the index that its triggers
keep: it holds the index rows of the held events and no others. -/
structure Store (trigger : TagTrigger) where
  events : List EventRow
  tags : List TagRow
  distinctIds : (events.map EventRow.id).Nodup
  indexed : ∀ entry, entry ∈ tags ↔ ∃ row ∈ events, entry ∈ trigger.tagRows row

namespace Store

variable {trigger : TagTrigger}

/-- A table without rows. -/
def empty : Store trigger where
  events := []
  tags := []
  distinctIds := List.nodup_nil
  indexed := by simp

/-- Two held rows with one id are the same row. -/
theorem eq_of_id
    (store : Store trigger)
    {first second : EventRow}
    (firstHeld : first ∈ store.events)
    (secondHeld : second ∈ store.events)
    (sameId : first.id = second.id) :
    first = second :=
  List.inj_on_of_nodup_map store.distinctIds firstHeld secondHeld sameId

/-! Inserting and deleting keep what the triggers maintain. -/

theorem distinctIds_append
    (store : Store trigger)
    {row : EventRow}
    (fresh : row.id ∉ store.events.map EventRow.id) :
    ((store.events ++ [row]).map EventRow.id).Nodup := by
  rw [List.map_append, List.map_singleton]
  apply List.nodup_append.mpr
  refine ⟨store.distinctIds, List.nodup_singleton _, ?_⟩
  intro id idHeld other isNew same
  rw [List.mem_singleton] at isNew
  rw [same, isNew] at idHeld
  exact fresh idHeld

theorem indexed_append
    (store : Store trigger)
    (row : EventRow)
    (entry : TagRow) :
    entry ∈ store.tags ++ trigger.tagRows row ↔
      ∃ held ∈ store.events ++ [row], entry ∈ trigger.tagRows held := by
  simp only [List.mem_append, store.indexed, List.mem_singleton]
  constructor
  · rintro (⟨old, oldHeld, written⟩ | written)
    · exact ⟨old, .inl oldHeld, written⟩
    · exact ⟨row, .inr rfl, written⟩
  · rintro ⟨old, oldHeld | rfl, written⟩
    · exact .inl ⟨old, oldHeld, written⟩
    · exact .inr written

/-- The index rows of the rows that a condition spares are those that no deleted
row owns. -/
theorem indexed_filter
    (store : Store trigger)
    (doomed : EventRow → Bool)
    (entry : TagRow) :
    entry ∈ store.tags.filter (fun entry =>
        !(store.events.any fun row => doomed row && row.id == entry.eventId)) ↔
      ∃ row ∈ store.events.filter (fun row => !doomed row),
        entry ∈ trigger.tagRows row := by
  simp only [List.mem_filter, store.indexed]
  constructor
  · rintro ⟨⟨row, held, written⟩, kept⟩
    have sameId := TagTrigger.eventId_of_mem_tagRows written
    have spared : ∀ other ∈ store.events,
        (doomed other && other.id == entry.eventId) = false := by
      simpa using kept
    have rowSpared : doomed row = false := by
      simpa [sameId] using spared row held
    exact ⟨row, ⟨held, by rw [rowSpared, Bool.not_false]⟩, written⟩
  · rintro ⟨row, ⟨held, kept⟩, written⟩
    have sameId := TagTrigger.eventId_of_mem_tagRows written
    refine ⟨⟨row, held, written⟩, ?_⟩
    rw [Bool.not_eq_true', List.any_eq_false]
    intro other otherHeld
    rw [Bool.and_eq_true, beq_iff_eq]
    rintro ⟨otherDoomed, otherId⟩
    have same : other = row := store.eq_of_id otherHeld held (otherId.trans sameId)
    rw [same] at otherDoomed
    simp [otherDoomed] at kept

/-- Inserting a row, unless its id is held. -/
def insert (store : Store trigger) (row : EventRow) : Store trigger :=
  if held : row.id ∈ store.events.map EventRow.id then store
  else
    { events := store.events ++ [row]
      tags := store.tags ++ trigger.tagRows row
      distinctIds := store.distinctIds_append held
      indexed := store.indexed_append row }

/-- Deleting the rows that a condition names; the index rows of each go with
it. -/
def deleteWhere (store : Store trigger) (doomed : EventRow → Bool) : Store trigger where
  events := store.events.filter fun row => !doomed row
  tags := store.tags.filter fun entry =>
    !(store.events.any fun row => doomed row && row.id == entry.eventId)
  distinctIds := store.distinctIds.sublist (List.filter_sublist.map _)
  indexed := store.indexed_filter doomed

theorem mem_insert
    {store : Store trigger}
    {row other : EventRow} :
    other ∈ (store.insert row).events ↔
      other ∈ store.events ∨ other = row ∧ row.id ∉ store.events.map EventRow.id := by
  unfold insert
  split
  · simp [*]
  · rename_i fresh
    simp [fresh]

theorem mem_deleteWhere
    {store : Store trigger}
    {doomed : EventRow → Bool}
    {row : EventRow} :
    row ∈ (store.deleteWhere doomed).events ↔ row ∈ store.events ∧ doomed row = false := by
  simp [deleteWhere, List.mem_filter]

/-! ## Saving -/

/-- The rows that saving a replaceable event removes: those of its author and
kind that are strictly older. -/
def supersededBy (event : NostrEvent) (row : EventRow) : Bool :=
  row.pubkey == event.pubkey && row.kind == asF64 event.kind &&
    decide (row.createdAt < asF64 event.createdAt)

/-- As above, for the rows of its `d` tag too. -/
def supersededByVersion (event : NostrEvent) (row : EventRow) : Bool :=
  row.pubkey == event.pubkey && row.kind == asF64 event.kind &&
    row.dTag == dTagValue event && decide (row.createdAt < asF64 event.createdAt)

/-- The store after an event is saved at a time. -/
def saveEvent
    (store : Store trigger)
    (event : NostrEvent)
    (treatment : EventTreatment)
    (now : Nat) : Store trigger :=
  match treatment with
  | .replaceable =>
      (store.deleteWhere (supersededBy event)).insert (EventRow.ofEvent event now)
  | .parameterizedReplaceable =>
      (store.deleteWhere (supersededByVersion event)).insert (EventRow.ofEvent event now)
  | .regular => store.insert (EventRow.ofEvent event now)
  | .ephemeral => store

end Store

/-- What the relay does to its event table. -/
inductive StoreOp
  | save (event : NostrEvent) (now : Nat)
  /-- Retention, author deletions, moderation and purges. -/
  | delete (doomed : EventRow → Bool)

def StoreOp.apply {trigger : TagTrigger} (store : Store trigger) : StoreOp → Store trigger
  | save event now => store.saveEvent event (eventTreatment event.kind) now
  | delete doomed => store.deleteWhere doomed

/-- The store after some operations on an empty one. -/
def storeAfter (trigger : TagTrigger) (operations : List StoreOp) : Store trigger :=
  Lib.run StoreOp.apply Store.empty operations

end Relay
end NostrBbs
