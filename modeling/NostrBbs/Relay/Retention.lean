import NostrBbs.Lib.Drain
import NostrBbs.Relay.Query

/-!
# The retention sweep

The sweep of the scheduled tick: it deletes the events whose kinds are kept for a
time only, once that is over, and then the events that the tag index says are past
their expiration.  Both phases delete in pages within one budget.  No other request
changes the table while a sweep runs, and its statements do not fail.
-/

namespace NostrBbs
namespace Relay

/-! ## The policy -/

/-- The kinds of a rule: those of a list, or those between two, the ends included. -/
inductive RetentionKinds
  | list (kinds : List Nat)
  | range (low high : Nat)
  deriving DecidableEq, Repr

def RetentionKinds.selects : RetentionKinds → Nat → Bool
  | list kinds, kind => kinds.contains kind
  | range low high, kind => low ≤ kind && kind ≤ high

/-- How long the events of some kinds are kept, in seconds; for good without a
time. -/
structure RetentionRule where
  kinds : RetentionKinds
  time : Option Nat
deriving DecidableEq, Repr

def retentionPolicy : List RetentionRule :=
  [⟨.list [0], none⟩,
    ⟨.list [3], none⟩,
    ⟨.list [1], some 7776000⟩,
    ⟨.list [7], some 2592000⟩,
    ⟨.list [9024], some 86400⟩,
    ⟨.range 10000 19999, none⟩,
    ⟨.range 30000 39999, none⟩]

/-- The time that the events of a kind are kept for, if not for good. -/
def retentionWindow (kind : Nat) : Option Nat :=
  (retentionPolicy.find? fun rule => rule.kinds.selects kind).bind RetentionRule.time

def retentionBatchSize : Nat := 200

instance : NeZero retentionBatchSize := ⟨by decide⟩

/-- The most rows that one sweep deletes. -/
def retentionMaxRows : Nat := 50000

/-! ## The last of the clock -/

/-- The last second that the clock of the runtime can tell. -/
def maxClock : Nat := 8640000000000

/-- A time that the clock can tell. -/
abbrev Clock := { now : Nat // now ≤ maxClock }

/-! ## Seconds in tags -/

/-- A text of decimal digits. -/
def isDecimal (text : String) : Bool :=
  text != "" && text.toList.all Char.isDigit

/-- The number that decimal digits spell. -/
def decimalValue (text : String) : Nat :=
  text.toList.foldl (fun value digit => 10 * value + (digit.toNat - 48)) 0

/-- `CAST(value AS INTEGER)` of decimal digits, which ends at the largest integer of
64 bits. -/
def castInteger (text : String) : Nat :=
  min (decimalValue text) (2 ^ 63 - 1)

/-- Digits are read as the number that they spell. -/
theorem parseUnsigned_of_isDecimal
    {bits : Nat}
    {text : String}
    (digits : isDecimal text) :
    parseUnsigned bits text =
      if decimalValue text < 2 ^ bits then some (decimalValue text) else none := by
  unfold isDecimal at digits
  rw [Bool.and_eq_true, bne_iff_ne, ne_eq] at digits
  obtain ⟨notEmpty, allDigits⟩ := digits
  have some : text.toList ≠ [] := fun empty => notEmpty (String.toList_eq_nil_iff.mp empty)
  have noPlus : ∀ rest, text.toList ≠ '+' :: rest := by
    intro rest spelled
    rw [spelled, List.all_cons] at allDigits
    exact absurd allDigits (by simp)
  unfold parseUnsigned decimalValue
  split
  · rename_i rest spelled
    exact absurd spelled (noPlus rest)
  · rw [if_neg (by simp [some, allDigits])]

/-! ## Queries -/

/-- What a phase of the sweep asks the database for. -/
inductive SweepQuery
  /-- The events of some kinds that were created before a time. -/
  | createdBefore (kinds : RetentionKinds) (cutoff : Int)
  /-- The events with an indexed expiration before a time. -/
  | expiredBefore (now : Nat)
  deriving DecidableEq

/-- The index rows of an expiration before a time. -/
def TagRow.isPastExpiration (now : Nat) (entry : TagRow) : Bool :=
  entry.name == "expiration" && isDecimal entry.value && castInteger entry.value < now

/-- The rows of some kinds that were created before a time. -/
def EventRow.isCreatedBefore (kinds : RetentionKinds) (cutoff : Int) (row : EventRow) : Bool :=
  kinds.selects row.kind && (row.createdAt : Int) < cutoff

namespace Store

variable {trigger : TagTrigger}

/-- Deleting the rows of a page of ids. -/
def deleteIds (ids : List String) (store : Store trigger) : Store trigger :=
  store.deleteWhere fun row => ids.contains row.id

theorem mem_deleteIds
    {store : Store trigger}
    {ids : List String}
    {row : EventRow} :
    row ∈ (store.deleteIds ids).events ↔ row ∈ store.events ∧ row.id ∉ ids := by
  rw [deleteIds, mem_deleteWhere, List.contains_eq_mem, decide_eq_false_iff_not]

/-- Of the index, a page takes the rows of its ids. -/
theorem mem_tags_deleteIds
    {store : Store trigger}
    {ids : List String}
    {entry : TagRow} :
    entry ∈ (store.deleteIds ids).tags ↔ entry ∈ store.tags ∧ entry.eventId ∉ ids := by
  rw [(store.deleteIds ids).indexed, store.indexed]
  constructor
  · rintro ⟨row, held, written⟩
    obtain ⟨rowHeld, kept⟩ := mem_deleteIds.mp held
    rw [TagTrigger.eventId_of_mem_tagRows written]
    exact ⟨⟨row, rowHeld, written⟩, kept⟩
  · rintro ⟨⟨row, rowHeld, written⟩, kept⟩
    rw [TagTrigger.eventId_of_mem_tagRows written] at kept
    exact ⟨row, mem_deleteIds.mpr ⟨rowHeld, kept⟩, written⟩

/-- Two stores with the same lists are the same. -/
theorem eq_of_lists
    {first second : Store trigger}
    (sameEvents : first.events = second.events)
    (sameTags : first.tags = second.tags) :
    first = second := by
  cases first
  cases second
  cases sameEvents
  cases sameTags
  rfl

theorem deletesInPages : Lib.DeletesInPages (@deleteIds trigger) where
  nil store := by
    apply eq_of_lists
    · simp [deleteIds, deleteWhere]
    · simp [deleteIds, deleteWhere]
  append first second store := by
    apply eq_of_lists
    · simp only [deleteIds, deleteWhere, List.filter_filter]
      apply List.filter_congr
      intro row _
      simp [List.contains_eq_mem, Bool.and_comm]
    · simp only [deleteIds, deleteWhere, List.filter_filter]
      apply List.filter_congr
      intro entry _
      -- a row that the first page spares and the second takes is not of the first
      rw [Bool.eq_iff_iff]
      simp only [Bool.not_eq_true', List.any_eq_false, List.any_filter, Bool.and_eq_true,
        beq_iff_eq, List.contains_eq_mem, decide_eq_true_eq, List.mem_append]
      grind

end Store

namespace SweepQuery

variable {trigger : TagTrigger}

/-- The ids that a query selects, each once. -/
def ids : SweepQuery → Store trigger → List String
  | createdBefore kinds cutoff, store =>
      (store.events.filter (EventRow.isCreatedBefore kinds cutoff)).map EventRow.id
  | expiredBefore now, store =>
      ((store.tags.filter (TagRow.isPastExpiration now)).map TagRow.eventId).dedup

theorem nodup_ids
    (query : SweepQuery)
    (store : Store trigger) :
    (query.ids store).Nodup := by
  cases query with
  | createdBefore kinds cutoff => exact store.distinctIds.sublist (List.filter_sublist.map _)
  | expiredBefore now => exact List.nodup_dedup _

theorem mem_createdBefore
    {kinds : RetentionKinds}
    {cutoff : Int}
    {store : Store trigger}
    {id : String} :
    id ∈ (createdBefore kinds cutoff).ids store ↔
      ∃ row ∈ store.events, row.isCreatedBefore kinds cutoff ∧ row.id = id := by
  simp [ids, and_assoc]

theorem mem_expiredBefore
    {now : Nat}
    {store : Store trigger}
    {id : String} :
    id ∈ (expiredBefore now).ids store ↔
      ∃ entry ∈ store.tags, entry.isPastExpiration now ∧ entry.eventId = id := by
  simp [ids, and_assoc]

/-- Deleting a page takes its ids out of what a query selects. -/
theorem mem_ids_deleteIds
    (query : SweepQuery)
    (page : List String)
    (store : Store trigger)
    (id : String) :
    id ∈ query.ids (store.deleteIds page) ↔ id ∈ query.ids store ∧ id ∉ page := by
  cases query with
  | createdBefore kinds cutoff =>
      simp only [mem_createdBefore, Store.mem_deleteIds]
      grind
  | expiredBefore now =>
      simp only [mem_expiredBefore, Store.mem_tags_deleteIds]
      grind

end SweepQuery

/-- The order in which the database returns the ids of a query, which no query of the
sweep asks for. -/
structure PageOrder where
  order : SweepQuery → List String → List String
  perm : ∀ query ids, (order query ids).Perm ids

/-- A query as a listing whose pages the sweep deletes. -/
def PageOrder.listing {trigger : TagTrigger} (pages : PageOrder) (query : SweepQuery) :
    Lib.Listing (@Store.deleteIds trigger) where
  ids store := pages.order query (query.ids store)
  nodup store := (pages.perm query _).nodup_iff.mpr (query.nodup_ids store)
  mem_delete page store id := by
    rw [(pages.perm query _).mem_iff, (pages.perm query _).mem_iff]
    exact query.mem_ids_deleteIds page store id

/-! ## The sweep -/

/-- The numbers that a sweep reports. -/
structure RetentionSweepResult where
  retentionDeleted : Nat
  expiredDeleted : Nat
  truncated : Bool
deriving DecidableEq, Repr

/-- What a sweep did: the ids that each of its phases deleted, whether its budget
ended it, and the store that it left. -/
structure Sweep (trigger : TagTrigger) where
  retentionIds : List String
  expiredIds : List String
  truncated : Bool
  store : Store trigger

def Sweep.result {trigger : TagTrigger} (sweep : Sweep trigger) : RetentionSweepResult where
  retentionDeleted := sweep.retentionIds.length
  expiredDeleted := sweep.expiredIds.length
  truncated := sweep.truncated

/-- The queries of the first phase: one for each rule with a time. -/
def windowQueries (now : Nat) : List SweepQuery :=
  retentionPolicy.filterMap fun rule =>
    rule.time.map fun window => .createdBefore rule.kinds (now - window)

def Store.sweepRetention {trigger : TagTrigger} (store : Store trigger) (pages : PageOrder)
    (now : Nat) : Sweep trigger :=
  let windows := Lib.drainAll retentionBatchSize ((windowQueries now).map pages.listing)
    retentionMaxRows store
  if windows.truncated then ⟨windows.taken, [], true, windows.store⟩
  else
    let expired := Lib.drain retentionBatchSize (pages.listing (.expiredBefore now))
      windows.left windows.store
    ⟨windows.taken, expired.taken, expired.truncated, expired.store⟩

end Relay
end NostrBbs
