import NostrBbs.Relay.Sealed
import NostrBbs.Relay.StoredMatch

/-!
# The query of a frame

The rows that REQ and COUNT read: one query for each filter of a frame, newest
first within the filter's limit, and what is left of them once the expired
events are passed over.  The order of the rows of one second is the database's.
-/

namespace NostrBbs
namespace Relay

/-! ## Rows and events -/

/-- The event that a row reads back as. -/
def EventRow.intoNostrEvent (row : EventRow) : NostrEvent where
  id := row.id
  pubkey := row.pubkey
  createdAt := row.createdAt
  kind := row.kind
  tags := row.tags
  content := row.content
  sig := row.sig

@[simp] theorem id_intoNostrEvent (row : EventRow) :
    row.intoNostrEvent.id = row.id :=
  rfl

/-- NIP-40: an event is past its expiration. -/
def isExpired (event : NostrEvent) (now : Nat) : Bool :=
  ((tagValue event "expiration").bind (parseUnsigned 64)).any fun expires => expires < now

/-! ## Order and limits -/

/-- `ORDER BY created_at DESC`, which leaves the order within a second open. -/
structure RowOrder where
  order : List EventRow → List EventRow
  perm : ∀ rows, (order rows).Perm rows
  newestFirst : ∀ rows,
    (order rows).Pairwise fun first second => second.createdAt ≤ first.createdAt

/-- The most rows that one filter may read. -/
def maxQueryLimit : Nat := 1000

/-- The most filters of a frame. -/
def maxFilters : Nat := 10

/-- The most rows that a frame may read. -/
def maxRowsPerFrame : Nat :=
  maxFilters * maxQueryLimit

/-- The rows that a filter's own limit allows. -/
def ownLimit (limit : Option Nat) : Nat :=
  min (limit.getD 500) maxQueryLimit

/-- The rows that a filter may read out of what is left for the frame. -/
def rowLimit (limit : Option Nat) (rowsBudget : Nat) : Nat :=
  min (ownLimit limit) rowsBudget

namespace Store

variable {trigger : TagTrigger} (store : Store trigger) (order : RowOrder)

/-- The rows that the query of one filter returns. -/
def queryRows (filter : NostrFilter) (limit : Nat) : List EventRow :=
  (order.order (selectedRows store filter limit)).take limit

/-- The rows that the queries of a frame return, one filter after the other. -/
def frameRows : Nat → List (NostrFilter × Option Nat) → List EventRow
  | _, [] => []
  | rowsBudget, (filter, limit) :: rest =>
      if rowsBudget = 0 then []
      else
        let rows := rowLimit limit rowsBudget
        store.queryRows order filter rows ++ frameRows (rowsBudget - rows) rest

/-- The events that a frame reads. -/
def queryEvents (now : Nat) (filters : List (NostrFilter × Option Nat)) : List NostrEvent :=
  ((store.frameRows order maxRowsPerFrame filters).map EventRow.intoNostrEvent).filter
    fun event => !isExpired event now

end Store

/-! ## What one query returns -/

section

variable {trigger : TagTrigger} {store : Store trigger} {order : RowOrder}
  {filter : NostrFilter} {limit : Nat} {row : EventRow}

/-- The rows that a filter finds in the store, before its limit cuts them. -/
def Store.foundRows (store : Store trigger) (asked : NostrFilter × Option Nat) : List EventRow :=
  selectedRows store asked.1 (ownLimit asked.2)

theorem mem_events_of_selected
    (selected : row ∈ selectedRows store filter limit) :
    row ∈ store.events := by
  unfold selectedRows Builder.rowsWhere at selected
  dsimp only at selected
  split at selected
  · exact List.mem_of_mem_filter selected
  · obtain ⟨id, -, kept⟩ := List.mem_flatMap.mp selected
    exact List.mem_of_mem_filter (List.mem_of_mem_filter kept)

theorem mem_events_of_frameRows
    {rowsBudget : Nat}
    {filters : List (NostrFilter × Option Nat)} :
    store.frameRows order rowsBudget filters ⊆ store.events := by
  intro row read
  induction filters generalizing rowsBudget with
  | nil => cases read
  | cons asked filters inductionHypothesis =>
      unfold Store.frameRows at read
      dsimp only at read
      split at read
      · cases read
      · rcases List.mem_append.mp read with here | there
        · exact mem_events_of_selected ((order.perm _).mem_iff.mp (List.mem_of_mem_take here))
        · exact inductionHypothesis there

/-- A query selects no row twice: the driving subquery has each id once. -/
theorem nodup_selectedRows
    (store : Store trigger)
    (filter : NostrFilter)
    (limit : Nat) :
    (selectedRows store filter limit).Nodup := by
  have distinct : store.events.Nodup := List.Nodup.of_map _ store.distinctIds
  unfold selectedRows Builder.rowsWhere
  dsimp only
  split
  · exact distinct.filter _
  · rename_i driver isDriver
    apply List.nodup_flatMap.mpr
    refine ⟨fun id _ => (distinct.filter _).filter _, ?_⟩
    apply List.Pairwise.imp _ (List.nodup_dedup _)
    intro first second different row ofFirst ofSecond
    have firstId := (List.mem_filter.mp ofFirst).2
    have secondId := (List.mem_filter.mp ofSecond).2
    rw [beq_iff_eq] at firstId secondId
    exact different (firstId.symm.trans secondId)

/-- Within its limit a query returns every row that it selects, once. -/
theorem queryRows_perm
    (within : (selectedRows store filter limit).length ≤ limit) :
    (store.queryRows order filter limit).Perm (selectedRows store filter limit) := by
  have ordered := order.perm (selectedRows store filter limit)
  unfold Store.queryRows
  rw [List.take_of_length_le (by rw [ordered.length_eq]; exact within)]
  exact ordered

theorem mem_queryRows
    (read : row ∈ store.queryRows order filter limit) :
    row ∈ selectedRows store filter limit :=
  (order.perm _).mem_iff.mp (List.mem_of_mem_take read)

theorem nodup_queryRows :
    (store.queryRows order filter limit).Nodup :=
  List.Nodup.sublist (List.take_sublist _ _)
    ((order.perm _).nodup_iff.mpr (nodup_selectedRows store filter limit))

/-- A selected row that a query does not return is no newer than those it does,
and the limit is reached. -/
theorem newest_queryRows
    (selected : row ∈ selectedRows store filter limit)
    (leftOut : row ∉ store.queryRows order filter limit) :
    (store.queryRows order filter limit).length = limit ∧
      ∀ other ∈ store.queryRows order filter limit, row.createdAt ≤ other.createdAt := by
  have ordered := order.newestFirst (selectedRows store filter limit)
  have isOrdered : row ∈ order.order (selectedRows store filter limit) :=
    (order.perm _).mem_iff.mpr selected
  rw [← List.take_append_drop limit (order.order (selectedRows store filter limit)),
    List.mem_append] at isOrdered
  have dropped := isOrdered.resolve_left leftOut
  rw [← List.take_append_drop limit (order.order (selectedRows store filter limit)),
    List.pairwise_append] at ordered
  constructor
  · have some := List.length_pos_of_mem dropped
    unfold Store.queryRows
    rw [List.length_drop] at some
    rw [List.length_take]
    omega
  · intro other read
    exact ordered.2.2 other read row dropped

/-- The filters that a frame may have never exhaust its rows: each is cut by its
own limit alone. -/
theorem frameRows_eq
    {filters : List (NostrFilter × Option Nat)}
    {rowsBudget : Nat}
    (enough : filters.length * maxQueryLimit ≤ rowsBudget) :
    store.frameRows order rowsBudget filters =
      filters.flatMap fun asked => store.queryRows order asked.1 (ownLimit asked.2) := by
  induction filters generalizing rowsBudget with
  | nil => rfl
  | cons asked filters inductionHypothesis =>
      have capped : ownLimit asked.2 ≤ maxQueryLimit := Nat.min_le_right _ _
      have positive : 0 < maxQueryLimit := by decide
      rw [List.length_cons, Nat.add_mul, Nat.one_mul] at enough
      have own : rowLimit asked.2 rowsBudget = ownLimit asked.2 := by
        apply Nat.min_eq_left
        omega
      unfold Store.frameRows
      dsimp only
      rw [if_neg (by omega), own, List.flatMap_cons, inductionHypothesis (by omega)]

/-- A frame whose filters stay within their limits reads what they find. -/
theorem frameRows_perm
    {filters : List (NostrFilter × Option Nat)}
    (few : filters.length ≤ maxFilters)
    (within : ∀ asked ∈ filters, (store.foundRows asked).length ≤ ownLimit asked.2) :
    (store.frameRows order maxRowsPerFrame filters).Perm
      (filters.flatMap store.foundRows) := by
  have enough : filters.length * maxQueryLimit ≤ maxRowsPerFrame :=
    Nat.mul_le_mul_right _ few
  rw [frameRows_eq enough]
  apply List.Perm.flatMap_left
  intro asked isAsked
  exact queryRows_perm (within asked isAsked)

end

/-! ## The upper bound of a filter -/

section

variable {trigger : TagTrigger} {store : Store trigger} {tags : List TagRow} {row : EventRow}

/-- An unnamed entry of a filter selects a row by the tag index. -/
def EntryIndexed (tags : List TagRow) (row : EventRow) (entry : String × JsonValue) : Prop :=
  match tagFilterPlan entry.1 entry.2 with
  | .ignore => True
  | .matchNothing => False
  | .values name required => ∃ indexed ∈ tags, indexed.eventId = row.id ∧
      indexed.name = name ∧ indexed.value ∈ required

theorem means_indexedEntries
    {builder : Builder}
    {meaning : Prop}
    (means : builder.Means tags row meaning)
    (entries : List (String × JsonValue)) :
    (entries.foldl Builder.addEntry builder).Means tags row
      (meaning ∧ ∀ entry ∈ entries, EntryIndexed tags row entry) := by
  induction entries generalizing builder meaning with
  | nil =>
      exact means.congr (by simp)
  | cons entry entries inductionHypothesis =>
      have here : (builder.addEntry entry).Means tags row
          (meaning ∧ EntryIndexed tags row entry) := by
        unfold Builder.addEntry EntryIndexed
        cases tagFilterPlan entry.1 entry.2 with
        | ignore => exact means.congr (by simp)
        | matchNothing => exact means.never
        | values name required => exact means.addTag name required
      exact (inductionHypothesis here).congr (by simp [and_assoc])

/-- The upper bound of a filter is one condition beside the others. -/
theorem exists_means_until
    (filter : NostrFilter)
    (tags : List TagRow)
    (row : EventRow) :
    ∃ rest : Prop, ∀ bound, (buildFilterConditions { filter with «until» := bound }
      Builder.start).Means tags row (rest ∧ ∀ last, bound = some last →
        row.createdAt ≤ asF64 last) := by
  refine ⟨(((True ∧ (filter.ids.map (List.map SqlValue.text)).all
        fun values => values.contains (row.column .id)) ∧
      (filter.authors.map (List.map SqlValue.text)).all
        fun values => values.contains (row.column .pubkey)) ∧
      (filter.kinds.map (List.map fun kind => SqlValue.number (asF64 kind))).all
        fun values => values.contains (row.column .kind)) ∧
      (filter.since.map fun since => SqlValue.number (asF64 since)).all
        (fun bound => bound.atMost (.number row.createdAt)) ∧
      (∀ entry ∈ filter.extra.entries, EntryIndexed tags row entry) ∧
      ((searchTerm filter).map fun term => SqlValue.text (likePattern term)).all
        fun pattern => pattern.like row.content, ?_⟩
  intro bound
  have started : Builder.start.Means tags row True := Builder.means_start
  have listed := ((started.addAmong .id (filter.ids.map (List.map .text))).addAmong
    .pubkey (filter.authors.map (List.map .text))).addAmong
    .kind (filter.kinds.map (List.map fun kind => .number (asF64 kind)))
  have since := listed.addBound .createdFrom
    (filter.since.map fun since => .number (asF64 since)) fun _ _ => rfl
  have bounded := since.addBound .createdUntil
    (bound.map fun last => .number (asF64 last)) fun _ _ => rfl
  have tagged := means_indexedEntries bounded filter.extra.entries
  have searched := tagged.addBound .contentLike
    ((searchTerm filter).map fun term => .text (likePattern term)) fun _ _ => rfl
  apply searched.congr
  have last : (bound.map fun last => SqlValue.number (asF64 last)).all
      (fun bound => (SqlValue.number row.createdAt).atMost bound) ↔
        ∀ last, bound = some last → row.createdAt ≤ asF64 last := by
    cases bound <;> simp [SqlValue.atMost]
  rw [last]
  tauto

/-- A row is selected under an upper bound when it is selected without one and its
time is within the bound. -/
theorem mem_selectedRows_until
    {filter : NostrFilter}
    {bound : Option Nat}
    {limit : Nat}
    (other : Nat)
    (held : row ∈ store.events) :
    row ∈ selectedRows store { filter with «until» := bound } limit ↔
      row ∈ selectedRows store { filter with «until» := none } other ∧
        ∀ last, bound = some last → row.createdAt ≤ asF64 last := by
  obtain ⟨rest, means⟩ := exists_means_until filter store.tags row
  rw [mem_selectedRows held, mem_selectedRows held]
  dsimp only
  rw [(means bound).selects, (means none).selects]
  simp

/-- A bound is exact for times that are. -/
theorem le_asF64_iff
    {time last : Nat}
    (exact : time < 2 ^ 53) :
    time ≤ asF64 last ↔ time ≤ last := by
  by_cases small : last < 2 ^ 53
  · rw [asF64_of_lt small]
  · have rounded : asF64 (2 ^ 53 - 1) ≤ asF64 last := by
      apply Lib.roundTo_mono (by decide)
      omega
    rw [asF64_of_lt (by decide)] at rounded
    omega

end

end Relay
end NostrBbs
