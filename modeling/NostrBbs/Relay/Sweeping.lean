import NostrBbs.Relay.Backdating
import NostrBbs.Relay.Retention

/-!
# Expiry at reading and at sweeping

When the sweep deletes an accepted event: on retention grounds once the time of its
kind is over, and for its expiration once any of its expiration tags is past.  Reading
looks at the first of these tags only, so the two agree on the events whose later tags
never come first.
-/

namespace NostrBbs
namespace Relay

variable {trigger : TagTrigger} {store : Store trigger} {pages : PageOrder} {now : Nat}

/-! ## What a sweep deletes -/

section Phases

variable (store pages now)

/-- What the first phase does. -/
def Store.sweepWindows : Lib.Drained (Store trigger) String :=
  Lib.drainAll retentionBatchSize ((windowQueries now).map pages.listing) retentionMaxRows store

/-- What the second phase does once the first is complete. -/
def Store.sweepExpired : Lib.Drained (Store trigger) String :=
  Lib.drain retentionBatchSize (pages.listing (.expiredBefore now))
    (store.sweepWindows pages now).left (store.sweepWindows pages now).store

variable {store pages now}

theorem sweepRetention_of_truncated
    (cutShort : (store.sweepWindows pages now).truncated) :
    store.sweepRetention pages now =
      ⟨(store.sweepWindows pages now).taken, [], true, (store.sweepWindows pages now).store⟩ :=
  if_pos cutShort

theorem sweepRetention_of_complete
    (complete : (store.sweepWindows pages now).truncated = false) :
    store.sweepRetention pages now =
      ⟨(store.sweepWindows pages now).taken, (store.sweepExpired pages now).taken,
        (store.sweepExpired pages now).truncated, (store.sweepExpired pages now).store⟩ :=
  if_neg (by rw [← Store.sweepWindows, complete]; exact Bool.false_ne_true)

theorem retentionIds_sweepRetention :
    (store.sweepRetention pages now).retentionIds = (store.sweepWindows pages now).taken := by
  cases cutShort : (store.sweepWindows pages now).truncated with
  | true => rw [sweepRetention_of_truncated cutShort]
  | false => rw [sweepRetention_of_complete cutShort]

/-- A sweep that is not cut short completed its first phase. -/
theorem windows_complete
    (complete : (store.sweepRetention pages now).truncated = false) :
    (store.sweepWindows pages now).truncated = false := by
  by_contra cutShort
  rw [sweepRetention_of_truncated (eq_true_of_ne_false cutShort)] at complete
  cases complete

/-- A sweep deletes at most so many rows, and it is cut short only once it has
deleted so many. -/
theorem length_sweepRetention :
    (store.sweepRetention pages now).retentionIds.length +
        (store.sweepRetention pages now).expiredIds.length ≤ retentionMaxRows ∧
      ((store.sweepRetention pages now).truncated →
        (store.sweepRetention pages now).retentionIds.length +
          (store.sweepRetention pages now).expiredIds.length = retentionMaxRows) := by
  have windows : (store.sweepWindows pages now).taken.length +
      (store.sweepWindows pages now).left = retentionMaxRows :=
    Lib.drainAll_taken_add_left
  have expired : (store.sweepExpired pages now).taken.length +
      (store.sweepExpired pages now).left = (store.sweepWindows pages now).left :=
    Lib.drain_taken_add_left
  cases cutShort : (store.sweepWindows pages now).truncated with
  | true =>
      have nothingLeft : (store.sweepWindows pages now).left = 0 :=
        Lib.drainAll_left_of_truncated cutShort
      rw [sweepRetention_of_truncated cutShort]
      dsimp only
      rw [List.length_nil]
      omega
  | false =>
      rw [sweepRetention_of_complete cutShort]
      dsimp only
      refine ⟨by omega, ?_⟩
      intro expiredCutShort
      have nothingLeft : (store.sweepExpired pages now).left = 0 :=
        Lib.drain_left_of_truncated expiredCutShort
      omega

/-- The store after a sweep is without what the two phases deleted. -/
theorem store_sweepRetention :
    (store.sweepRetention pages now).store =
      store.deleteIds ((store.sweepRetention pages now).retentionIds ++
        (store.sweepRetention pages now).expiredIds) := by
  have windows : (store.sweepWindows pages now).store =
      store.deleteIds (store.sweepWindows pages now).taken :=
    Lib.store_drainAll Store.deletesInPages
  have expired : (store.sweepExpired pages now).store =
      (store.sweepWindows pages now).store.deleteIds (store.sweepExpired pages now).taken :=
    Lib.store_drain Store.deletesInPages
  cases cutShort : (store.sweepWindows pages now).truncated with
  | true =>
      rw [sweepRetention_of_truncated cutShort]
      dsimp only
      rw [List.append_nil]
      exact windows
  | false =>
      rw [sweepRetention_of_complete cutShort]
      dsimp only
      rw [Store.deletesInPages.append, ← windows]
      exact expired

/-- What the first phase deletes, a rule with a time selects. -/
theorem mem_windowQueries_of_retentionIds
    {id : String}
    (deleted : id ∈ (store.sweepRetention pages now).retentionIds) :
    ∃ query ∈ windowQueries now, id ∈ query.ids store := by
  rw [retentionIds_sweepRetention] at deleted
  obtain ⟨listing, isListing, listed⟩ :=
    Lib.mem_ids_of_drainAll Store.deletesInPages deleted
  obtain ⟨query, isQuery, rfl⟩ := List.mem_map.mp isListing
  exact ⟨query, isQuery, (pages.perm query _).mem_iff.mp listed⟩

theorem mem_retentionIds
    {id : String}
    {query : SweepQuery}
    (complete : (store.sweepWindows pages now).truncated = false)
    (isQuery : query ∈ windowQueries now)
    (selected : id ∈ query.ids store) :
    id ∈ (store.sweepRetention pages now).retentionIds := by
  rw [retentionIds_sweepRetention]
  exact Lib.mem_drainAll_of_ids Store.deletesInPages complete
    (List.mem_map_of_mem isQuery) ((pages.perm query _).mem_iff.mpr selected)

/-- The second phase deletes nothing unless the first is complete. -/
theorem windows_complete_of_expiredIds
    {id : String}
    (deleted : id ∈ (store.sweepRetention pages now).expiredIds) :
    (store.sweepWindows pages now).truncated = false := by
  by_contra cutShort
  rw [sweepRetention_of_truncated (eq_true_of_ne_false cutShort)] at deleted
  cases deleted

/-- What the second phase deletes is past an indexed expiration, and the first phase
did not delete it. -/
theorem mem_expiredBefore_of_expiredIds
    {id : String}
    (deleted : id ∈ (store.sweepRetention pages now).expiredIds) :
    id ∈ (SweepQuery.expiredBefore now).ids store ∧
      id ∉ (store.sweepRetention pages now).retentionIds := by
  have complete := windows_complete_of_expiredIds deleted
  rw [sweepRetention_of_complete complete] at deleted
  have listed := (pages.perm _ _).mem_iff.mp (Lib.mem_ids_of_drain deleted)
  have windows : (store.sweepWindows pages now).store =
      store.deleteIds (store.sweepWindows pages now).taken :=
    Lib.store_drainAll Store.deletesInPages
  rw [windows, SweepQuery.mem_ids_deleteIds] at listed
  rw [retentionIds_sweepRetention]
  exact listed

theorem mem_expiredIds
    {id : String}
    (complete : (store.sweepRetention pages now).truncated = false)
    (selected : id ∈ (SweepQuery.expiredBefore now).ids store)
    (spared : id ∉ (store.sweepRetention pages now).retentionIds) :
    id ∈ (store.sweepRetention pages now).expiredIds := by
  have windowsComplete := windows_complete complete
  rw [retentionIds_sweepRetention] at spared
  rw [sweepRetention_of_complete windowsComplete] at complete ⊢
  have windows : (store.sweepWindows pages now).store =
      store.deleteIds (store.sweepWindows pages now).taken :=
    Lib.store_drainAll Store.deletesInPages
  apply Lib.mem_drain_of_ids complete
  apply (pages.perm _ _).mem_iff.mpr
  rw [windows, SweepQuery.mem_ids_deleteIds]
  exact ⟨selected, spared⟩

/-- No row is deleted twice. -/
theorem nodup_sweepRetention :
    ((store.sweepRetention pages now).retentionIds ++
      (store.sweepRetention pages now).expiredIds).Nodup := by
  have windows : (store.sweepWindows pages now).taken.Nodup :=
    Lib.nodup_drainAll Store.deletesInPages
  have expired : (store.sweepRetention pages now).expiredIds.Nodup := by
    cases cutShort : (store.sweepWindows pages now).truncated with
    | true =>
        rw [sweepRetention_of_truncated cutShort]
        exact List.nodup_nil
    | false =>
        rw [sweepRetention_of_complete cutShort]
        exact Lib.nodup_drain
  apply List.nodup_append.mpr
  refine ⟨retentionIds_sweepRetention ▸ windows, expired, ?_⟩
  intro id first other second same
  rw [same] at first
  exact (mem_expiredBefore_of_expiredIds second).2 first

/-- What a query selects is in the table. -/
theorem SweepQuery.ids_subset
    (query : SweepQuery) :
    query.ids store ⊆ store.events.map EventRow.id := by
  intro id selected
  cases query with
  | createdBefore kinds cutoff =>
      obtain ⟨row, held, -, rfl⟩ := mem_createdBefore.mp selected
      exact List.mem_map_of_mem held
  | expiredBefore now =>
      obtain ⟨entry, indexed, -, rfl⟩ := mem_expiredBefore.mp selected
      obtain ⟨row, held, written⟩ := (store.indexed entry).mp indexed
      rw [TagTrigger.eventId_of_mem_tagRows written]
      exact List.mem_map_of_mem held

/-- A sweep of fewer rows than its budget is not cut short. -/
theorem complete_of_few
    (few : store.events.length < retentionMaxRows) :
    (store.sweepRetention pages now).truncated = false := by
  by_contra cutShort
  have spent := length_sweepRetention.2 (eq_true_of_ne_false cutShort)
  have held : (store.sweepRetention pages now).retentionIds ++
      (store.sweepRetention pages now).expiredIds ⊆ store.events.map EventRow.id := by
    intro id deleted
    rcases List.mem_append.mp deleted with first | second
    · obtain ⟨query, -, selected⟩ := mem_windowQueries_of_retentionIds first
      exact query.ids_subset selected
    · exact SweepQuery.ids_subset _ (mem_expiredBefore_of_expiredIds second).1
  have bounded := (nodup_sweepRetention.subperm held).length_le
  rw [List.length_append, List.length_map] at bounded
  omega

end Phases

/-! ## When the time of a kind is over -/

/-- The time that an event is kept for is over. -/
def RetentionPassed (event : NostrEvent) (now : Nat) : Prop :=
  ∃ window, retentionWindow event.kind = some window ∧ event.createdAt + window < now

theorem asF64_eq_iff
    {number small : Nat}
    (exact : small < 2 ^ 53) :
    asF64 number = small ↔ number = small := by
  rcases Nat.lt_or_ge number (2 ^ 53) with alsoExact | large
  · rw [asF64_of_lt alsoExact]
  · have rounded : Lib.roundTo 53 (2 ^ 53) ≤ asF64 number := Lib.roundTo_mono (by decide) large
    have unit : Lib.roundTo 53 (2 ^ 53) = 2 ^ 53 := by decide +kernel
    rw [unit] at rounded
    omega

/-- The kinds that are kept for a time only. -/
theorem retentionWindow_eq_some_iff
    {kind window : Nat} :
    retentionWindow kind = some window ↔
      kind = 1 ∧ window = 7776000 ∨ kind = 7 ∧ window = 2592000 ∨
        kind = 9024 ∧ window = 86400 := by
  by_cases timed : kind = 1 ∨ kind = 7 ∨ kind = 9024
  · rcases timed with rfl | rfl | rfl <;>
      simp [retentionWindow, retentionPolicy, RetentionKinds.selects, eq_comm]
  · have kept : ∀ rule ∈ retentionPolicy, rule.kinds.selects kind → rule.time = none := by
      simp only [retentionPolicy, List.forall_mem_cons, RetentionKinds.selects,
        List.contains_eq_mem, List.mem_singleton, decide_eq_true_eq]
      grind
    have unlimited : retentionWindow kind = none := by
      rw [retentionWindow, Option.bind_eq_none_iff]
      intro rule found
      have selected : rule.kinds.selects kind := by
        simpa using List.find?_some found
      exact kept rule (List.mem_of_find?_eq_some found) selected
    rw [unlimited]
    constructor
    · intro limited
      cases limited
    · rintro (⟨isKind, -⟩ | ⟨isKind, -⟩ | ⟨isKind, -⟩)
      · exact absurd (.inl isKind) timed
      · exact absurd (.inr (.inl isKind)) timed
      · exact absurd (.inr (.inr isKind)) timed

theorem windowQueries_eq (now : Nat) :
    windowQueries now =
      [.createdBefore (.list [1]) (now - 7776000), .createdBefore (.list [7]) (now - 2592000),
        .createdBefore (.list [9024]) (now - 86400)] :=
  rfl

/-- The first phase selects an event exactly when its time is over. -/
theorem mem_windowQueries_iff
    {event : NostrEvent}
    {saved : Nat}
    (recent : event.createdAt < 2 ^ 53)
    (held : EventRow.ofEvent event saved ∈ store.events) :
    (∃ query ∈ windowQueries now, event.id ∈ query.ids store) ↔ RetentionPassed event now := by
  have selects : ∀ kind cutoff, kind < 2 ^ 53 →
      (event.id ∈ (SweepQuery.createdBefore (.list [kind]) cutoff).ids store ↔
        event.kind = kind ∧ (event.createdAt : Int) < cutoff) := by
    intro kind cutoff small
    rw [SweepQuery.mem_createdBefore, ← asF64_eq_iff small]
    have own : (EventRow.ofEvent event saved).isCreatedBefore (.list [kind]) cutoff ↔
        asF64 event.kind = kind ∧ (event.createdAt : Int) < cutoff := by
      simp [EventRow.isCreatedBefore, RetentionKinds.selects, EventRow.ofEvent,
        asF64_of_lt recent]
    constructor
    · rintro ⟨row, rowHeld, before, sameId⟩
      rw [store.eq_of_id rowHeld held sameId] at before
      exact own.mp before
    · exact fun before => ⟨_, held, own.mpr before, rfl⟩
  unfold RetentionPassed
  simp only [windowQueries_eq, List.mem_cons, List.not_mem_nil, or_false, exists_eq_or_imp,
    exists_eq_left, retentionWindow_eq_some_iff]
  rw [selects _ _ (by decide), selects _ _ (by decide), selects _ _ (by decide)]
  constructor
  · rintro (⟨isKind, before⟩ | ⟨isKind, before⟩ | ⟨isKind, before⟩)
    · exact ⟨_, .inl ⟨isKind, rfl⟩, by omega⟩
    · exact ⟨_, .inr (.inl ⟨isKind, rfl⟩), by omega⟩
    · exact ⟨_, .inr (.inr ⟨isKind, rfl⟩), by omega⟩
  · rintro ⟨window, ⟨isKind, rfl⟩ | ⟨isKind, rfl⟩ | ⟨isKind, rfl⟩, passed⟩
    · exact .inl ⟨isKind, by omega⟩
    · exact .inr (.inl ⟨isKind, by omega⟩)
    · exact .inr (.inr ⟨isKind, by omega⟩)

/-- The last second at which an event is still kept, as far as the clock can tell. -/
def keptUntil (event : NostrEvent) : Nat :=
  match retentionWindow event.kind with
  | some window => min maxClock (event.createdAt + window)
  | none => maxClock

theorem le_keptUntil_iff
    {event : NostrEvent} :
    now ≤ keptUntil event ↔ now ≤ maxClock ∧ ¬RetentionPassed event now := by
  unfold keptUntil RetentionPassed
  cases retentionWindow event.kind with
  | none => simp
  | some window =>
      simp only [Option.some.injEq, exists_eq_left', Nat.le_min, Nat.not_lt]

/-! ## When an expiration is past -/

/-- The seconds that a tag names as an expiration in decimal digits. -/
def expirationSeconds : Tag → Option Nat
  | [] => none
  | name :: values =>
      if name = "expiration" ∧ isDecimal (values.headD "") then
        some (decimalValue (values.headD ""))
      else none

/-- The seconds that the expiration tags of an event name. -/
def expirations (event : NostrEvent) : List Nat :=
  event.tags.filterMap expirationSeconds

/-- The expiration that reading an event looks at. -/
def firstExpiration (event : NostrEvent) : Option Nat :=
  (tagValue event "expiration").bind (parseUnsigned 64)

theorem isExpired_iff
    {event : NostrEvent} :
    isExpired event now ↔ ∃ first, firstExpiration event = some first ∧ first < now := by
  rw [isExpired, ← firstExpiration]
  cases firstExpiration event <;> simp

theorem mem_expirations
    {event : NostrEvent}
    {second : Nat} :
    second ∈ expirations event ↔
      ∃ values, "expiration" :: values ∈ event.tags ∧ isDecimal (values.headD "") ∧
        decimalValue (values.headD "") = second := by
  unfold expirations
  rw [List.mem_filterMap]
  constructor
  · rintro ⟨tag, member, named⟩
    cases tag with
    | nil => cases named
    | cons name values =>
        rw [expirationSeconds] at named
        split at named
        · rename_i isExpiration
          obtain ⟨rfl, digits⟩ := isExpiration
          exact ⟨values, member, digits, Option.some.inj named⟩
        · cases named
  · rintro ⟨values, member, digits, rfl⟩
    exact ⟨_, member, if_pos ⟨rfl, digits⟩⟩

/-- The index makes an event a candidate of the second phase as soon as one of its
expirations is past. -/
theorem mem_expiredBefore_iff
    {event : NostrEvent}
    {saved : Nat}
    (told : now ≤ maxClock)
    (held : EventRow.ofEvent event saved ∈ store.events) :
    event.id ∈ (SweepQuery.expiredBefore now).ids store ↔
      ∃ second ∈ expirations event, second < now := by
  have largest : maxClock < 2 ^ 63 - 1 := by decide
  have cast_lt : ∀ text, castInteger text < now ↔ decimalValue text < now := by
    intro text
    rw [castInteger]
    omega
  have past : ∀ entry : TagRow, entry.isPastExpiration now ↔
      entry.name = "expiration" ∧ isDecimal entry.value ∧ decimalValue entry.value < now := by
    intro entry
    rw [TagRow.isPastExpiration, Bool.and_eq_true, Bool.and_eq_true, beq_iff_eq,
      decide_eq_true_eq, cast_lt, and_assoc]
  rw [SweepQuery.mem_expiredBefore]
  constructor
  · rintro ⟨entry, indexed, isPast, sameId⟩
    obtain ⟨row, rowHeld, written⟩ := (store.indexed entry).mp indexed
    have isRow : row = EventRow.ofEvent event saved := store.eq_of_id rowHeld held
      ((TagTrigger.eventId_of_mem_tagRows written).symm.trans sameId)
    rw [isRow] at written
    obtain ⟨name, values, member, -, rfl⟩ := TagTrigger.mem_tagRows.mp written
    obtain ⟨isExpiration, digits, before⟩ := (past _).mp isPast
    dsimp only at isExpiration digits before
    rw [isExpiration] at member
    exact ⟨_, mem_expirations.mpr ⟨values, member, digits, rfl⟩, before⟩
  · rintro ⟨second, named, before⟩
    obtain ⟨values, member, digits, rfl⟩ := mem_expirations.mp named
    have expirationIndexed : trigger.indexes "expiration" := by
      cases trigger <;> decide
    refine ⟨⟨event.id, "expiration", values.headD ""⟩, (store.indexed _).mpr ⟨_, held, ?_⟩,
      (past _).mpr ⟨rfl, digits, before⟩, rfl⟩
    exact TagTrigger.mem_tagRows.mpr ⟨_, values, member, expirationIndexed, rfl⟩

/-- A tag with a value in digits has a value. -/
theorem isValued_of_isDecimal
    {name : String}
    {values : List String}
    (digits : isDecimal (values.headD "")) :
    isValued name (name :: values) := by
  cases values with
  | nil => exact absurd digits (by decide)
  | cons value values => simp [isValued]

/-- The first value for a name is the value of a tag. -/
theorem exists_tag_of_tagValue
    {event : NostrEvent}
    {name raw : String}
    (found : tagValue event name = some raw) :
    ∃ values, name :: values ∈ event.tags ∧ values.headD "" = raw := by
  obtain ⟨tag, tagFound, rfl⟩ := Option.map_eq_some_iff.mp found
  have valued := List.find?_some tagFound
  rw [isValued, Bool.and_eq_true, beq_iff_eq] at valued
  have member := List.mem_of_find?_eq_some tagFound
  cases tag with
  | nil => cases valued.2
  | cons first values =>
      have isName : first = name := Option.some.inj valued.2
      rw [isName] at member
      refine ⟨values, member, ?_⟩
      cases values <;> rfl

/-- The expiration of an admitted event is in digits. -/
theorem isDecimal_of_admitted
    {event : NostrEvent}
    {received : Nat}
    {raw : String}
    (admitted : expirationAdmission event received = none)
    (found : tagValue event "expiration" = some raw) :
    isDecimal raw ∧ firstExpiration event = some (decimalValue raw) := by
  rw [expirationAdmission, found] at admitted
  dsimp only at admitted
  split at admitted
  · cases admitted
  · rename_i wellFormed
    have digits : isDecimal raw := by
      rw [not_or, Bool.not_eq_true', Bool.not_eq_false] at wellFormed
      rw [isDecimal, Bool.and_eq_true, bne_iff_ne]
      exact wellFormed
    refine ⟨digits, ?_⟩
    rw [firstExpiration, found, Option.bind_some, parseUnsigned_of_isDecimal digits]
    rw [parseUnsigned_of_isDecimal digits] at admitted
    split at admitted
    · cases admitted
    · rename_i parsed
      split at parsed
      · rename_i fits
        exact if_pos fits
      · cases parsed

/-- The first expiration of an admitted event is among those that it names, and it
names none without a first. -/
theorem firstExpiration_of_admitted
    {event : NostrEvent}
    {received : Nat}
    (admitted : expirationAdmission event received = none) :
    (∀ first, firstExpiration event = some first → first ∈ expirations event) ∧
      ∀ second ∈ expirations event, ∃ first, firstExpiration event = some first := by
  constructor
  · intro first isFirst
    obtain ⟨raw, found, -⟩ := Option.bind_eq_some_iff.mp isFirst
    obtain ⟨digits, parsed⟩ := isDecimal_of_admitted admitted found
    obtain ⟨values, member, rfl⟩ := exists_tag_of_tagValue found
    have isValue : first = decimalValue (values.headD "") :=
      Option.some.inj (isFirst.symm.trans parsed)
    exact mem_expirations.mpr ⟨values, member, digits, isValue.symm⟩
  · intro second named
    obtain ⟨values, member, digits, -⟩ := mem_expirations.mp named
    cases found : tagValue event "expiration" with
    | some raw => exact ⟨_, (isDecimal_of_admitted admitted found).2⟩
    | none =>
        rw [tagValue, Option.map_eq_none_iff, List.find?_eq_none] at found
        exact absurd (isValued_of_isDecimal digits) (found _ member)

/-! ## Reading and sweeping -/

section Agreement

/-- What a sweep does to an event that the table holds: it deletes it for its kind
exactly when the time of that is over, and otherwise for its expiration exactly when
reading passes it over.  A sweep that its budget ends may leave events for the next. -/
structure SweptAsRead (row : EventRow) (event : NostrEvent) (sweep : Sweep trigger)
    (now : Nat) : Prop where
  deleted : row ∉ sweep.store.events ↔
    event.id ∈ sweep.retentionIds ∨ event.id ∈ sweep.expiredIds
  onlyPassed : event.id ∈ sweep.retentionIds → RetentionPassed event now
  allPassed : sweep.truncated = false → RetentionPassed event now →
    event.id ∈ sweep.retentionIds
  onlyExpired : event.id ∈ sweep.expiredIds → isExpired event now
  allExpired : sweep.truncated = false → isExpired event now →
    ¬RetentionPassed event now → event.id ∈ sweep.expiredIds
  withinBudget : sweep.result.retentionDeleted + sweep.result.expiredDeleted ≤ retentionMaxRows
  spent : sweep.truncated → sweep.result.retentionDeleted + sweep.result.expiredDeleted =
    retentionMaxRows

/-- No expiration tag names a second before the first one's, other than seconds after
which the event is not kept anyway. -/
def NoEarlierExpiration (event : NostrEvent) : Prop :=
  ∀ first, firstExpiration event = some first →
    ∀ second ∈ expirations event, min first (keptUntil event) ≤ second

variable {event : NostrEvent} {saved received : Nat}

/-- What holds of every sweep of a table with an accepted event, its expiration
apart. -/
theorem sweptAsRead_iff
    (recent : event.createdAt < 2 ^ 53)
    (held : EventRow.ofEvent event saved ∈ store.events) :
    SweptAsRead (EventRow.ofEvent event saved) event (store.sweepRetention pages now) now ↔
      (event.id ∈ (store.sweepRetention pages now).expiredIds → isExpired event now) ∧
        ((store.sweepRetention pages now).truncated = false → isExpired event now →
          ¬RetentionPassed event now → event.id ∈ (store.sweepRetention pages now).expiredIds) := by
  constructor
  · exact fun agrees => ⟨agrees.onlyExpired, agrees.allExpired⟩
  · rintro ⟨onlyExpired, allExpired⟩
    refine ⟨?_, ?_, ?_, onlyExpired, allExpired, length_sweepRetention.1, length_sweepRetention.2⟩
    · have sameId : (EventRow.ofEvent event saved).id = event.id := rfl
      rw [store_sweepRetention, Store.mem_deleteIds, List.mem_append, sameId]
      simp only [held, true_and, not_not]
    · exact fun deleted =>
        (mem_windowQueries_iff recent held).mp (mem_windowQueries_of_retentionIds deleted)
    · intro complete passed
      obtain ⟨query, isQuery, selected⟩ := (mem_windowQueries_iff recent held).mpr passed
      exact mem_retentionIds (windows_complete complete) isQuery selected

/-- The first phase spares an event that is still kept. -/
theorem not_mem_retentionIds
    (recent : event.createdAt < 2 ^ 53)
    (held : EventRow.ofEvent event saved ∈ store.events)
    (kept : ¬RetentionPassed event now) :
    event.id ∉ (store.sweepRetention pages now).retentionIds := by
  intro deleted
  exact kept ((mem_windowQueries_iff recent held).mp (mem_windowQueries_of_retentionIds deleted))

/-- The second phase deletes only events that are still kept. -/
theorem kept_of_expiredIds
    (recent : event.createdAt < 2 ^ 53)
    (held : EventRow.ofEvent event saved ∈ store.events)
    (deleted : event.id ∈ (store.sweepRetention pages now).expiredIds) :
    ¬RetentionPassed event now := by
  intro passed
  obtain ⟨query, isQuery, selected⟩ := (mem_windowQueries_iff recent held).mpr passed
  exact (mem_expiredBefore_of_expiredIds deleted).2
    (mem_retentionIds (windows_complete_of_expiredIds deleted) isQuery selected)

/-- A sweep agrees with reading where no later expiration comes first. -/
theorem sweptAsRead_of_noEarlierExpiration
    (admitted : expirationAdmission event received = none)
    (recent : event.createdAt < 2 ^ 53)
    (told : now ≤ maxClock)
    (held : EventRow.ofEvent event saved ∈ store.events)
    (noEarlier : NoEarlierExpiration event) :
    SweptAsRead (EventRow.ofEvent event saved) event (store.sweepRetention pages now) now := by
  rw [sweptAsRead_iff recent held]
  constructor
  · intro deleted
    have selected := (mem_expiredBefore_of_expiredIds deleted).1
    have kept : now ≤ keptUntil event :=
      le_keptUntil_iff.mpr ⟨told, kept_of_expiredIds recent held deleted⟩
    obtain ⟨second, named, past⟩ := (mem_expiredBefore_iff told held).mp selected
    obtain ⟨first, isFirst⟩ := (firstExpiration_of_admitted admitted).2 second named
    have ordered := noEarlier first isFirst second named
    exact isExpired_iff.mpr ⟨first, isFirst, by omega⟩
  · intro complete expired kept
    obtain ⟨first, isFirst, past⟩ := isExpired_iff.mp expired
    have named := (firstExpiration_of_admitted admitted).1 first isFirst
    exact mem_expiredIds complete ((mem_expiredBefore_iff told held).mpr ⟨first, named, past⟩)
      (not_mem_retentionIds recent held kept)

/-- A table with the row of one event. -/
def Store.alone (trigger : TagTrigger) (event : NostrEvent) (saved : Nat) : Store trigger :=
  Store.empty.insert (EventRow.ofEvent event saved)

theorem events_alone :
    (Store.alone trigger event saved).events = [EventRow.ofEvent event saved] := by
  simp [Store.alone, Store.insert, Store.empty]

/-- A sweep of an event alone deletes it once any of its expirations is past. -/
theorem mem_expiredIds_alone
    {second : Nat}
    (recent : event.createdAt < 2 ^ 53)
    (named : second ∈ expirations event)
    (past : second < now)
    (kept : now ≤ keptUntil event) :
    event.id ∈ ((Store.alone trigger event saved).sweepRetention pages now).expiredIds := by
  obtain ⟨told, notPassed⟩ := le_keptUntil_iff.mp kept
  have held : EventRow.ofEvent event saved ∈ (Store.alone trigger event saved).events := by
    rw [events_alone]
    exact List.mem_singleton_self _
  have few : (Store.alone trigger event saved).events.length < retentionMaxRows := by
    rw [events_alone, List.length_singleton]
    decide
  exact mem_expiredIds (complete_of_few few)
    ((mem_expiredBefore_iff told held).mpr ⟨second, named, past⟩)
    (not_mem_retentionIds recent held notPassed)

end Agreement

/-- An event that passes the gates names an expiration in digits, if any, and its time
is within reach of the clock's. -/
theorem expirationAdmission_of_refusal
    {ingress : Ingress}
    {sessionAuthed : Bool}
    {event : NostrEvent}
    {received : Nat}
    (passes : ingress.refusal sessionAuthed event received = none) :
    expirationAdmission event received = none ∧
      event.createdAt ≤ received + maxTimestampDrift := by
  constructor
  · exact (gates_of_refusal passes).1 _ (List.mem_cons_of_mem _ (List.mem_cons_self ..))
  · have valid := validateEvent_of_refusal passes
    unfold validateEvent timestampDriftOk drift at valid
    simp only [Bool.and_eq_true, Bool.or_eq_true, decide_eq_true_eq] at valid
    omega

/-- A note with some tags. -/
def noteWithTags (tags : List Tag) : NostrEvent where
  id := String.ofList (List.replicate 64 'e')
  pubkey := String.ofList (List.replicate 64 'a')
  createdAt := 1700000000
  kind := 1
  tags := tags
  content := "see you there"
  sig := String.ofList (List.replicate 128 'f')

end Relay
end NostrBbs
