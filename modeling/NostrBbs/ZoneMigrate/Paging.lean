import NostrBbs.Relay.Agreement
import NostrBbs.Relay.OverSets
import NostrBbs.ZoneMigrate.Relay

/-!
# Paging finds everything

Paging by an inclusive upper bound against the relay's own query.  The relay cuts
a page at the limit before it passes over expired and withheld rows, so that a
page that was cut can arrive short, which paging takes for the last one.
-/

namespace NostrBbs
namespace ZoneMigrate

open Relay (NostrEvent)

/-! ## Pages -/

/-- An event is within a cursor. -/
def Within (cursor : Option Nat) (event : NostrEvent) : Prop :=
  ∀ bound, cursor = some bound → event.createdAt ≤ bound

/-- A page for a cursor, out of the events that can be shown: those it leaves out
are no newer than those it has. -/
structure IsPage (shown : List NostrEvent) (cursor : Option Nat) (page : List NostrEvent) :
    Prop where
  subset : page ⊆ shown
  distinct : (page.map NostrEvent.id).Nodup
  within : ∀ event ∈ page, Within cursor event
  newest : ∀ event ∈ shown, Within cursor event → event ∉ page →
    ∀ other ∈ page, event.createdAt ≤ other.createdAt

/-- What paging has found is shown, each event once. -/
structure Finds (shown : List NostrEvent) (fetched : Fetched) : Prop where
  subset : fetched.events ⊆ shown
  distinct : (fetched.events.map NostrEvent.id).Nodup

section

variable {shown page : List NostrEvent} {fetched : Fetched} {event : NostrEvent}
  {cursor : Option Nat}

theorem seen_iff
    (distinctIds : (shown.map NostrEvent.id).Nodup)
    (subset : fetched.events ⊆ shown)
    (isShown : event ∈ shown) :
    fetched.seen event.id ↔ event ∈ fetched.events := by
  unfold Fetched.seen
  rw [List.any_eq_true]
  constructor
  · rintro ⟨other, found, sameId⟩
    rw [beq_iff_eq] at sameId
    have same := List.inj_on_of_nodup_map distinctIds (subset found) isShown sameId
    rwa [← same]
  · exact fun found => ⟨event, found, beq_self_eq_true _⟩

/-- A page adds its events that were not found, in order. -/
theorem addPage_spec
    (distinctIds : (shown.map NostrEvent.id).Nodup)
    (finds : Finds shown fetched)
    (pageShown : page ⊆ shown) :
    Finds shown (fetched.addPage page) ∧
      (fetched.addPage page).ambiguousSeconds = fetched.ambiguousSeconds ∧
      ∃ new, (fetched.addPage page).events = fetched.events ++ new ∧ new ⊆ page ∧
        page ⊆ fetched.events ++ new := by
  induction page generalizing fetched with
  | nil => exact ⟨finds, rfl, [], by simp [Fetched.addPage], by simp, by simp⟩
  | cons event page inductionHypothesis =>
      rw [List.cons_subset] at pageShown
      have seen := seen_iff distinctIds finds.subset pageShown.1
      by_cases found : event ∈ fetched.events
      · have same : fetched.add event = fetched := if_pos (seen.mpr found)
        obtain ⟨laterFinds, sameSeconds, new, events, fromPage, covers⟩ :=
          inductionHypothesis finds pageShown.2
        unfold Fetched.addPage at *
        rw [List.foldl_cons, same]
        refine ⟨laterFinds, sameSeconds, new, events, ?_, ?_⟩
        · exact List.subset_cons_of_subset _ fromPage
        · exact List.cons_subset.mpr ⟨List.mem_append_left _ found, covers⟩
      · have added : fetched.add event =
            { fetched with events := fetched.events ++ [event] } := if_neg (mt seen.mp found)
        have notSeen : event.id ∉ fetched.events.map NostrEvent.id := by
          intro held
          obtain ⟨other, isOther, sameId⟩ := List.mem_map.mp held
          apply found
          rwa [← List.inj_on_of_nodup_map distinctIds (finds.subset isOther) pageShown.1 sameId]
        have addedFinds : Finds shown { fetched with events := fetched.events ++ [event] } := by
          refine ⟨List.append_subset.mpr ⟨finds.subset, by simpa using pageShown.1⟩, ?_⟩
          rw [List.map_append, List.map_singleton]
          exact List.Nodup.append finds.distinct (List.nodup_singleton _)
            (List.disjoint_singleton.mpr notSeen)
        obtain ⟨laterFinds, sameSeconds, new, events, fromPage, covers⟩ :=
          inductionHypothesis addedFinds pageShown.2
        unfold Fetched.addPage at *
        rw [List.foldl_cons, added]
        refine ⟨laterFinds, sameSeconds, event :: new, ?_, ?_, ?_⟩
        · rw [events, List.append_assoc, List.singleton_append]
        · exact List.cons_subset_cons _ fromPage
        · apply List.cons_subset.mpr
          refine ⟨by simp, ?_⟩
          intro other isOther
          simpa using covers isOther

/-- The oldest time of a page is that of one of its events, when these have 64-bit
times. -/
theorem oldestOf_spec
    (nonempty : page ≠ [])
    (times : ∀ event ∈ page, event.createdAt < 2 ^ 64) :
    (∃ event ∈ page, event.createdAt = oldestOf page) ∧
      ∀ event ∈ page, oldestOf page ≤ event.createdAt := by
  have folded : ∀ (events : List NostrEvent) (start : Nat),
      (events.foldl (fun oldest event => min oldest event.createdAt) start = start ∨
        ∃ event ∈ events, event.createdAt =
          events.foldl (fun oldest event => min oldest event.createdAt) start) ∧
      events.foldl (fun oldest event => min oldest event.createdAt) start ≤ start ∧
      ∀ event ∈ events,
        events.foldl (fun oldest event => min oldest event.createdAt) start ≤ event.createdAt := by
    intro events
    induction events with
    | nil => simp
    | cons event events inductionHypothesis =>
        intro start
        obtain ⟨attained, below, lowest⟩ := inductionHypothesis (min start event.createdAt)
        rw [List.foldl_cons]
        refine ⟨?_, below.trans (Nat.min_le_left _ _), ?_⟩
        · rcases attained with same | ⟨other, isOther, isOldest⟩
          · rcases Nat.le_total start event.createdAt with earlier | later
            · exact .inl (same.trans (Nat.min_eq_left earlier))
            · exact .inr ⟨event, List.mem_cons_self .., (same.trans (Nat.min_eq_right later)).symm⟩
          · exact .inr ⟨other, List.mem_cons_of_mem _ isOther, isOldest⟩
        · intro other isOther
          rcases List.mem_cons.mp isOther with rfl | isLater
          · exact below.trans (Nat.min_le_right _ _)
          · exact lowest other isLater
  obtain ⟨attained, below, lowest⟩ := folded page (2 ^ 64 - 1)
  refine ⟨?_, lowest⟩
  rcases attained with untouched | found
  · obtain ⟨event, rest, rfl⟩ := List.exists_cons_of_ne_nil nonempty
    have isEvent : event ∈ event :: rest := List.mem_cons_self ..
    have least := lowest event isEvent
    have short := times event isEvent
    refine ⟨event, isEvent, ?_⟩
    unfold oldestOf
    omega
  · exact found

end

/-! ## The relay's own query -/

/-- The filter as the relay reads it, with its limit. -/
def Filter.asked (filter : Filter) : Relay.NostrFilter × Option Nat :=
  let tagged (key : String) (values : Option (List String)) (extra : Relay.Extra) :=
    values.elim extra fun values => extra.insert key (.array (values.map .string))
  ({ ids := filter.ids
     authors := none
     kinds := filter.kinds
     since := none
     «until» := filter.until
     search := none
     extra := tagged "#p" filter.pTags (tagged "#e" filter.eTags .empty) }, filter.limit)

/-- A relay as the relay worker is: its configuration and its events, the order of
the rows of one second, the migrator's session and the time. -/
structure HonestRelay (trigger : Relay.TagTrigger) where
  deployment : Relay.Deployment
  store : Relay.Store trigger
  order : Relay.RowOrder
  viewer : Option String
  now : Nat

namespace HonestRelay

variable {trigger : Relay.TagTrigger} (relay : HonestRelay trigger) (base : Filter)

/-- The frame of a request. -/
def frame (filter : Filter) : Relay.ReadFrame :=
  ⟨relay.viewer, [filter.asked], relay.now⟩

/-- The answer to a request. -/
def answerQuery (filter : Filter) : Except RelayError (List NostrEvent) :=
  match relay.deployment.answerReq relay.store relay.order (relay.frame filter) with
  | .closed message => .error (.closed message)
  | .notice message => .error (.protocol s!"relay notice: {message}")
  | .served _ delivered => .ok delivered

/-- The relay serves requests with a filter. -/
def Serves : Prop :=
  (relay.deployment.answerReq relay.store relay.order (relay.frame base)).subscription.isSome

/-- The answers while paging: nothing else is asked of the relay. -/
def answer : Unit → (op : Op) → Unit × op.Answer
  | _, .query filter => ((), relay.answerQuery filter)
  | _, .publish _ => ((), .error (.transport "not asked"))
  | _, .deleteEvents _ _ => ((), .error (.transport "not asked"))
  | _, .nonce => ((), "")
  | _, .load => ((), none)
  | _, .persist _ => ((), .ok ())

/-- A filter as the gift-wrap gate leaves it. -/
def gated (filter : Relay.NostrFilter) : Relay.NostrFilter :=
  if Relay.namesGiftWraps filter then
    { filter with extra := filter.extra.insert "#p" (.array [.string (relay.viewer.getD "")]) }
  else filter

/-- The base filter under a cursor, as the relay queries it. -/
def under (cursor : Option Nat) : Relay.NostrFilter :=
  { relay.gated base.asked.1 with «until» := cursor }

/-- The rows that the query of a page returns. -/
def rowsRead (cursor : Option Nat) : List Relay.EventRow :=
  relay.store.queryRows relay.order (relay.under base cursor) maxReqLimit

/-- The form in which the migrator may read a row, if it may. -/
def formOf (row : Relay.EventRow) : Option NostrEvent :=
  relay.deployment.servedForm ⟨relay.viewer, [], relay.now⟩ row

/-- The page that is answered. -/
def page (cursor : Option Nat) : List NostrEvent :=
  (relay.rowsRead base cursor).filterMap relay.formOf

/-- The unexpired events that match the base filter and that the migrator may
read. -/
def wanted : List NostrEvent :=
  (Relay.selectedRows relay.store (relay.under base base.until) maxReqLimit).filterMap
    relay.formOf

variable {relay base}

/-- The request for a page. -/
def pageFilter (base : Filter) (cursor : Option Nat) : Filter :=
  { base with limit := some maxReqLimit, «until» := cursor }

/-- The gates pass the request for any page as they pass that for the first. -/
theorem gates_pass
    (serves : relay.Serves base)
    (cursor : Option Nat) :
    Relay.protectedReadBlocked ((relay.frame (pageFilter base cursor)).filters.map Prod.fst)
        (relay.frame (pageFilter base cursor)).viewer.isSome relay.deployment.authMode = false ∧
      Relay.gateKind1059Filters ((relay.frame (pageFilter base cursor)).filters.map Prod.fst)
        (relay.frame (pageFilter base cursor)).viewer = some [relay.under base cursor] := by
  obtain ⟨subscribed, isSubscription⟩ := Option.isSome_iff_exists.mp serves
  obtain ⟨notBlocked, passed⟩ := Relay.subscription_eq_some_iff.mp isSubscription
  refine ⟨notBlocked, ?_⟩
  have sameFilters : (relay.frame (pageFilter base cursor)).filters.map Prod.fst =
      [{ base.asked.1 with «until» := cursor }] := rfl
  have sameViewer : (relay.frame (pageFilter base cursor)).viewer = relay.viewer := rfl
  rw [sameFilters, sameViewer]
  unfold Relay.gateKind1059Filters at passed ⊢
  unfold under gated
  cases wraps : Relay.namesGiftWraps base.asked.1 with
  | false =>
      have wrapsHere : Relay.namesGiftWraps
          { base.asked.1 with «until» := cursor } = false := wraps
      simp [wrapsHere]
  | true =>
      have wrapsHere : Relay.namesGiftWraps
          { base.asked.1 with «until» := cursor } = true := wraps
      cases viewer : relay.viewer with
      | none => simp [frame, wraps, viewer] at passed
      | some authed => simp [wrapsHere]

theorem admitted_page
    (serves : relay.Serves base)
    (cursor : Option Nat) :
    relay.deployment.admitted (relay.frame (pageFilter base cursor)) =
      [(relay.under base cursor, some maxReqLimit)] := by
  obtain ⟨notBlocked, passed⟩ := gates_pass serves cursor
  unfold Relay.Deployment.admitted
  rw [notBlocked, passed]
  rfl

/-- The answer for a page is the rows of its query in the forms in which they may
be read. -/
theorem answerQuery_page
    (serves : relay.Serves base)
    (cursor : Option Nat) :
    relay.answerQuery (pageFilter base cursor) = .ok (relay.page base cursor) := by
  have subscribed : (relay.deployment.answerReq relay.store relay.order
      (relay.frame (pageFilter base cursor))).subscription = some [relay.under base cursor] :=
    Relay.subscription_eq_some_iff.mpr (gates_pass serves cursor)
  have delivered : (relay.deployment.answerReq relay.store relay.order
      (relay.frame (pageFilter base cursor))).delivered = relay.page base cursor := by
    have single : [(relay.under base cursor, some maxReqLimit)].length * Relay.maxQueryLimit ≤
        Relay.maxRowsPerFrame := by
      simp [Relay.maxRowsPerFrame, Relay.maxFilters, Relay.maxQueryLimit]
    rw [Relay.delivered_answerReq, admitted_page serves, Relay.frameRows_eq single,
      List.flatMap_singleton]
    rfl
  unfold answerQuery
  cases outcome : relay.deployment.answerReq relay.store relay.order
      (relay.frame (pageFilter base cursor)) with
  | closed message =>
      rw [outcome] at subscribed
      cases subscribed
  | notice message =>
      rw [outcome] at subscribed
      cases subscribed
  | served subscription events =>
      rw [outcome] at delivered
      exact congrArg Except.ok delivered

/-- A cursor below the bound of the base filter. -/
def Below (base : Filter) (cursor : Option Nat) : Prop :=
  ∀ last, base.until = some last → ∃ bound, cursor = some bound ∧ bound ≤ last

/-- The rows held have times that are exact as doubles, as admission sees to. -/
def TimesExact (relay : HonestRelay trigger) : Prop :=
  ∀ row ∈ relay.store.events, row.createdAt < 2 ^ 53

/-- A row is selected under a cursor below the base filter's bound when it matches
the base filter and is within the cursor. -/
theorem selected_under_iff
    (exact : relay.TimesExact)
    {cursor : Option Nat}
    (below : Below base cursor)
    {row : Relay.EventRow}
    (held : row ∈ relay.store.events) :
    row ∈ Relay.selectedRows relay.store (relay.under base cursor) maxReqLimit ↔
      row ∈ Relay.selectedRows relay.store (relay.under base base.until) maxReqLimit ∧
        ∀ last, cursor = some last → row.createdAt ≤ last := by
  have bounds : ∀ bound : Option Nat, (∀ last, bound = some last →
      row.createdAt ≤ Relay.asF64 last) ↔ ∀ last, bound = some last → row.createdAt ≤ last := by
    intro bound
    apply forall_congr'
    intro last
    rw [Relay.le_asF64_iff (exact row held)]
  have split : ∀ bound : Option Nat,
      row ∈ Relay.selectedRows relay.store (relay.under base bound) maxReqLimit ↔
        row ∈ Relay.selectedRows relay.store (relay.under base none) 0 ∧
          ∀ last, bound = some last → row.createdAt ≤ last := by
    intro bound
    rw [← bounds]
    exact Relay.mem_selectedRows_until 0 held
  rw [split cursor, split base.until]
  constructor
  · rintro ⟨selected, within⟩
    refine ⟨⟨selected, ?_⟩, within⟩
    intro last isLast
    obtain ⟨bound, isBound, lower⟩ := below last isLast
    exact (within bound isBound).trans lower
  · rintro ⟨⟨selected, -⟩, within⟩
    exact ⟨selected, within⟩

/-- An event that is wanted is the form of a row that matches. -/
theorem mem_wanted
    {event : NostrEvent} :
    event ∈ relay.wanted base ↔ ∃ row ∈ Relay.selectedRows relay.store
      (relay.under base base.until) maxReqLimit, relay.formOf row = some event :=
  List.mem_filterMap

theorem stamp_of_formOf
    {row : Relay.EventRow}
    {event : NostrEvent}
    (isForm : relay.formOf row = some event) :
    event.id = row.id ∧ event.createdAt = row.createdAt :=
  Relay.stamp_of_servedForm isForm

/-- The events of rows have the ids of the rows that may be read. -/
theorem ids_filterMap
    (rows : List Relay.EventRow) :
    (rows.filterMap relay.formOf).map NostrEvent.id =
      (rows.filter fun row => (relay.formOf row).isSome).map Relay.EventRow.id := by
  induction rows with
  | nil => rfl
  | cons row rows inductionHypothesis =>
      cases isForm : relay.formOf row with
      | none =>
          rw [List.filterMap_cons_none isForm, List.filter_cons_of_neg (by simp [isForm])]
          exact inductionHypothesis
      | some event =>
          rw [List.filterMap_cons_some isForm, List.filter_cons_of_pos (by simp [isForm]),
            List.map_cons, List.map_cons, inductionHypothesis, (stamp_of_formOf isForm).1]

theorem nodup_ids
    {rows : List Relay.EventRow}
    (held : rows ⊆ relay.store.events)
    (distinct : rows.Nodup) :
    ((rows.filterMap relay.formOf).map NostrEvent.id).Nodup := by
  rw [ids_filterMap]
  apply List.Nodup.map_on
  · intro first firstKept second secondKept sameId
    exact relay.store.eq_of_id (held (List.mem_of_mem_filter firstKept))
      (held (List.mem_of_mem_filter secondKept)) sameId
  · exact distinct.filter _

theorem nodup_wanted :
    ((relay.wanted base).map NostrEvent.id).Nodup :=
  nodup_ids (fun _ => Relay.mem_events_of_selected) (Relay.nodup_selectedRows ..)

/-- What is answered is a page of what is wanted. -/
theorem isPage
    (exact : relay.TimesExact)
    {cursor : Option Nat}
    (below : Below base cursor) :
    IsPage (relay.wanted base) cursor (relay.page base cursor) where
  subset := by
    intro event isAnswered
    obtain ⟨row, read, isForm⟩ := List.mem_filterMap.mp isAnswered
    have selected := Relay.mem_queryRows read
    have held := Relay.mem_events_of_selected selected
    exact mem_wanted.mpr ⟨row, ((selected_under_iff exact below held).mp selected).1, isForm⟩
  distinct := by
    apply nodup_ids _ Relay.nodup_queryRows
    exact fun row read => Relay.mem_events_of_selected (Relay.mem_queryRows read)
  within := by
    intro event isAnswered bound isCursor
    obtain ⟨row, read, isForm⟩ := List.mem_filterMap.mp isAnswered
    have selected := Relay.mem_queryRows read
    have held := Relay.mem_events_of_selected selected
    rw [(stamp_of_formOf isForm).2]
    exact ((selected_under_iff exact below held).mp selected).2 bound isCursor
  newest := by
    intro event isWanted within leftOut other isOther
    obtain ⟨row, isMatch, isForm⟩ := mem_wanted.mp isWanted
    obtain ⟨otherRow, otherRead, otherForm⟩ := List.mem_filterMap.mp isOther
    have held := Relay.mem_events_of_selected isMatch
    have selected := (selected_under_iff exact below held).mpr ⟨isMatch, by
      intro last isLast
      rw [← (stamp_of_formOf isForm).2]
      exact within last isLast⟩
    have notRead : row ∉ relay.rowsRead base cursor := by
      intro read
      exact leftOut (List.mem_filterMap.mpr ⟨row, read, isForm⟩)
    rw [(stamp_of_formOf isForm).2, (stamp_of_formOf otherForm).2]
    exact (Relay.newest_queryRows selected notRead).2 otherRow otherRead

/-! ## Pages that are cut short -/

/-- The page for a cursor reaches the limit, has a row that is not shown, and
leaves out an event that is wanted and was not found before. -/
structure CutShort (relay : HonestRelay trigger) (base : Filter) (fetched : Fetched)
    (cursor : Option Nat) : Prop where
  limited : (relay.rowsRead base cursor).length = maxReqLimit
  hidden : ∃ row ∈ relay.rowsRead base cursor, relay.formOf row = none
  leftOut : ∃ event ∈ relay.wanted base, Within cursor event ∧
    event ∉ relay.page base cursor ∧ event ∉ fetched.events

/-- The page is taken for the last one and leaves out an event exactly when it is
cut short. -/
theorem cutShort_iff
    (exact : relay.TimesExact)
    {fetched : Fetched}
    {cursor : Option Nat}
    (below : Below base cursor) :
    relay.CutShort base fetched cursor ↔
      (relay.page base cursor).length < maxReqLimit ∧
        ∃ event ∈ relay.wanted base, Within cursor event ∧
          event ∉ relay.page base cursor ∧ event ∉ fetched.events := by
  have shorter : (relay.page base cursor).length < (relay.rowsRead base cursor).length ↔
      ∃ row ∈ relay.rowsRead base cursor, relay.formOf row = none := by
    unfold page
    rw [List.length_filterMap_eq_countP, List.countP_lt_length_iff]
    simp
  constructor
  · rintro ⟨limited, hidden, leftOut⟩
    exact ⟨limited ▸ shorter.mpr hidden, leftOut⟩
  · rintro ⟨short, event, isWanted, within, notPaged, notFound⟩
    obtain ⟨row, isMatch, isForm⟩ := mem_wanted.mp isWanted
    have held := Relay.mem_events_of_selected isMatch
    have selected := (selected_under_iff exact below held).mpr ⟨isMatch, by
      intro last isLast
      rw [← (stamp_of_formOf isForm).2]
      exact within last isLast⟩
    have notRead : row ∉ relay.rowsRead base cursor := fun read =>
      notPaged (List.mem_filterMap.mpr ⟨row, read, isForm⟩)
    have limited : (relay.rowsRead base cursor).length = maxReqLimit :=
      (Relay.newest_queryRows selected notRead).1
    exact ⟨limited, shorter.mp (limited ▸ short), event, isWanted, within, notPaged, notFound⟩

/-! ## One page -/

/-- Where paging stands: what it has found, and that it has passed over no event
of a second that it has not noted. -/
structure Progress (relay : HonestRelay trigger) (base : Filter) (fetched : Fetched)
    (cursor : Option Nat) : Prop where
  finds : Finds (relay.wanted base) fetched
  below : Below base cursor
  left : ∀ event ∈ relay.wanted base, event ∉ fetched.events →
    Within cursor event ∨ event.createdAt ∈ fetched.ambiguousSeconds
  above : ∀ event ∈ fetched.events, ∃ bound, cursor = some bound ∧ bound ≤ event.createdAt
  passed : ∀ second ∈ fetched.ambiguousSeconds, ∃ bound, cursor = some bound ∧ bound < second

/-- Everything wanted is found once, or is of a second that was noted. -/
structure FindsAll (relay : HonestRelay trigger) (base : Filter) (fetched : Fetched) :
    Prop where
  finds : Finds (relay.wanted base) fetched
  all : ∀ event ∈ relay.wanted base,
    event ∈ fetched.events ∨ event.createdAt ∈ fetched.ambiguousSeconds

theorem progress_start
    (exact : relay.TimesExact) :
    relay.Progress base .empty base.until where
  finds := ⟨List.nil_subset _, List.nodup_nil⟩
  below := fun last isLast => ⟨last, isLast, Nat.le_refl _⟩
  left := by
    intro event isWanted _
    left
    obtain ⟨row, isMatch, isForm⟩ := mem_wanted.mp isWanted
    have held := Relay.mem_events_of_selected isMatch
    have within := ((selected_under_iff exact
      (fun last isLast => ⟨last, isLast, Nat.le_refl _⟩) held).mp isMatch).2
    intro bound isBound
    rw [(stamp_of_formOf isForm).2]
    exact within bound isBound
  above := by
    rintro event ⟨⟩
  passed := by
    rintro second ⟨⟩

/-- What is left to find and to pass. -/
def remaining (relay : HonestRelay trigger) (base : Filter) (fetched : Fetched)
    (cursor : Option Nat) : Nat :=
  ((relay.wanted base).length - fetched.events.length) + cursor.getD (2 ^ 64)

theorem times_wanted
    (exact : relay.TimesExact)
    {event : NostrEvent}
    (isWanted : event ∈ relay.wanted base) :
    event.createdAt < 2 ^ 53 := by
  obtain ⟨row, isMatch, isForm⟩ := mem_wanted.mp isWanted
  rw [(stamp_of_formOf isForm).2]
  exact exact row (Relay.mem_events_of_selected isMatch)

theorem length_le_wanted
    {fetched : Fetched}
    (finds : Finds (relay.wanted base) fetched) :
    fetched.events.length ≤ (relay.wanted base).length :=
  (List.subperm_of_subset (List.Nodup.of_map _ finds.distinct) finds.subset).length_le

section

variable {fetched out : Fetched} {cursor : Option Nat}

/-- What a page that adds nothing and is full says: everything on it is of the
second of the cursor, so that nothing newer is left. -/
theorem Progress.stalled
    (progress : relay.Progress base fetched cursor)
    (page : IsPage (relay.wanted base) cursor (relay.page base cursor))
    (known : relay.page base cursor ⊆ fetched.events)
    {oldest : Nat}
    (attained : ∃ event ∈ relay.page base cursor, event.createdAt = oldest)
    {event : NostrEvent}
    (isWanted : event ∈ relay.wanted base)
    (notFound : event ∉ fetched.events) :
    event.createdAt < oldest ∨ event.createdAt ∈ fetched.ambiguousSeconds ++ [oldest] := by
  obtain ⟨seen, isPaged, rfl⟩ := attained
  rcases progress.left event isWanted notFound with within | noted
  · have older := page.newest event isWanted within (fun paged => notFound (known paged))
      seen isPaged
    rcases Nat.lt_or_eq_of_le older with earlier | same
    · exact .inl earlier
    · exact .inr (by simp [same])
  · exact .inr (List.mem_append_left _ noted)

/-- A page after which paging goes on keeps its progress and was not cut short. -/
theorem Progress.next
    (exact : relay.TimesExact)
    (progress : relay.Progress base fetched cursor)
    {bound : Nat}
    (goesOn : takePage fetched (relay.page base cursor) = .next out bound) :
    relay.Progress base out (some bound) ∧ ¬relay.CutShort base fetched cursor ∧
      relay.remaining base out (some bound) < relay.remaining base fetched cursor := by
  have page := isPage exact progress.below
  obtain ⟨finds, sameSeconds, new, events, fromPage, covers⟩ :=
    addPage_spec nodup_wanted progress.finds page.subset
  have atMost := length_le_wanted finds
  rw [events, List.length_append] at atMost
  unfold takePage at goesOn
  dsimp only at goesOn
  split at goesOn
  · cases goesOn
  · rename_i full
    have isFull : maxReqLimit ≤ (relay.page base cursor).length := by simpa using full
    have notCut : ¬relay.CutShort base fetched cursor := fun cutShort =>
      Nat.not_lt.mpr isFull ((cutShort_iff exact progress.below).mp cutShort).1
    have nonempty : relay.page base cursor ≠ [] := by
      intro empty
      rw [empty] at isFull
      exact absurd isFull (by decide)
    obtain ⟨attained, lowest⟩ := oldestOf_spec nonempty fun event isPaged =>
      (times_wanted exact (page.subset isPaged)).trans (by decide)
    have lower : ∀ last, cursor = some last → oldestOf (relay.page base cursor) ≤ last := by
      intro last isLast
      obtain ⟨event, isPaged, isOldest⟩ := attained
      rw [← isOldest]
      exact page.within event isPaged last isLast
    have small : oldestOf (relay.page base cursor) < 2 ^ 64 := by
      obtain ⟨event, isPaged, isOldest⟩ := attained
      have short := times_wanted exact (page.subset isPaged)
      omega
    have cursorBound : oldestOf (relay.page base cursor) ≤ cursor.getD (2 ^ 64) := by
      rcases Option.eq_none_or_eq_some cursor with isNone | ⟨last, isLast⟩
      · rw [isNone, Option.getD_none, ← isNone]
        exact Nat.le_of_lt small
      · have := lower last isLast
        rw [isLast, Option.getD_some, ← isLast]
        exact this
    split at goesOn
    · rename_i nothingNew
      have noNew : new = [] := by
        rw [events, List.length_append, Nat.add_sub_cancel_left] at nothingNew
        exact List.length_eq_zero_iff.mp nothingNew
      have sameEvents : (fetched.addPage (relay.page base cursor)).events = fetched.events := by
        rw [events, noNew, List.append_nil]
      have known : relay.page base cursor ⊆ fetched.events := by
        rw [noNew, List.append_nil] at covers
        exact covers
      split at goesOn
      · cases goesOn
      · rename_i positive
        cases goesOn
        refine ⟨?_, notCut, ?_⟩
        · constructor
          case finds => exact ⟨finds.subset, finds.distinct⟩
          case below =>
            intro last isLast
            obtain ⟨previous, isPrevious, within⟩ := progress.below last isLast
            have := lower previous isPrevious
            exact ⟨_, rfl, by omega⟩
          case left =>
            intro event isWanted notFound
            rw [sameEvents] at notFound
            rcases progress.stalled page known attained isWanted notFound with earlier | noted
            · left
              rintro _ ⟨⟩
              omega
            · right
              rw [sameSeconds]
              exact noted
          case above =>
            intro event isFound
            rw [sameEvents] at isFound
            obtain ⟨last, isLast, above⟩ := progress.above event isFound
            have := lower last isLast
            exact ⟨_, rfl, by omega⟩
          case passed =>
            intro second isNoted
            refine ⟨_, rfl, ?_⟩
            rw [sameSeconds] at isNoted
            rcases List.mem_append.mp isNoted with before | isOldest
            · obtain ⟨last, isLast, above⟩ := progress.passed second before
              have := lower last isLast
              omega
            · rw [List.mem_singleton.mp isOldest]
              omega
        · unfold remaining
          dsimp only
          rw [sameEvents, Option.getD_some]
          omega
    · rename_i someNew
      cases goesOn
      rw [events, List.length_append, Nat.add_sub_cancel_left] at someNew
      refine ⟨?_, notCut, ?_⟩
      · constructor
        case finds => exact finds
        case below =>
          intro last isLast
          obtain ⟨previous, isPrevious, within⟩ := progress.below last isLast
          exact ⟨_, rfl, (lower previous isPrevious).trans within⟩
        case left =>
          intro event isWanted notFound
          rw [events] at notFound
          have notPaged : event ∉ relay.page base cursor := fun paged => notFound (covers paged)
          rcases progress.left event isWanted (fun found =>
            notFound (List.mem_append_left _ found)) with within | noted
          · left
            rintro _ ⟨⟩
            obtain ⟨seen, isPaged, isOldest⟩ := attained
            rw [← isOldest]
            exact page.newest event isWanted within notPaged seen isPaged
          · right
            rw [sameSeconds]
            exact noted
        case above =>
          intro event isFound
          rw [events] at isFound
          refine ⟨_, rfl, ?_⟩
          rcases List.mem_append.mp isFound with before | isNew
          · obtain ⟨last, isLast, above⟩ := progress.above event before
            exact (lower last isLast).trans above
          · exact lowest event (fromPage isNew)
        case passed =>
          intro second isNoted
          refine ⟨_, rfl, ?_⟩
          rw [sameSeconds] at isNoted
          obtain ⟨last, isLast, above⟩ := progress.passed second isNoted
          have := lower last isLast
          omega
      · unfold remaining
        rw [events, List.length_append, Option.getD_some]
        omega

/-- The page with which paging ends leaves out nothing exactly when it was not cut
short. -/
theorem Progress.finished
    (exact : relay.TimesExact)
    (progress : relay.Progress base fetched cursor)
    (ends : takePage fetched (relay.page base cursor) = .finished out) :
    relay.FindsAll base out ↔ ¬relay.CutShort base fetched cursor := by
  have page := isPage exact progress.below
  obtain ⟨finds, sameSeconds, new, events, fromPage, covers⟩ :=
    addPage_spec nodup_wanted progress.finds page.subset
  rw [cutShort_iff exact progress.below]
  unfold takePage at ends
  dsimp only at ends
  split at ends
  · rename_i notFull
    cases ends
    have short : (relay.page base cursor).length < maxReqLimit := by simpa using notFull
    constructor
    · rintro ⟨-, all⟩ ⟨-, event, isWanted, within, notPaged, notFound⟩
      rcases all event isWanted with found | noted
      · rw [events] at found
        rcases List.mem_append.mp found with before | isNew
        · exact notFound before
        · exact notPaged (fromPage isNew)
      · rw [sameSeconds] at noted
        obtain ⟨last, isLast, above⟩ := progress.passed _ noted
        have := within last isLast
        omega
    · intro notCut
      refine ⟨finds, ?_⟩
      intro event isWanted
      by_cases found : event ∈ (fetched.addPage (relay.page base cursor)).events
      · exact .inl found
      · right
        rw [events] at found
        have notBefore : event ∉ fetched.events := fun before =>
          found (List.mem_append_left _ before)
        rw [sameSeconds]
        refine (progress.left event isWanted notBefore).resolve_left ?_
        intro within
        exact notCut ⟨short, event, isWanted, within, fun paged => found (covers paged),
          notBefore⟩
  · rename_i full
    have isFull : maxReqLimit ≤ (relay.page base cursor).length := by simpa using full
    refine iff_of_true ?_ fun cutShort => Nat.not_lt.mpr isFull cutShort.1
    have nonempty : relay.page base cursor ≠ [] := by
      intro empty
      rw [empty] at isFull
      exact absurd isFull (by decide)
    obtain ⟨attained, -⟩ := oldestOf_spec nonempty fun event isPaged =>
      (times_wanted exact (page.subset isPaged)).trans (by decide)
    split at ends
    · rename_i nothingNew
      rw [events, List.length_append, Nat.add_sub_cancel_left] at nothingNew
      have noNew : new = [] := List.length_eq_zero_iff.mp nothingNew
      rw [noNew, List.append_nil] at events covers
      split at ends
      · rename_i isZero
        cases ends
        refine ⟨⟨finds.subset, finds.distinct⟩, ?_⟩
        intro event isWanted
        by_cases found : event ∈ fetched.events
        · exact .inl (events ▸ found)
        · right
          rw [sameSeconds]
          refine (progress.stalled page covers attained isWanted found).resolve_left ?_
          omega
      · cases ends
    · cases ends

end

/-! ## Every page -/

/-- Paging that stands somewhere comes to stand somewhere else. -/
inductive Visits (relay : HonestRelay trigger) (base : Filter) :
    Fetched → Option Nat → Fetched → Option Nat → Prop
  | here (fetched : Fetched) (cursor : Option Nat) : Visits relay base fetched cursor fetched cursor
  | later {fetched out last : Fetched} {cursor final : Option Nat} {bound : Nat}
      (goesOn : takePage fetched (relay.page base cursor) = .next out bound)
      (visits : Visits relay base out (some bound) last final) :
      Visits relay base fetched cursor last final

section

variable {fetched out : Fetched} {cursor : Option Nat} {pages : Nat}

theorem run_query
    (serves : relay.Serves base)
    (cursor : Option Nat) :
    (query (pageFilter base cursor)).run relay.answer () =
      ((), .ok (relay.page base cursor)) := by
  have answered := answerQuery_page serves cursor
  have runs : (query (pageFilter base cursor)).run relay.answer () =
      ((), (relay.answerQuery (pageFilter base cursor)).mapError .relay) := rfl
  rw [runs, answered]
  rfl

theorem run_finished
    (serves : relay.Serves base)
    (ends : takePage fetched (relay.page base cursor) = .finished out)
    (pages : Nat) :
    (fetchPages base (pages + 1) fetched cursor).run relay.answer () = ((), .ok out) := by
  rw [fetchPages]
  refine (Fallible.run_andThen (run_query serves cursor)).trans ?_
  rw [ends]
  rfl

theorem run_next
    (serves : relay.Serves base)
    {bound : Nat}
    (goesOn : takePage fetched (relay.page base cursor) = .next out bound)
    (pages : Nat) :
    (fetchPages base (pages + 1) fetched cursor).run relay.answer () =
      (fetchPages base pages out (some bound)).run relay.answer () := by
  rw [fetchPages]
  refine (Fallible.run_andThen (run_query serves cursor)).trans ?_
  rw [goesOn]

/-- Paging ends: every page finds an event or passes a second. -/
theorem Progress.ends
    (exact : relay.TimesExact)
    (serves : relay.Serves base)
    (progress : relay.Progress base fetched cursor) :
    ∃ pages out, (fetchPages base pages fetched cursor).run relay.answer () = ((), .ok out) := by
  induction left : relay.remaining base fetched cursor using Nat.strong_induction_on
    generalizing fetched cursor with
  | h left inductionHypothesis =>
      subst left
      cases taken : takePage fetched (relay.page base cursor) with
      | finished out => exact ⟨1, out, run_finished serves taken 0⟩
      | next out bound =>
          obtain ⟨later, -, less⟩ := progress.next exact taken
          obtain ⟨pages, last, runs⟩ := inductionHypothesis _ less later rfl
          exact ⟨pages + 1, last, (run_next serves taken pages).trans runs⟩

/-- What paging ends with finds everything exactly when no page it came to was cut
short. -/
theorem Progress.findsAll_iff
    (exact : relay.TimesExact)
    (serves : relay.Serves base)
    (progress : relay.Progress base fetched cursor)
    (runs : (fetchPages base pages fetched cursor).run relay.answer () = ((), .ok out)) :
    relay.FindsAll base out ↔ ∀ last final, relay.Visits base fetched cursor last final →
      ¬relay.CutShort base last final := by
  induction pages generalizing fetched cursor with
  | zero => cases runs
  | succ pages inductionHypothesis =>
      cases taken : takePage fetched (relay.page base cursor) with
      | finished ended =>
          have same := (run_finished serves taken pages).symm.trans runs
          cases same
          rw [progress.finished exact taken]
          constructor
          · intro notCut last final visits
            cases visits with
            | here => exact notCut
            | later goesOn _ =>
                rw [taken] at goesOn
                cases goesOn
          · exact fun never => never _ _ (.here _ _)
      | next found bound =>
          obtain ⟨later, notCut, -⟩ := progress.next exact taken
          rw [run_next serves taken] at runs
          rw [inductionHypothesis later runs]
          constructor
          · intro never last final visits
            cases visits with
            | here => exact notCut
            | later goesOn visits =>
                rw [taken] at goesOn
                cases goesOn
                exact never _ _ visits
          · exact fun never last final visits => never last final (.later taken visits)

end

/-- Paging ends, with every unexpired event that matches and may be read exactly
once, those of the seconds it notes excepted. -/
def FetchesAll (relay : HonestRelay trigger) (base : Filter) : Prop :=
  ∃ pages out, (fetchAll pages base).run relay.answer () = ((), .ok out) ∧
    relay.FindsAll base out

/-- Paging finds everything exactly when no page that it comes to is cut short. -/
theorem fetchesAll_iff
    (relay : HonestRelay trigger)
    (base : Filter)
    (exact : relay.TimesExact)
    (serves : relay.Serves base) :
    relay.FetchesAll base ↔ ∀ fetched cursor,
      relay.Visits base .empty base.until fetched cursor →
        ¬relay.CutShort base fetched cursor := by
  have start : relay.Progress base .empty base.until := progress_start exact
  constructor
  · rintro ⟨pages, out, runs, findsAll⟩
    exact (start.findsAll_iff exact serves runs).mp findsAll
  · intro never
    obtain ⟨pages, out, runs⟩ := start.ends exact serves
    exact ⟨pages, out, runs, (start.findsAll_iff exact serves runs).mpr never⟩

end HonestRelay

/-! ## A page with an expired event -/

/-- A store of some rows with their index. -/
def storeOf (rows : List Relay.EventRow) (distinct : (rows.map Relay.EventRow.id).Nodup) :
    Relay.Store .probeBlind where
  events := rows
  tags := rows.flatMap Relay.TagTrigger.probeBlind.tagRows
  distinctIds := distinct
  indexed := fun entry => by simp [List.mem_flatMap]

/-- A channel definition; the newest of a thousand has an expiration. -/
def channelRow (number : Nat) : Relay.EventRow where
  id := String.ofList (List.replicate number 'c')
  pubkey := "owner"
  createdAt := number
  kind := 40
  tags := if number = 1000 then [["expiration", "2000"]] else []
  content := ""
  sig := ""
  dTag := ""
  receivedAt := 0

/-- Some channel definitions, newest first. -/
def channelRows (count : Nat) : List Relay.EventRow :=
  ((List.range count).map channelRow).reverse

theorem nodup_channelRows (count : Nat) :
    ((channelRows count).map Relay.EventRow.id).Nodup := by
  unfold channelRows
  rw [List.map_reverse, List.nodup_reverse, List.map_map]
  apply List.Nodup.map _ List.nodup_range
  intro first second sameId
  have sameLength := congrArg String.length sameId
  simpa [channelRow] using sameLength

/-- A relay with some channel definitions. -/
def channelRelay (count : Nat) : HonestRelay .probeBlind where
  deployment := Relay.zonelessRelay
  store := storeOf (channelRows count) (nodup_channelRows count)
  order := Relay.newestFirst
  viewer := some "migrator"
  now := 3000

/-- Every channel definition. -/
def definitionsFilter : Filter :=
  { Filter.any with kinds := some [40] }

theorem mem_channelRows
    {count : Nat}
    {row : Relay.EventRow}
    (held : row ∈ channelRows count) :
    ∃ number < count, row = channelRow number := by
  unfold channelRows at held
  rw [List.mem_reverse, List.mem_map] at held
  obtain ⟨number, inside, rfl⟩ := held
  exact ⟨number, List.mem_range.mp inside, rfl⟩

/-- Every channel definition matches. -/
theorem selected_channels (count : Nat) :
    Relay.selectedRows (channelRelay count).store ((channelRelay count).under definitionsFilter none)
      maxReqLimit = channelRows count := by
  have all : ∀ row ∈ channelRows count,
      ([Relay.Condition.among .kind [1]].all fun condition =>
        condition.holds [.number (Relay.asF64 40), .number maxReqLimit]
          (channelRelay count).store.tags row) = true := by
    intro row held
    obtain ⟨number, -, rfl⟩ := mem_channelRows held
    simp [Relay.Condition.holds, Relay.boundAmong, Relay.boundTo, Relay.EventRow.column, channelRow,
      Relay.asF64_of_lt]
  exact List.filter_eq_self.mpr all

theorem rowsRead_channels (count : Nat) :
    (channelRelay count).rowsRead definitionsFilter none = (channelRows count).take maxReqLimit := by
  have sorted : (channelRows count).Pairwise
      fun first second => second.createdAt ≤ first.createdAt := by
    unfold channelRows
    rw [List.pairwise_reverse, List.pairwise_map]
    exact List.pairwise_lt_range.imp fun earlier => Nat.le_of_lt earlier
  unfold HonestRelay.rowsRead Relay.Store.queryRows
  rw [selected_channels]
  have same : (channelRelay count).order.order (channelRows count) = channelRows count :=
    List.Pairwise.insertionSort_eq sorted
  rw [same]

theorem formOf_expiring (count : Nat) :
    (channelRelay count).formOf (channelRow 1000) = none := by
  have sameForm : (channelRelay count).formOf = (channelRelay 0).formOf := by
    ext
    rfl
  rw [sameForm]
  decide +kernel

/-- Channel definitions are open to everyone without zones. -/
theorem readDecision_channel
    {event : NostrEvent}
    (isChannel : event.kind = 40)
    (viewer : Option String) :
    Relay.zonelessRelay.readDecision viewer event = .deliver := by
  have noZone : (Relay.zoneChannelId event).bind Relay.zonelessRelay.channelZone = none :=
    Option.bind_eq_none_iff.mpr fun _ _ => rfl
  simp [Relay.Deployment.readDecision, Relay.giftWrapReadableBy, Relay.Deployment.authorizeEvent,
    Relay.Deployment.channelReadable, noZone, isChannel, Relay.protectedReadPermitted,
    Relay.isProtectedReadKind, Relay.protectedReadKinds, Relay.isProjectedCalendarKind,
    Relay.kindCalendarDateEvent, Relay.kindCalendarEvent, Relay.kindCalendarRsvp,
    Relay.isKanbanKind]

theorem formOf_lasting
    (count : Nat)
    {number : Nat}
    (lasting : number ≠ 1000) :
    (channelRelay count).formOf (channelRow number) = some (channelRow number).intoNostrEvent := by
  have tags : (channelRow number).tags = [] := if_neg lasting
  have stays : Relay.isExpired (channelRow number).intoNostrEvent 3000 = false := by
    simp [Relay.isExpired, Relay.tagValue, Relay.EventRow.intoNostrEvent, tags]
  have isChannel : (channelRow number).intoNostrEvent.kind = 40 := by
    simp [Relay.EventRow.intoNostrEvent, channelRow]
  have deliver := readDecision_channel isChannel (some "migrator")
  have served : (channelRelay count).formOf (channelRow number) =
      Relay.ReadDecision.sent (channelRow number).intoNostrEvent
        (Relay.zonelessRelay.readDecision (some "migrator") (channelRow number).intoNostrEvent) :=
    if_neg (Bool.not_eq_true _ ▸ stays)
  rw [served, deliver]
  rfl

theorem serves_channels (count : Nat) : (channelRelay count).Serves definitionsFilter := by
  apply Option.isSome_iff_exists.mpr
  refine ⟨[definitionsFilter.asked.1], Relay.subscription_eq_some_iff.mpr ⟨?_, ?_⟩⟩
  · rfl
  · rfl

theorem timesExact_channels
    {count : Nat}
    (few : count ≤ 2 ^ 53) :
    (channelRelay count).TimesExact := by
  intro row held
  obtain ⟨number, inside, rfl⟩ := mem_channelRows held
  exact inside.trans_le few

/-- No page has more rows than the relay holds. -/
theorem length_rowsRead_channels
    (count : Nat)
    (cursor : Option Nat) :
    ((channelRelay count).rowsRead definitionsFilter cursor).length ≤ count := by
  have held : (channelRelay count).rowsRead definitionsFilter cursor ⊆ channelRows count :=
    fun _ read => Relay.mem_events_of_selected (Relay.mem_queryRows read)
  have all : (channelRows count).length = count := by simp [channelRows]
  have distinct : ((channelRelay count).rowsRead definitionsFilter cursor).Nodup :=
    Relay.nodup_queryRows
  exact (distinct.subperm held).length_le.trans_eq all

/-- A page holds all channel definitions but the oldest, when there is one too many. -/
theorem rowsRead_overfull :
    (channelRelay 1001).rowsRead definitionsFilter none =
      ((List.range' 1 1000).map channelRow).reverse := by
  rw [rowsRead_channels]
  unfold channelRows
  rw [List.range_eq_range', List.range'_succ, List.map_cons, List.reverse_cons]
  apply List.take_left'
  rw [List.length_reverse, List.length_map, List.length_range']
  rfl

theorem mem_rowsRead_overfull
    {row : Relay.EventRow} :
    row ∈ (channelRelay 1001).rowsRead definitionsFilter none ↔
      ∃ number, 1 ≤ number ∧ number < 1001 ∧ channelRow number = row := by
  rw [rowsRead_overfull, List.mem_reverse, List.mem_map]
  simp only [List.mem_range'_1, and_assoc]

/-- The page is cut short: its newest row has expired, and the oldest row is
left out. -/
theorem cutShort_channels :
    (channelRelay 1001).CutShort definitionsFilter .empty none := by
  constructor
  case limited =>
    rw [rowsRead_overfull, List.length_reverse, List.length_map, List.length_range']
    rfl
  case hidden =>
    refine ⟨channelRow 1000, mem_rowsRead_overfull.mpr ?_, formOf_expiring 1001⟩
    exact ⟨1000, by decide, by decide, rfl⟩
  case leftOut =>
    have lasting := formOf_lasting 1001 (show 0 ≠ 1000 by decide)
    have selected : channelRow 0 ∈ channelRows 1001 :=
      List.mem_reverse.mpr (List.mem_map_of_mem (List.mem_range.mpr (by decide)))
    have isWanted : (channelRow 0).intoNostrEvent ∈ (channelRelay 1001).wanted definitionsFilter :=
      HonestRelay.mem_wanted.mpr
        ⟨channelRow 0, (selected_channels 1001).symm ▸ selected, lasting⟩
    refine ⟨_, isWanted, ?_, ?_, List.not_mem_nil⟩
    · intro bound isBound
      cases isBound
    · intro isPaged
      obtain ⟨row, read, isForm⟩ := List.mem_filterMap.mp isPaged
      obtain ⟨number, positive, -, rfl⟩ := mem_rowsRead_overfull.mp read
      have sameTime : (channelRow 0).intoNostrEvent.createdAt = number :=
        (HonestRelay.stamp_of_formOf isForm).2
      have isZero : (channelRow 0).intoNostrEvent.createdAt = 0 := by decide
      omega

/-- With one expired event in a full page paging misses the oldest channel
definition. -/
theorem expired_row_ends_paging :
    (channelRelay 1001).TimesExact ∧ (channelRelay 1001).Serves definitionsFilter ∧
      ¬(channelRelay 1001).FetchesAll definitionsFilter := by
  have exact : (channelRelay 1001).TimesExact := timesExact_channels (by decide)
  refine ⟨exact, serves_channels 1001, ?_⟩
  rintro ⟨pages, out, runs, findsAll⟩
  have start : (channelRelay 1001).Progress definitionsFilter .empty definitionsFilter.until :=
    HonestRelay.progress_start exact
  exact (start.findsAll_iff exact (serves_channels 1001) runs).mp findsAll _ _ (.here _ _)
    cutShort_channels

theorem fetchesAll_iff_few : (channelRelay 3).FetchesAll definitionsFilter := by
  apply ((channelRelay 3).fetchesAll_iff definitionsFilter (timesExact_channels (by decide))
    (serves_channels 3)).mpr
  intro fetched cursor _ cutShort
  have limited := cutShort.limited
  have few := length_rowsRead_channels 3 cursor
  rw [limited] at few
  exact absurd few (by decide)

end ZoneMigrate
end NostrBbs
