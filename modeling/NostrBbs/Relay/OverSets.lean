import NostrBbs.Lib.Counting
import NostrBbs.Relay.Delivery
import NostrBbs.Relay.Query

/-!
# REQ and COUNT over sets

A frame asks for the stored events that match at least one of its filters.  The
relay runs one query for each filter and puts the rows together, so that a row
that two filters find is sent and counted twice.
-/

namespace NostrBbs
namespace Relay

/-- A frame that reads: the key of its session, its filters with their limits and
the time. -/
structure ReadFrame where
  viewer : Option String
  filters : List (NostrFilter × Option Nat)
  now : Nat

namespace Deployment

variable {trigger : TagTrigger} (deployment : Deployment) (store : Store trigger)
  (order : RowOrder) (frame : ReadFrame)

/-! ## The answers -/

/-- What a REQ comes to. -/
def answerReq : ReqOutcome :=
  deployment.handleReq frame.viewer (frame.filters.map Prod.fst) fun gated =>
    store.queryEvents order frame.now (gated.zip (frame.filters.map Prod.snd))

/-- What a COUNT answers. -/
def answerCount : Nat :=
  deployment.handleCount frame.viewer (frame.filters.map Prod.fst) fun gated =>
    store.queryEvents order frame.now (gated.zip (frame.filters.map Prod.snd))

/-- The filters that the gates leave of a frame: none when they refuse it, and
those that name gift wraps bound to the session. -/
def admitted : List (NostrFilter × Option Nat) :=
  if protectedReadBlocked (frame.filters.map Prod.fst) frame.viewer.isSome deployment.authMode
  then []
  else ((gateKind1059Filters (frame.filters.map Prod.fst) frame.viewer).getD []).zip
    (frame.filters.map Prod.snd)

/-- The form in which the session may read a stored row, if it may. -/
def servedForm (row : EventRow) : Option NostrEvent :=
  if isExpired row.intoNostrEvent frame.now then none
  else (deployment.readDecision frame.viewer row.intoNostrEvent).sent row.intoNostrEvent

/-- The stored rows that the session may read and that match a filter asked. -/
def askedRows : List EventRow :=
  store.events.filter fun row => (deployment.servedForm frame row).isSome &&
    eventMatchesFilters row.intoNostrEvent (frame.filters.map Prod.fst)

/-- COUNT numbers the rows asked for and REQ sends each once. -/
def AnswersOverSets : Prop :=
  deployment.answerCount store order frame = (deployment.askedRows store frame).length ∧
    (deployment.answerReq store order frame).delivered.Perm
      ((deployment.askedRows store frame).filterMap (deployment.servedForm frame))

/-! ## When the queries keep apart -/

/-- No row that the session may read is found by two of the admitted filters, and
such a row is found by one of them exactly when it matches a filter asked. -/
structure KeepsApart : Prop where
  apart : (deployment.admitted frame).Pairwise fun first second =>
    ∀ row ∈ store.events, (deployment.servedForm frame row).isSome →
      ¬(row ∈ store.foundRows first ∧ row ∈ store.foundRows second)
  agrees : ∀ row ∈ store.events, (deployment.servedForm frame row).isSome →
    ((∃ asked ∈ deployment.admitted frame, row ∈ store.foundRows asked) ↔
      eventMatchesFilters row.intoNostrEvent (frame.filters.map Prod.fst))

end Deployment

section

variable {trigger : TagTrigger} {deployment : Deployment} {store : Store trigger}
  {order : RowOrder} {frame : ReadFrame}

/-- The rows of a frame in the forms in which they are served. -/
theorem filterMap_queryEvents
    (filters : List (NostrFilter × Option Nat)) :
    ((store.queryEvents order frame.now filters).filterMap fun event =>
        (deployment.readDecision frame.viewer event).sent event) =
      (store.frameRows order maxRowsPerFrame filters).filterMap
        (deployment.servedForm frame) := by
  unfold Store.queryEvents Deployment.servedForm
  rw [List.filterMap_filter, List.filterMap_map]
  apply List.filterMap_congr
  intro row _
  simp only [Function.comp_apply, Bool.not_eq_true']
  cases isExpired row.intoNostrEvent frame.now <;> rfl

theorem delivered_answerReq :
    (deployment.answerReq store order frame).delivered =
      (store.frameRows order maxRowsPerFrame (deployment.admitted frame)).filterMap
        (deployment.servedForm frame) := by
  unfold Deployment.answerReq Deployment.handleReq Deployment.admitted
  split
  · rfl
  · split
    · rename_i refused
      rw [refused]
      rfl
    · rename_i gated passed
      rw [passed]
      exact filterMap_queryEvents _

theorem answerCount_eq :
    deployment.answerCount store order frame =
      (deployment.answerReq store order frame).delivered.length := by
  unfold Deployment.answerCount Deployment.answerReq Deployment.handleCount Deployment.handleReq
  split
  · rfl
  · split
    · rfl
    · rw [ReqOutcome.delivered, List.length_filterMap_eq_countP]

/-- The form of a row has its id and its time. -/
theorem stamp_of_servedForm
    {row : EventRow}
    {out : NostrEvent}
    (served : deployment.servedForm frame row = some out) :
    out.id = row.id ∧ out.createdAt = row.createdAt := by
  unfold Deployment.servedForm at served
  split at served
  · cases served
  · unfold Deployment.readDecision at served
    split at served
    · rcases form_cases served with rfl | ⟨-, rfl⟩
      · exact ⟨rfl, rfl⟩
      · exact ⟨rfl, rfl⟩
    · cases served

/-- The rows of a frame show what is asked for exactly when each readable row
comes as often as it is asked for. -/
theorem answersOverSets_iff_count :
    deployment.AnswersOverSets store order frame ↔
      ∀ row ∈ store.events, (deployment.servedForm frame row).isSome →
        (store.frameRows order maxRowsPerFrame (deployment.admitted frame)).count row =
          (deployment.askedRows store frame).count row := by
  have drawn : store.frameRows order maxRowsPerFrame (deployment.admitted frame) ⊆
      store.events := mem_events_of_frameRows
  have askedDrawn : deployment.askedRows store frame ⊆ store.events :=
    List.filter_subset_self _
  have ownForm : ∀ first ∈ store.events, ∀ second ∈ store.events, ∀ shown,
      deployment.servedForm frame first = some shown →
        deployment.servedForm frame second = some shown → first = second := by
    intro first firstHeld second secondHeld shown firstShown secondShown
    apply store.eq_of_id firstHeld secondHeld
    rw [← (stamp_of_servedForm firstShown).1, ← (stamp_of_servedForm secondShown).1]
  have sameForms := Lib.filterMap_perm_iff drawn askedDrawn ownForm
  have everyAsked : ((deployment.askedRows store frame).filterMap
      (deployment.servedForm frame)).length = (deployment.askedRows store frame).length := by
    rw [List.length_filterMap_eq_countP, List.countP_eq_length]
    intro row isAsked
    exact (Bool.and_eq_true_iff.mp (List.mem_filter.mp isAsked).2).1
  unfold Deployment.AnswersOverSets
  rw [answerCount_eq, delivered_answerReq, sameForms, and_iff_right_iff_imp, ← sameForms]
  intro same
  rw [← everyAsked]
  exact same.length_eq

theorem length_admitted :
    (deployment.admitted frame).length ≤ frame.filters.length := by
  unfold Deployment.admitted
  split
  · exact Nat.zero_le _
  · rw [List.length_zip, List.length_map]
    exact Nat.min_le_right _ _

/-- Within the limits a row comes once for each admitted filter that finds it. -/
theorem count_frameRows
    (few : frame.filters.length ≤ maxFilters)
    (within : ∀ asked ∈ deployment.admitted frame,
      (store.foundRows asked).length ≤ ownLimit asked.2)
    (row : EventRow) :
    (store.frameRows order maxRowsPerFrame (deployment.admitted frame)).count row =
      (deployment.admitted frame).countP fun asked => decide (row ∈ store.foundRows asked) := by
  rw [(frameRows_perm (length_admitted.trans few) within).count_eq]
  apply Lib.count_flatMap_of_nodup
  exact fun asked _ => nodup_selectedRows store asked.1 (ownLimit asked.2)

/-- A readable row is asked for once when it matches a filter. -/
theorem count_askedRows
    {row : EventRow}
    (held : row ∈ store.events)
    (readable : (deployment.servedForm frame row).isSome) :
    (deployment.askedRows store frame).count row =
      if eventMatchesFilters row.intoNostrEvent (frame.filters.map Prod.fst) then 1 else 0 := by
  have distinct : store.events.Nodup := List.Nodup.of_map _ store.distinctIds
  unfold Deployment.askedRows
  rw [(distinct.filter _).count]
  simp [List.mem_filter, held, readable]

/-- A saved event is found by the filters that match it. -/
theorem mem_foundRows_iff
    {event : NostrEvent}
    {savedAt : Nat}
    {asked : NostrFilter × Option Nat}
    (held : EventRow.ofEvent event savedAt ∈ store.events)
    (eventExact : event.Exact)
    (filterExact : asked.1.Exact) :
    EventRow.ofEvent event savedAt ∈ store.foundRows asked ↔ eventMatches event asked.1 := by
  have means := means_buildFilterConditions held eventExact filterExact
  unfold Store.foundRows
  rw [mem_selectedRows held]
  exact means.selects [.number (ownLimit asked.2)]

end

/-! ## Two filters that overlap -/

/-- Newest first, as the rows come within a second. -/
def newestFirst : RowOrder where
  order := List.insertionSort fun first second => second.createdAt ≤ first.createdAt
  perm := List.perm_insertionSort _
  newestFirst rows := by
    have total : Std.Total fun first second : EventRow => second.createdAt ≤ first.createdAt :=
      ⟨fun first second => Nat.le_total second.createdAt first.createdAt⟩
    have trans : IsTrans EventRow fun first second => second.createdAt ≤ first.createdAt :=
      ⟨fun _ _ _ older oldest => oldest.trans older⟩
    exact List.pairwise_insertionSort _ rows

/-- A relay without zones. -/
def zonelessRelay : Deployment where
  authMode := .nip42
  zones := ⟨[]⟩
  deviceKeysEnabled := false
  deviceOwner := fun _ => none
  isAdmin := fun _ => false
  viewerCohorts := fun _ => ([], false)
  channelZone := fun _ => none
  storedTags := fun _ => none

/-- A filter on one author. -/
def filterAuthor (author : String) : NostrFilter where
  ids := none
  authors := some [author]
  kinds := none
  since := none
  «until» := none
  search := none
  extra := Extra.empty

/-- The notes of an author and everything of that author. -/
def overlappingFrame : ReadFrame where
  viewer := none
  filters := [(topicFilter, none), (filterAuthor "author", none)]
  now := 100

/-- The notes of two authors. -/
def authorsFrame : ReadFrame where
  viewer := none
  filters := [(filterAuthor "author", none), (filterAuthor "other", some 20)]
  now := 100

end Relay
end NostrBbs
