import NostrBbs.Relay.ReadGate

/-!
# The three read paths

REQ serves the rows that a query finds for a subscription's filters, COUNT
numbers them, and a broadcast sends a new event to every live subscription that
matches it.  REQ and COUNT are taken from where the frame limits have admitted
the frame, and the query is a function of the filters.
-/

namespace NostrBbs
namespace Relay

/-- An event sent to a subscription of a connection. -/
structure Frame where
  connection : Nat
  subId : String
  event : NostrEvent
deriving DecidableEq

/-- A live session: its authenticated key and the filters of each of its
subscriptions. -/
structure Session where
  connection : Nat
  authedPubkey : Option String
  subscriptions : List (String × List NostrFilter)
  distinct : (subscriptions.map Prod.fst).Nodup

/-- The live sessions, one for each connection. -/
structure Sessions where
  entries : List Session
  distinct : (entries.map Session.connection).Nodup

/-- What a REQ comes to: a subscription that is refused, or one that is stored
with the events served for it. -/
inductive ReqOutcome where
  | closed (message : String)
  | notice (message : String)
  | served (subscription : List NostrFilter) (delivered : List NostrEvent)

/-- The events that a REQ delivers. -/
def ReqOutcome.delivered : ReqOutcome → List NostrEvent
  | closed _ => []
  | notice _ => []
  | served _ delivered => delivered

/-- The filters of the subscription that a REQ stores, if any. -/
def ReqOutcome.subscription : ReqOutcome → Option (List NostrFilter)
  | closed _ => none
  | notice _ => none
  | served filters _ => some filters

/-- The query that finds, for each filter, every stored event that matches. -/
def matchingEvents (stored : List NostrEvent) (filters : List NostrFilter) :
    List NostrEvent :=
  filters.flatMap fun filter => stored.filter fun event => eventMatches event filter

/-- The kinds that a broadcast decides for each recipient by the read gate. -/
def needsGate (kind : Nat) : Bool :=
  kind == 40 || kind == 42 || isProjectedCalendarKind kind || isKanbanKind kind

namespace Deployment

variable (deployment : Deployment)

/-- The decision that REQ and COUNT make for a row. -/
def readDecision (viewer : Option String) (event : NostrEvent) : ReadDecision :=
  if giftWrapReadableBy event viewer then
    deployment.authorizeEvent event (deployment.resolveViewerContext viewer)
  else .withhold

def handleReq (viewer : Option String) (filters : List NostrFilter)
    (query : List NostrFilter → List NostrEvent) : ReqOutcome :=
  if protectedReadBlocked filters viewer.isSome deployment.authMode then
    .closed "auth-required: authentication required to read protected kinds"
  else
    match gateKind1059Filters filters viewer with
    | none => .notice "auth-required: must authenticate to receive kind-1059 DMs"
    | some gated =>
        .served gated ((query gated).filterMap fun event =>
          (deployment.readDecision viewer event).sent event)

def handleCount (viewer : Option String) (filters : List NostrFilter)
    (query : List NostrFilter → List NostrEvent) : Nat :=
  if protectedReadBlocked filters viewer.isSome deployment.authMode then 0
  else
    match gateKind1059Filters filters viewer with
    | none => 0
    | some gated =>
        (query gated).countP fun event =>
          ((deployment.readDecision viewer event).sent event).isSome

/-- The event as a broadcast sends it to the subscriptions of a viewer, `none`
when the viewer's session is passed over. -/
def broadcastForm (viewer : Option String) (event : NostrEvent) : Option NostrEvent :=
  if !protectedReadPermitted event.kind event.pubkey (recipients event) viewer
      deployment.authMode then none
  else if event.kind = 1059 ∧ (tagValue event "p").any fun recipient => viewer ≠ some recipient
  then none
  else if needsGate event.kind then
    (deployment.authorizeEvent event (deployment.resolveViewerContext viewer)).sent event
  else some event

/-- What a broadcast sends to one session. -/
def broadcastTo (event : NostrEvent) (session : Session) : List Frame :=
  match deployment.broadcastForm session.authedPubkey event with
  | none => []
  | some out => session.subscriptions.filterMap fun subscription =>
      if eventMatchesFilters event subscription.2 then
        some ⟨session.connection, subscription.1, out⟩
      else none

/-- What a broadcast sends. -/
def broadcastEvent (sessions : Sessions) (event : NostrEvent) : List Frame :=
  sessions.entries.flatMap (deployment.broadcastTo event)

end Deployment

/-! ## What reaches a subscription -/

section

variable {deployment : Deployment}

theorem mem_broadcastTo
    {event : NostrEvent}
    {session : Session}
    {frame : Frame} :
    frame ∈ deployment.broadcastTo event session ↔
      frame.connection = session.connection ∧
        deployment.broadcastForm session.authedPubkey event = some frame.event ∧
        ∃ filters, (frame.subId, filters) ∈ session.subscriptions ∧
          eventMatchesFilters event filters := by
  unfold Deployment.broadcastTo
  split
  · rename_i passedOver
    simp [passedOver]
  · rename_i out sends
    simp only [List.mem_filterMap]
    constructor
    · rintro ⟨⟨subId, filters⟩, member, made⟩
      split at made
      · rename_i isMatch
        obtain rfl := Option.some.inj made
        exact ⟨rfl, sends, filters, member, isMatch⟩
      · cases made
    · rintro ⟨sameConnection, sameForm, filters, member, isMatch⟩
      rw [sends] at sameForm
      obtain rfl := Option.some.inj sameForm
      refine ⟨(frame.subId, filters), member, ?_⟩
      rw [if_pos isMatch, ← sameConnection]

/-- A broadcast reaches a subscription exactly when its filters match the event
and its session is sent the event in some form. -/
theorem mem_broadcastEvent
    {sessions : Sessions}
    {session : Session}
    (isSession : session ∈ sessions.entries)
    {subId : String}
    {filters : List NostrFilter}
    (isSubscription : (subId, filters) ∈ session.subscriptions)
    (event out : NostrEvent) :
    ⟨session.connection, subId, out⟩ ∈ deployment.broadcastEvent sessions event ↔
      eventMatchesFilters event filters ∧
        deployment.broadcastForm session.authedPubkey event = some out := by
  unfold Deployment.broadcastEvent
  simp only [List.mem_flatMap, mem_broadcastTo]
  constructor
  · rintro ⟨other, isOther, sameConnection, sends, others, member, isMatch⟩
    obtain rfl := List.inj_on_of_nodup_map sessions.distinct isSession isOther sameConnection
    have same := List.inj_on_of_nodup_map session.distinct isSubscription member rfl
    obtain rfl := (Prod.mk.inj same).2
    exact ⟨isMatch, sends⟩
  · rintro ⟨isMatch, sends⟩
    exact ⟨session, isSession, rfl, sends, filters, isSubscription, isMatch⟩

theorem mem_matchingEvents
    {stored : List NostrEvent}
    {filters : List NostrFilter}
    {event : NostrEvent} :
    event ∈ matchingEvents stored filters ↔
      event ∈ stored ∧ eventMatchesFilters event filters := by
  unfold matchingEvents eventMatchesFilters
  simp only [List.mem_flatMap, List.mem_filter, List.any_eq_true]
  exact ⟨fun ⟨filter, isFilter, isStored, isMatch⟩ => ⟨isStored, filter, isFilter, isMatch⟩,
    fun ⟨isStored, filter, isFilter, isMatch⟩ => ⟨filter, isFilter, isStored, isMatch⟩⟩

/-- An event is sent as it is, or as the free/busy block of a calendar event. -/
theorem form_cases
    {event out : NostrEvent}
    {context : ViewerContext}
    (sent : (deployment.authorizeEvent event context).sent event = some out) :
    out = event ∨ isProjectedCalendarKind event.kind ∧ out = toFreeBusy event := by
  have projected : ∀ {isOwner isAdmin : Bool},
      projectCalendarEvent context.viewerCohorts event isOwner isAdmin = some out →
        out = event ∨ out = toFreeBusy event := by
    intro isOwner isAdmin served
    unfold projectCalendarEvent at served
    split at served
    · exact .inl (Option.some.inj served).symm
    · split at served
      · exact .inl (Option.some.inj served).symm
      · exact .inr (Option.some.inj served).symm
      · cases served
  unfold Deployment.authorizeEvent at sent
  split at sent
  · cases sent
  · split at sent
    · rename_i calendar
      split at sent
      · rename_i served form
        obtain rfl := Option.some.inj sent
        unfold Deployment.projectCalendarForViewer at form
        dsimp only at form
        split at form
        · split at form
          · split at form
            · exact .inl (Option.some.inj form).symm
            · cases form
          · split at form
            · exact .inl (Option.some.inj form).symm
            · cases form
        · exact (projected form).imp_right fun redacted => ⟨calendar, redacted⟩
      · cases sent
    · split at sent <;> split at sent
      · exact .inl (Option.some.inj sent).symm
      · cases sent
      · exact .inl (Option.some.inj sent).symm
      · cases sent

/-- A REQ delivers the forms in which the rows found are read. -/
theorem mem_delivered
    {viewer : Option String}
    {filters : List NostrFilter}
    {query : List NostrFilter → List NostrEvent}
    {out : NostrEvent} :
    out ∈ (deployment.handleReq viewer filters query).delivered ↔
      ∃ gated, (deployment.handleReq viewer filters query).subscription = some gated ∧
        ∃ event ∈ query gated, (deployment.readDecision viewer event).sent event = some out := by
  unfold Deployment.handleReq
  split
  · simp [ReqOutcome.delivered, ReqOutcome.subscription]
  · split
    · simp [ReqOutcome.delivered, ReqOutcome.subscription]
    · simp [ReqOutcome.delivered, ReqOutcome.subscription]

end

end Relay
end NostrBbs
