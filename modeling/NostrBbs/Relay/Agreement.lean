import NostrBbs.Relay.Delivery

/-!
# Live delivery against REQ

A broadcast decides for itself which kinds it gates and how it matches the
recipient of a gift wrap.  It sends a subscription what a REQ on the same
filters would deliver, in the same form, except for metadata of a channel in a
zone hidden from the viewer and for gift wraps whose recipient the two paths
compare differently.
-/

namespace NostrBbs
namespace Relay

/-- Metadata of a channel that is bound to a zone hidden from the viewer. -/
def Deployment.HiddenMetadata (deployment : Deployment) (viewer : Option String)
    (event : NostrEvent) : Prop :=
  event.kind = 41 ∧ ∃ channel zone, channelTag event = some channel ∧
    deployment.channelZone channel = some zone ∧
    (deployment.resolveViewerContext viewer).isAdmin = false ∧
    zoneReadPermitted deployment.zones zone (deployment.resolveViewerContext viewer) = false ∧
    deployment.zones.defsVisibleToNonmember zone = false

/-- A gift wrap to one of whose parties a viewer is authenticated, and that has
no recipient, or whose first recipient is the viewer's key in other letter
cases, or is the viewer's and empty. -/
def MisreadWrap (viewer : Option String) (event : NostrEvent) : Prop :=
  event.kind = 1059 ∧ ∃ key, viewer = some key ∧
    isParty event.pubkey (recipients event) key ∧
    ∀ recipient, tagValue event "p" = some recipient →
      eqIgnoreAsciiCase recipient key ∧ (recipient = key → key = "")

section

variable {deployment : Deployment} {viewer : Option String} {event : NostrEvent}

/-! ## Channel events -/

theorem channelReadable_of_not_channel
    (context : ViewerContext)
    (notChannel : event.kind ≠ 40 ∧ event.kind ≠ 41 ∧ event.kind ≠ 42) :
    deployment.channelReadable event context = true := by
  have noChannel : zoneChannelId event = none := by
    unfold zoneChannelId
    split
    · exact absurd ‹_› notChannel.1
    · exact absurd ‹_› notChannel.2.1
    · exact absurd ‹_› notChannel.2.2
    · rfl
  simp [Deployment.channelReadable, noChannel]

/-- Channel metadata is withheld exactly when its zone is hidden. -/
theorem channelReadable_metadata
    (metadata : event.kind = 41) :
    deployment.channelReadable event (deployment.resolveViewerContext viewer) = false ↔
      deployment.HiddenMetadata viewer event := by
  have channel : zoneChannelId event = channelTag event := by
    simp [zoneChannelId, metadata]
  unfold Deployment.channelReadable Deployment.HiddenMetadata
  rw [channel]
  cases named : channelTag event with
  | none => simp
  | some id =>
      cases bound : deployment.channelZone id with
      | none => simp [bound]
      | some zone => simp [bound, metadata, and_assoc]

/-! ## The decision of each path -/

/-- Outside calendar and kanban kinds an event is sent as it is or withheld. -/
theorem sent_plain
    (plain : isProjectedCalendarKind event.kind = false ∧ isKanbanKind event.kind = false)
    (viewer : Option String) :
    (deployment.authorizeEvent event (deployment.resolveViewerContext viewer)).sent event =
      if protectedReadPermitted event.kind event.pubkey (recipients event) viewer
          deployment.authMode &&
        deployment.channelReadable event (deployment.resolveViewerContext viewer)
      then some event else none := by
  have sameViewer : (deployment.resolveViewerContext viewer).sessionPubkey = viewer := rfl
  unfold Deployment.authorizeEvent
  rw [sameViewer]
  cases protectedReadPermitted event.kind event.pubkey (recipients event) viewer
    deployment.authMode <;>
  cases deployment.channelReadable event (deployment.resolveViewerContext viewer) <;>
    simp [plain, ReadDecision.sent]

/-- The two paths agree on a kind that both gate. -/
theorem agree_of_needsGate
    (gated : needsGate event.kind) :
    deployment.broadcastForm viewer event =
      (deployment.readDecision viewer event).sent event := by
  have notWrap : event.kind ≠ 1059 := by
    intro isWrap
    rw [isWrap] at gated
    revert gated
    decide
  have sameViewer : (deployment.resolveViewerContext viewer).sessionPubkey = viewer := rfl
  unfold Deployment.broadcastForm Deployment.readDecision giftWrapReadableBy
  simp only [notWrap, gated, ne_eq, not_false_eq_true, if_true, false_and, if_false]
  split
  · rename_i refused
    simp [Deployment.authorizeEvent, sameViewer, refused, ReadDecision.sent]
  · rfl

/-- On channel metadata they agree unless the zone is hidden. -/
theorem agree_metadata_iff
    (metadata : event.kind = 41) :
    deployment.broadcastForm viewer event =
        (deployment.readDecision viewer event).sent event ↔
      ¬deployment.HiddenMetadata viewer event := by
  have broadcast : deployment.broadcastForm viewer event = some event := by
    simp [Deployment.broadcastForm, metadata, protectedReadPermitted, isProtectedReadKind,
      protectedReadKinds, needsGate, isProjectedCalendarKind, isKanbanKind,
      kindCalendarDateEvent, kindCalendarEvent, kindCalendarRsvp]
  have permitted : protectedReadPermitted event.kind event.pubkey (recipients event) viewer
      deployment.authMode = true := by
    simp [metadata, protectedReadPermitted, isProtectedReadKind, protectedReadKinds]
  have plain : isProjectedCalendarKind event.kind = false ∧ isKanbanKind event.kind = false := by
    rw [metadata]
    decide
  have readable : giftWrapReadableBy event viewer = true := by
    simp [giftWrapReadableBy, metadata]
  rw [broadcast, ← channelReadable_metadata metadata]
  unfold Deployment.readDecision
  rw [if_pos readable, sent_plain plain, permitted, Bool.true_and]
  cases deployment.channelReadable event (deployment.resolveViewerContext viewer) <;> simp

/-- A gift wrap is readable by its first recipient, when that is not empty. -/
theorem giftWrapReadableBy_wrap
    (wrap : event.kind = 1059)
    (viewer : Option String) :
    giftWrapReadableBy event viewer = viewer.any fun key =>
      (tagValue event "p").any fun recipient =>
        recipient != "" && eqIgnoreAsciiCase recipient key := by
  unfold giftWrapReadableBy giftWrapRecipient
  cases tagValue event "p" with
  | none => cases viewer <;> simp [wrap]
  | some recipient =>
      by_cases empty : recipient = ""
      · cases viewer <;> simp [wrap, empty]
      · cases viewer <;> simp [wrap, empty, Option.filter]

/-- What a broadcast and a REQ make of a gift wrap for a party to it. -/
theorem agree_wrap_iff
    (wrap : event.kind = 1059) :
    deployment.broadcastForm viewer event =
        (deployment.readDecision viewer event).sent event ↔
      ¬MisreadWrap viewer event := by
  have plain : isProjectedCalendarKind event.kind = false ∧ isKanbanKind event.kind = false := by
    rw [wrap]
    decide
  have channel : deployment.channelReadable event (deployment.resolveViewerContext viewer) =
      true :=
    channelReadable_of_not_channel _ (by omega)
  have permitted : protectedReadPermitted event.kind event.pubkey (recipients event) viewer
      deployment.authMode = viewer.any (isParty event.pubkey (recipients event)) := by
    simp [wrap, protectedReadPermitted, isProtectedReadKind, protectedReadKinds,
      isCorrespondenceKind]
  have ungated : needsGate event.kind = false := by
    rw [wrap]
    decide
  have broadcast : deployment.broadcastForm viewer event =
      if viewer.any (isParty event.pubkey (recipients event)) &&
        (tagValue event "p").all fun recipient => viewer == some recipient
      then some event else none := by
    unfold Deployment.broadcastForm
    rw [permitted, ungated]
    cases viewer.any (isParty event.pubkey (recipients event)) <;>
      cases tagValue event "p" <;> simp [wrap]
  have read : (deployment.readDecision viewer event).sent event =
      if giftWrapReadableBy event viewer &&
        viewer.any (isParty event.pubkey (recipients event))
      then some event else none := by
    unfold Deployment.readDecision
    cases giftWrapReadableBy event viewer with
    | true =>
        rw [if_pos rfl, sent_plain plain, permitted, channel]
        simp
    | false => simp [ReadDecision.sent]
  rw [broadcast, read, giftWrapReadableBy_wrap wrap]
  unfold MisreadWrap
  cases viewer with
  | none => simp
  | some key =>
      cases party : isParty event.pubkey (recipients event) key with
      | false => simp [party]
      | true =>
          cases named : tagValue event "p" with
          | none => simp [wrap, party]
          | some recipient =>
              by_cases isKey : recipient = key
              · subst isKey
                by_cases empty : recipient = ""
                · subst empty
                  simp [wrap, party, eqIgnoreAsciiCase_refl]
                · simp [wrap, party, eqIgnoreAsciiCase_refl, empty]
              · have notSame : key ≠ recipient := Ne.symm isKey
                by_cases empty : recipient = ""
                · subst empty
                  have unlike : eqIgnoreAsciiCase "" key = false := by
                    by_contra like
                    exact isKey (eq_empty_of_eqIgnoreAsciiCase (by simpa using like)).symm
                  simp [wrap, party, notSame, unlike]
                · cases like : eqIgnoreAsciiCase recipient key <;>
                    simp [wrap, party, notSame, isKey, empty, like]

/-- The two paths agree on every other kind. -/
theorem agree_of_other
    (ungated : needsGate event.kind = false)
    (notMetadata : event.kind ≠ 41)
    (notWrap : event.kind ≠ 1059) :
    deployment.broadcastForm viewer event =
      (deployment.readDecision viewer event).sent event := by
  simp only [needsGate, Bool.or_eq_false_iff, beq_eq_false_iff_ne] at ungated
  obtain ⟨⟨⟨notDefinition, notContent⟩, notCalendar⟩, notKanban⟩ := ungated
  have channel : deployment.channelReadable event (deployment.resolveViewerContext viewer) =
      true :=
    channelReadable_of_not_channel _ ⟨notDefinition, notMetadata, notContent⟩
  have stillUngated : needsGate event.kind = false := by
    simp [needsGate, notDefinition, notContent, notCalendar, notKanban]
  unfold Deployment.broadcastForm Deployment.readDecision giftWrapReadableBy
  simp only [notWrap, ne_eq, not_false_eq_true, if_true, false_and, if_false, stillUngated,
    Bool.false_eq_true]
  rw [sent_plain ⟨notCalendar, notKanban⟩, channel, Bool.and_true]
  cases protectedReadPermitted event.kind event.pubkey (recipients event) viewer
    deployment.authMode <;> simp

/-- A broadcast and a REQ send a viewer the same form of a matching event,
or both nothing, exactly outside the two cases. -/
theorem forms_agree_iff :
    deployment.broadcastForm viewer event =
        (deployment.readDecision viewer event).sent event ↔
      ¬(deployment.HiddenMetadata viewer event ∨ MisreadWrap viewer event) := by
  by_cases metadata : event.kind = 41
  · have notWrap : ¬MisreadWrap viewer event := fun misread => by
      have wrap := misread.1
      omega
    rw [agree_metadata_iff metadata]
    simp [notWrap]
  · have notMetadata : ¬deployment.HiddenMetadata viewer event := fun hidden => metadata hidden.1
    by_cases wrap : event.kind = 1059
    · rw [agree_wrap_iff wrap]
      simp [notMetadata]
    · have notWrap : ¬MisreadWrap viewer event := fun misread => wrap misread.1
      cases gated : needsGate event.kind with
      | true => simp [agree_of_needsGate gated, notMetadata, notWrap]
      | false => simp [agree_of_other gated metadata wrap, notMetadata, notWrap]

/-! ## Subscriptions -/

/-- What a REQ stores does not depend on the rows it finds. -/
theorem subscription_eq_some_iff
    {filters gated : List NostrFilter}
    {query : List NostrFilter → List NostrEvent} :
    (deployment.handleReq viewer filters query).subscription = some gated ↔
      protectedReadBlocked filters viewer.isSome deployment.authMode = false ∧
        gateKind1059Filters filters viewer = some gated := by
  unfold Deployment.handleReq
  split
  · rename_i blocked
    simp [ReqOutcome.subscription, blocked]
  · rename_i notBlocked
    split <;> simp_all [ReqOutcome.subscription]

/-- A subscription opened before authenticating is the one that the
authenticated session would open. -/
theorem subscription_of_unauthenticated
    {filters gated : List NostrFilter}
    {query : List NostrFilter → List NostrEvent}
    (opened : (deployment.handleReq none filters query).subscription = some gated)
    (viewer : Option String) :
    (deployment.handleReq viewer filters query).subscription = some gated := by
  rw [subscription_eq_some_iff] at opened ⊢
  obtain ⟨notBlocked, passed⟩ := opened
  constructor
  · unfold protectedReadBlocked at notBlocked ⊢
    cases viewer with
    | none => exact notBlocked
    | some key => simp
  · unfold gateKind1059Filters at passed ⊢
    split at passed
    · rename_i unnamed
      rw [if_pos unnamed]
      exact passed
    · cases passed

end

/-- A subscription of a live session that its REQ opened, before or after the
session authenticated. -/
structure Deployment.OpenSubscription (deployment : Deployment) (sessions : Sessions)
    (session : Session) (subId : String) (filters gated : List NostrFilter) : Prop where
  isSession : session ∈ sessions.entries
  isSubscription : (subId, gated) ∈ session.subscriptions
  opened : ∃ openedAs query, (openedAs = none ∨ openedAs = session.authedPubkey) ∧
    (deployment.handleReq openedAs filters query).subscription = some gated

/-- What a broadcast of an event sends to a subscription is what a REQ of its
filters would deliver of that event. -/
def Deployment.DeliveryAgrees (deployment : Deployment) (sessions : Sessions)
    (session : Session) (subId : String) (filters : List NostrFilter)
    (event : NostrEvent) : Prop :=
  ∀ out, ⟨session.connection, subId, out⟩ ∈ deployment.broadcastEvent sessions event ↔
    out ∈ (deployment.handleReq session.authedPubkey filters (matchingEvents [event])).delivered

/-- A relay with one channel, bound to a zone hidden from outsiders. -/
def hiddenChannelRelay : Deployment where
  authMode := .nip42
  zones := ⟨[⟨"family", ["family"], .hiddenZone⟩]⟩
  deviceKeysEnabled := false
  deviceOwner := fun _ => none
  isAdmin := fun _ => false
  viewerCohorts := fun _ => ([], false)
  channelZone := fun channel => if channel = "kitchen" then some "family" else none
  storedTags := fun _ => none

/-- A filter on one kind. -/
def filterKind (kind : Nat) : NostrFilter where
  ids := none
  authors := none
  kinds := some [kind]
  since := none
  «until» := none
  search := none
  extra := .empty

/-- An anonymous session subscribed to one kind. -/
def anonymousSession (kind : Nat) : Session where
  connection := 1
  authedPubkey := none
  subscriptions := [("live", [filterKind kind])]
  distinct := by simp

/-- An event about the channel of the relay above. -/
def channelEvent (kind : Nat) : NostrEvent where
  id := "event"
  pubkey := "owner"
  createdAt := 1
  kind := kind
  tags := [["e", "kitchen"]]
  content := "a new name"
  sig := ""

theorem openSubscription_anonymous
    {kind : Nat}
    (unprotected : isProtectedReadKind kind = false)
    (notWrap : kind ≠ 1059) :
    hiddenChannelRelay.OpenSubscription ⟨[anonymousSession kind], by simp⟩
      (anonymousSession kind) "live" [filterKind kind] [filterKind kind] where
  isSession := by simp
  isSubscription := by simp [anonymousSession]
  opened := by
    refine ⟨none, fun _ => [], .inl rfl, subscription_eq_some_iff.mpr ⟨?_, ?_⟩⟩
    · simp [protectedReadBlocked, filterKind, unprotected]
    · simp [gateKind1059Filters, namesGiftWraps, filterKind, Ne.symm notWrap]

end Relay
end NostrBbs
