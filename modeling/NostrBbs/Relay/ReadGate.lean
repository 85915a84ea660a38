import NostrBbs.Relay.Filter
import NostrBbs.Relay.Zones

/-!
# The read gates

What a session may read: the protected kinds and their parties, the gates that
a subscription passes before it is stored, and the decision made for each event
and viewer.  What the relay looks up in its configuration and its database is
one record of functions.
-/

namespace NostrBbs
namespace Relay

/-! ## Protected kinds -/

/-- How authentication is enforced. -/
inductive AuthMode where
  | allowlist | nip42
deriving DecidableEq, Repr

/-- Kinds whose reads require an authenticated session. -/
def protectedReadKinds : List Nat :=
  [4, 13, 14, 1059, 30910, 30911, 30912, 30913, 30914, 30915, 30916]

def isProtectedReadKind (kind : Nat) : Bool :=
  protectedReadKinds.contains kind

/-- The protected kinds that only the parties to them may read. -/
def isCorrespondenceKind (kind : Nat) : Bool :=
  kind == 4 || kind == 13 || kind == 14 || kind == 1059

/-- A key is the author or one of the recipients, up to ASCII case. -/
def isParty (author : String) (recipients : List String) (viewer : String) : Bool :=
  eqIgnoreAsciiCase viewer author || recipients.any fun recipient =>
    eqIgnoreAsciiCase recipient viewer

/-- Whether an event of a protected kind may be delivered to a viewer. -/
def protectedReadPermitted (kind : Nat) (author : String) (recipients : List String)
    (sessionPubkey : Option String) (mode : AuthMode) : Bool :=
  if !isProtectedReadKind kind then true
  else if isCorrespondenceKind kind then sessionPubkey.any (isParty author recipients)
  else mode != .nip42 || sessionPubkey.isSome

/-- Whether some filter names a protected kind without authentication. -/
def protectedReadBlocked (filters : List NostrFilter) (sessionAuthed : Bool)
    (mode : AuthMode) : Bool :=
  if mode != .nip42 || sessionAuthed then false
  else filters.any fun filter => filter.kinds.any fun kinds => kinds.any isProtectedReadKind

/-! ## Gift wraps -/

/-- The recipient of a gift wrap: its first `p` tag, when not empty. -/
def giftWrapRecipient (event : NostrEvent) : Option String :=
  if event.kind ≠ 1059 then none
  else (tagValue event "p").filter (· ≠ "")

/-- A gift wrap is shown to its recipient alone. -/
def giftWrapReadableBy (event : NostrEvent) (sessionPubkey : Option String) : Bool :=
  if event.kind ≠ 1059 then true
  else
    match giftWrapRecipient event, sessionPubkey with
    | some recipient, some viewer => eqIgnoreAsciiCase recipient viewer
    | _, _ => false

/-- A filter that names gift wraps. -/
def namesGiftWraps (filter : NostrFilter) : Bool :=
  filter.kinds.any fun kinds => kinds.contains 1059

/-- Filters that name gift wraps are bound to the authenticated recipient, and
refused without one. -/
def gateKind1059Filters (filters : List NostrFilter) (sessionPubkey : Option String) :
    Option (List NostrFilter) :=
  if !filters.any namesGiftWraps then some filters
  else sessionPubkey.map fun authed => filters.map fun filter =>
    if namesGiftWraps filter then
      { filter with extra := filter.extra.insert "#p" (.array [.string authed]) }
    else filter

/-! ## Viewers -/

/-- What the relay reads from its configuration and its database. -/
structure Deployment where
  authMode : AuthMode
  zones : ZoneConfig
  deviceKeysEnabled : Bool
  deviceOwner : String → Option String
  isAdmin : String → Bool
  viewerCohorts : String → List String × Bool
  channelZone : String → Option String
  storedTags : String → Option (List Tag)

/-- The resolved read scope of a viewer. -/
structure ViewerContext where
  sessionPubkey : Option String
  accessPubkey : Option String
  isAdmin : Bool
  viewerCohorts : List String
  viewerIsAdmin : Bool

/-- The decision for one event and viewer. -/
inductive ReadDecision where
  | deliver
  | deliverAs (out : NostrEvent)
  | withhold

/-- The event sent after a decision, if any. -/
def ReadDecision.sent (event : NostrEvent) : ReadDecision → Option NostrEvent
  | deliver => some event
  | deliverAs out => some out
  | withhold => none

/-- The owner of a registered device key stands in for it. -/
def effectivePrincipal (pubkey : String) (deviceOwner : Option String) (enabled : Bool) :
    String :=
  if enabled then deviceOwner.getD pubkey else pubkey

/-- Membership for reading: a public zone, an administrator or a cohort. -/
def zoneReadPermitted (zones : ZoneConfig) (zone : String) (context : ViewerContext) : Bool :=
  zones.isPublicRead zone || context.viewerIsAdmin ||
    zones.cohortsCanRead zone context.viewerCohorts

namespace Deployment

variable (deployment : Deployment)

def effectivePubkey (pubkey : String) : String :=
  effectivePrincipal pubkey (deployment.deviceOwner pubkey) deployment.deviceKeysEnabled

def resolveViewerContext (sessionPubkey : Option String) : ViewerContext :=
  let accessPubkey := sessionPubkey.map deployment.effectivePubkey
  let isAdmin := accessPubkey.any deployment.isAdmin
  let cohorts := accessPubkey.elim ([], false) deployment.viewerCohorts
  { sessionPubkey
    accessPubkey
    isAdmin
    viewerCohorts := cohorts.1
    viewerIsAdmin := isAdmin || cohorts.2 }

/-- The zone and venue of the event that an RSVP answers, read from the stored
event. -/
def resolveRsvpTarget (rsvp : NostrEvent) : Option (String × Option String) := do
  let targetId ← tagValue rsvp "e"
  let tags ← deployment.storedTags targetId
  let zone ← (tags.find? (isValued "zone")).map firstValue
  some (zone, (tags.find? (isValued "venue")).map firstValue)

/-- The form in which a calendar event is served to a viewer. -/
def projectCalendarForViewer (event : NostrEvent) (context : ViewerContext) :
    Option NostrEvent :=
  let isOwner := context.sessionPubkey == some event.pubkey
  if event.kind = kindCalendarRsvp then
    match deployment.resolveRsvpTarget event with
    | none => if context.viewerIsAdmin || isOwner then some event else none
    | some (zone, venue) =>
        -- a free/busy tier would leak who takes part
        if projectTier context.viewerCohorts zone venue isOwner context.viewerIsAdmin = .full
        then some event else none
  else projectCalendarEvent context.viewerCohorts event isOwner context.viewerIsAdmin

/-- A kanban board or card is read by its author and its zone's members. -/
def kanbanReadable (event : NostrEvent) (context : ViewerContext) : Bool :=
  match readZoneTag event with
  | none => true
  | some zone =>
      context.viewerIsAdmin || context.accessPubkey == some event.pubkey ||
        deployment.zones.isPublicRead zone ||
        deployment.zones.cohortsCanRead zone context.viewerCohorts

/-- A channel event is withheld by the zone its channel is bound to: content
from every non-member, definitions and their updates when the zone is
hidden. -/
def channelReadable (event : NostrEvent) (context : ViewerContext) : Bool :=
  match (zoneChannelId event).bind deployment.channelZone with
  | none => true
  | some zone =>
      context.isAdmin || zoneReadPermitted deployment.zones zone context ||
        ((event.kind == 40 || event.kind == 41) &&
          deployment.zones.defsVisibleToNonmember zone)

/-- The read decision for one event and viewer. -/
def authorizeEvent (event : NostrEvent) (context : ViewerContext) : ReadDecision :=
  if !protectedReadPermitted event.kind event.pubkey (recipients event)
      context.sessionPubkey deployment.authMode then .withhold
  else if isProjectedCalendarKind event.kind then
    match deployment.projectCalendarForViewer event context with
    | some out => .deliverAs out
    | none => .withhold
  else if isKanbanKind event.kind then
    if deployment.kanbanReadable event context then .deliver else .withhold
  else if deployment.channelReadable event context then .deliver
  else .withhold

end Deployment

end Relay
end NostrBbs
