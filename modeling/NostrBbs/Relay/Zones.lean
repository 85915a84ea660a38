import NostrBbs.Relay.Event

/-!
# Zones and calendar projection

The configured zones with their read rule, and the tiers in which a calendar
event is shown: in full, as a free/busy block or not at all.
-/

namespace NostrBbs
namespace Relay

/-- Visibility policy for non-members. -/
inductive ZoneVisibility where
  | publicZone | lockedZone | hiddenZone
deriving DecidableEq, Repr

/-- A zone definition, as far as reading goes. -/
structure Zone where
  id : String
  requiredCohorts : List String
  visibility : ZoneVisibility
deriving DecidableEq, Repr

/-- The configured zones. -/
structure ZoneConfig where
  zones : List Zone
deriving DecidableEq, Repr

namespace ZoneConfig

/-- A zone definition by id. -/
def get (config : ZoneConfig) (id : String) : Option Zone :=
  config.zones.find? fun zone => zone.id == id

/-- Readable with no authentication and no cohort. -/
def isPublicRead (config : ZoneConfig) (id : String) : Bool :=
  (config.get id).any fun zone =>
    zone.visibility == .publicZone && zone.requiredCohorts.isEmpty

/-- Whether a non-member is served the zone's channel definitions. -/
def defsVisibleToNonmember (config : ZoneConfig) (id : String) : Bool :=
  (config.get id).any fun zone => zone.visibility != .hiddenZone

/-- Read access from a cohort list; unknown zones deny. -/
def cohortsCanRead (config : ZoneConfig) (id : String) (cohorts : List String) : Bool :=
  match config.get id with
  | none => false
  | some zone =>
      if zone.requiredCohorts.isEmpty then zone.visibility == .publicZone
      else cohorts.any zone.requiredCohorts.contains

end ZoneConfig

/-! ## Calendar and kanban kinds -/

/-- Date-based and time-based calendar events and their RSVPs. -/
def kindCalendarDateEvent : Nat := 31922

def kindCalendarEvent : Nat := 31923

def kindCalendarRsvp : Nat := 31925

def isProjectedCalendarKind (kind : Nat) : Bool :=
  kind == kindCalendarDateEvent || kind == kindCalendarEvent || kind == kindCalendarRsvp

/-- Kanban boards and cards. -/
def isKanbanKind (kind : Nat) : Bool :=
  kind == 30301 || kind == 30302

def readZoneTag (event : NostrEvent) : Option String :=
  tagValue event "zone"

def readVenueTag (event : NostrEvent) : Option String :=
  tagValue event "venue"

/-- The recognised shared venues. -/
def isKnownVenue (venue : String) : Bool :=
  venue == "primary" || venue == "secondary"

/-! ## Projection -/

/-- The outcome of projecting a calendar event for a viewer. -/
inductive Projection where
  | full | freeBusy | omit
deriving DecidableEq, Repr

/-- The projection tier from the viewer's cohorts and the zone and venue of the
event; an unknown zone is omitted. -/
def projectTier (viewerCohorts : List String) (eventZone : String) (venue : Option String)
    (isOwner isAdmin : Bool) : Projection :=
  let has := viewerCohorts.contains
  if isOwner || isAdmin then .full
  else if has "admin" then .full
  else if has "family" then .full
  else if has "friends" then
    if eventZone = "friends" then .full
    else if eventZone = "family" ∨ eventZone = "business" then
      if venue.any isKnownVenue then .freeBusy else .omit
    else if eventZone = "public" then .full
    else .omit
  else if has "business" then
    if eventZone = "business" then .full
    else if eventZone = "family" ∨ eventZone = "friends" then .omit
    else if eventZone = "public" then .full
    else .omit
  else if eventZone = "public" then .full
  else .omit

/-- The redacted form of a calendar event: its time block and scope. -/
def toFreeBusy (event : NostrEvent) : NostrEvent :=
  { event with
    tags := (["d", "start", "end", "zone", "venue"].filterMap fun name =>
        event.tags.find? (isValued name)) ++ [["busy", "1"]]
    content := ""
    sig := "" }

/-- The calendar event to serve, `none` when it is omitted; an event without a
zone tag is served as it is. -/
def projectCalendarEvent (viewerCohorts : List String) (event : NostrEvent)
    (isOwner isAdmin : Bool) : Option NostrEvent :=
  match readZoneTag event with
  | none => some event
  | some zone =>
      match projectTier viewerCohorts zone (readVenueTag event) isOwner isAdmin with
      | .full => some event
      | .freeBusy => some (toFreeBusy event)
      | .omit => none

end Relay
end NostrBbs
