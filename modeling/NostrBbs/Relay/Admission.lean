import NostrBbs.Relay.ReadGate
import NostrBbs.Relay.Sealed
import NostrBbs.Relay.Store

/-!
# The admission of events

What the relay checks of a submitted event before it stores it, gate after gate.
What the gates look up in the configuration and the database is one record; the
governance gates, which read the cases, are one of its functions.
-/

namespace NostrBbs
namespace Relay

/-! ## Limits -/

def maxContentSize : Nat := 64 * 1024

def maxRegistrationContentSize : Nat := 8 * 1024

def maxTagCount : Nat := 2000

def maxTagValueSize : Nat := 1024

/-- Seven days. -/
def maxTimestampDrift : Nat := 60 * 60 * 24 * 7

/-! ## Trust -/

/-- Trust levels for community members. -/
inductive TrustLevel where
  | newcomer | member | regular | trusted
deriving DecidableEq, Repr

namespace TrustLevel

def asI32 : TrustLevel → Nat
  | newcomer => 0
  | member => 1
  | regular => 2
  | trusted => 3

/-- A level is below another. -/
def below (level bound : TrustLevel) : Bool :=
  level.asI32 < bound.asI32

end TrustLevel

/-! ## Zones for writing -/

/-- A zone definition, as far as writing goes. -/
structure WriteZone extends Zone where
  writeCohorts : Option (List String)
  encrypted : Bool
deriving DecidableEq, Repr

/-- Explicit write cohorts, else the required ones. -/
def WriteZone.effectiveWriteCohorts (zone : WriteZone) : List String :=
  zone.writeCohorts.getD zone.requiredCohorts

/-- The configured zones and the deployment's gate for encryption. -/
structure WriteZoneConfig where
  zones : List WriteZone
  encryptionEnabled : Bool
deriving DecidableEq, Repr

namespace WriteZoneConfig

variable (config : WriteZoneConfig)

def get (id : String) : Option WriteZone :=
  config.zones.find? fun zone => zone.id == id

/-- The zones as far as reading goes. -/
def forReading : ZoneConfig :=
  ⟨config.zones.map WriteZone.toZone⟩

/-- A zone's content must be encrypted: the gate is on, and the zone is flagged and
not public. -/
def isEncrypted (id : String) : Bool :=
  config.encryptionEnabled &&
    (config.get id).any fun zone => zone.encrypted && !config.forReading.isPublicRead id

/-- Write access from a cohort list; an empty set of write cohorts denies. -/
def cohortsCanWrite (id : String) (cohorts : List String) : Bool :=
  match config.get id with
  | none => false
  | some zone =>
      if zone.effectiveWriteCohorts.isEmpty then false
      else cohorts.any zone.effectiveWriteCohorts.contains

end WriteZoneConfig

/-! ## What the gates look up -/

/-- What the relay reads of its configuration and its database when an event comes
in. -/
structure Ingress extends Deployment where
  writeZones : WriteZoneConfig
  sameZones : zones = writeZones.forReading
  verifyEventStrict : NostrEvent → Bool
  decodeBase64 : String → Option (List UInt8)
  isWhitelisted : String → Bool
  isIngressRecipient : String → Bool
  isMeshPeer : String → Bool
  isFederatedKindAllowed : Nat → Bool
  isSuspended : String → Bool
  isSilenced : String → Bool
  /-- Banned or muted by a moderation action. -/
  isBlocked : String → Bool
  trustLevel : String → TrustLevel
  channelCreator : String → Option String
  /-- The author of a stored event. -/
  storedAuthor : String → Option String
  isRegisteredAgent : String → Bool
  /-- What the governance gates refuse of responses, supersessions and appeals. -/
  governanceRefusal : NostrEvent → Option String

/-! ## Single gates -/

/-- The bounds of an event's parts. -/
def validParts (event : NostrEvent) : Bool :=
  let isRegistration := event.kind == 0 || event.kind == 9024
  let maxContent := if isRegistration then maxRegistrationContentSize else maxContentSize
  event.id.utf8ByteSize == 64 && event.pubkey.utf8ByteSize == 64 &&
    event.sig.utf8ByteSize == 128 && event.content.utf8ByteSize ≤ maxContent &&
    event.tags.length ≤ maxTagCount &&
    event.tags.all fun tag => tag.all fun value => value.utf8ByteSize ≤ maxTagValueSize

/-- A sealed original keeps the time of what it wraps. -/
def sealedDriftExempt (event : NostrEvent) : Bool :=
  event.kind == 42 && (parseSealed event.tags).isSome

/-- The distance of an event from the clock. -/
def drift (event : NostrEvent) (now : Nat) : Nat :=
  max (now - event.createdAt) (event.createdAt - now)

/-- The bound of an event's time; a sealed original is exempt from the bound in the
past. -/
def timestampDriftOk (event : NostrEvent) (now : Nat) : Bool :=
  (event.createdAt ≤ now && sealedDriftExempt event) || drift event now ≤ maxTimestampDrift

def validateEvent (event : NostrEvent) (now : Nat) : Bool :=
  validParts event && timestampDriftOk event now

/-- An `expiration` tag must name seconds that are not past. -/
def expirationAdmission (event : NostrEvent) (now : Nat) : Option String :=
  match tagValue event "expiration" with
  | none => none
  | some raw =>
      if raw = "" ∨ !raw.toList.all Char.isDigit then
        some "invalid: expiration must be unix seconds (NIP-40)"
      else
        match parseUnsigned 64 raw with
        | none => some "invalid: expiration must be unix seconds (NIP-40)"
        | some expires => if expires < now then some "invalid: event expired" else none

/-- In authenticated mode an unauthenticated session publishes nothing. -/
def writeAuthOk (mode : AuthMode) (sessionAuthed : Bool) : Option String :=
  if mode == .nip42 && !sessionAuthed then some "auth-required: NIP-42 AUTH required to publish"
  else none

def allowlistDenialReason (mode : AuthMode) (sessionAuthed : Bool) : String :=
  if mode == .nip42 && sessionAuthed then "restricted: pubkey not in allowlist"
  else "blocked: pubkey not whitelisted"

/-- Administrators' group management kinds. -/
def isNip29AdminKind (kind : Nat) : Bool :=
  (9000 ≤ kind && kind ≤ 9020) || (39000 ≤ kind && kind ≤ 39002)

def kindReport : Nat := 1984

/-- Kinds that a banned or muted author must not publish. -/
def isBanGatedKind (kind : Nat) : Bool :=
  [1, 5, 7, 40, 41, 42, 30023, kindReport].contains kind || isProjectedCalendarKind kind ||
    isKanbanKind kind || kind == 38000

def kindActionRequest : Nat := 31402

def kindActionResponse : Nat := 31403

def isGovernanceKind (kind : Nat) : Bool :=
  31400 ≤ kind && kind ≤ 31405

/-- A member's request that a card may enter a column. -/
def isKanbanApprovalRequest (event : NostrEvent) : Bool :=
  event.kind == kindActionRequest &&
    event.tags.any fun tag => isValued "k" tag && firstValue tag == "30302"

/-- The signing key, and its owner when that differs. -/
def sanctionSubjects (raw principal : String) : List String :=
  if principal ≠ raw then [raw, principal] else [raw]

/-- What is refused of a message with a `sealed` tag. -/
def sealedWriteRejection (isSealed isAdmin : Bool) (zoneEncrypted : Option Bool) :
    Option String :=
  if !isSealed then none
  else if !isAdmin then some "blocked: sealed originals are admin-only"
  else if zoneEncrypted ≠ some true then
    some "blocked: sealed originals belong to encrypted zones"
  else none

namespace Ingress

variable (ingress : Ingress)

/-- The key that an event is admitted under. -/
def principalOf (event : NostrEvent) : String :=
  if event.kind ≠ 1059 then ingress.effectivePubkey event.pubkey else event.pubkey

/-- Access to a zone for writing. -/
def hasZoneWriteAccess (principal zone : String) : Bool :=
  let cohorts := ingress.viewerCohorts principal
  cohorts.2 || ingress.writeZones.cohortsCanWrite zone cohorts.1

/-- A gift wrap is admitted for its recipient, every other event for its author. -/
def allowlistGate (sessionAuthed : Bool) (event : NostrEvent) : Option String :=
  if event.kind = 1059 then
    let recipientOk := (giftWrapRecipient event).any fun recipient =>
      ingress.isIngressRecipient recipient || ingress.isWhitelisted recipient
    if recipientOk then none else some "blocked: gift-wrap recipient not whitelisted"
  else if ingress.isWhitelisted (ingress.principalOf event) then none
  else some (allowlistDenialReason ingress.authMode sessionAuthed)

def meshGate (event : NostrEvent) : Option String :=
  if ingress.isMeshPeer event.pubkey && !ingress.isFederatedKindAllowed event.kind then
    some "blocked: event kind not in federated_kinds allowlist"
  else none

/-- A sanction of the signing key or of its owner. -/
def sanctionGate (event : NostrEvent) : Option String :=
  (sanctionSubjects event.pubkey (ingress.principalOf event)).findSome? fun subject =>
    if ingress.isSuspended subject then some "blocked: account suspended"
    else if ingress.isSilenced subject then some "blocked: account silenced (read-only)"
    else none

def banGate (event : NostrEvent) : Option String :=
  if isBanGatedKind event.kind && !ingress.isAdmin event.pubkey &&
      (sanctionSubjects event.pubkey (ingress.principalOf event)).any ingress.isBlocked then
    some "blocked: author is banned or muted"
  else none

/-- A deletion names a stored event of another author. -/
def deletionTargetsOthers (event : NostrEvent) : Bool :=
  (event.tags.filter (isValued "e")).any fun tag =>
    (ingress.storedAuthor (firstValue tag)).any (· != event.pubkey)

/-- What a trust level allows. -/
def trustGate (event : NostrEvent) : Option String :=
  let principal := ingress.principalOf event
  let level := ingress.trustLevel principal
  if ingress.isAdmin event.pubkey then none
  else if event.kind = 40 ∧ level.below .regular then
    some "restricted: TL2+ required for channel creation"
  else if event.kind = 41 then
    match channelTag event with
    | none => some "invalid: missing channel tag"
    | some channel =>
        if level.below .regular then some "restricted: TL2+ required for channel metadata"
        else if level.below .trusted && !(ingress.channelCreator channel).any
            (sanctionSubjects event.pubkey principal).contains then
          some "restricted: TL3+ required to modify others' channels"
        else none
  else if event.kind = kindReport ∧ level.below .member then
    some "restricted: TL1+ required to report content"
  else if event.kind = 5 ∧ ingress.deletionTargetsOthers event ∧ level.below .trusted then
    some "restricted: TL3+ required to delete others' events"
  else none

def groupGate (event : NostrEvent) : Option String :=
  if !isNip29AdminKind event.kind then none
  else if tagValue event "h" = none then some "invalid: missing group tag"
  else if !ingress.isAdmin event.pubkey then some "blocked: admin-only group action"
  else none

def agentGate (event : NostrEvent) : Option String :=
  if isGovernanceKind event.kind && event.kind != kindActionResponse &&
      !isKanbanApprovalRequest event && !ingress.isRegisteredAgent event.pubkey then
    some "blocked: pubkey not in agent registry"
  else none

/-- What a zone refuses of a message in a channel that is bound to it. -/
def boundZoneGate (event : NostrEvent) (zone : String) : Option String :=
  if !ingress.isAdmin event.pubkey &&
      !ingress.hasZoneWriteAccess (ingress.principalOf event) zone then
    some "zone access denied"
  else if ingress.writeZones.isEncrypted zone &&
      !isZoneCiphertext ingress.decodeBase64 zone event.tags event.content then
    some "blocked: encrypted zone requires zone-key ciphertext"
  else none

/-- The zone gate of channel messages. -/
def channelGate (event : NostrEvent) : Option String :=
  if event.kind ≠ 42 then none
  else
    match channelTag event with
    | none => some "invalid: missing channel tag"
    | some channel =>
        let zone := ingress.channelZone channel
        let isSealed := hasSealedTag event.tags
        (sealedWriteRejection isSealed (ingress.isAdmin event.pubkey)
          (zone.map ingress.writeZones.isEncrypted)).or
            (zone.bind (ingress.boundZoneGate event))

/-- The gate of calendar and kanban events, by the zone of the event or of the event
that an RSVP answers. -/
def calendarGate (event : NostrEvent) : Option String :=
  let principal := ingress.principalOf event
  if ingress.isAdmin event.pubkey then none
  else if event.kind = kindCalendarRsvp then
    let permitted := (ingress.resolveRsvpTarget event).any fun target =>
      let cohorts := ingress.viewerCohorts principal
      projectTier cohorts.1 target.1 target.2 false cohorts.2 == .full
    if permitted then none else some "blocked: rsvp not permitted"
  else if isProjectedCalendarKind event.kind || isKanbanKind event.kind then
    if (readZoneTag event).all (ingress.hasZoneWriteAccess principal) then none
    else some "blocked: zone access denied"
  else none

/-! ## The sequence -/

/-- The gates before the zone gate, in order. -/
def earlierGates (sessionAuthed : Bool) (event : NostrEvent) (now : Nat) :
    List (Option String) :=
  [if validateEvent event now then none else some "invalid: event validation failed",
    expirationAdmission event now,
    if ingress.verifyEventStrict event then none
      else some "invalid: event id or signature verification failed",
    writeAuthOk ingress.authMode sessionAuthed,
    ingress.allowlistGate sessionAuthed event,
    ingress.meshGate event,
    ingress.sanctionGate event,
    ingress.banGate event,
    ingress.trustGate event,
    ingress.groupGate event,
    ingress.agentGate event,
    ingress.governanceRefusal event]

/-- The refusal of the first gate that refuses. -/
def refusal (sessionAuthed : Bool) (event : NostrEvent) (now : Nat) : Option String :=
  (ingress.earlierGates sessionAuthed event now ++
    [ingress.channelGate event, ingress.calendarGate event]).findSome? id

end Ingress

/-- What the relay answers to an event. -/
inductive EventReply where
  | notice (text : String)
  | ok (accepted : Bool) (message : String)
deriving DecidableEq, Repr

/-- An event as it is submitted: whether the rate limit lets it pass, whether its
session is authenticated, and the time. -/
structure Submission where
  event : NostrEvent
  withinRate : Bool
  sessionAuthed : Bool
  now : Nat

/-- The reply to an event, and the store after it; the database can fail to save. -/
def Ingress.handleEvent {trigger : TagTrigger} (ingress : Ingress) (store : Store trigger)
    (submission : Submission) (saves : Bool) : EventReply × Store trigger :=
  let event := submission.event
  if !submission.withinRate then (.notice "rate limit exceeded", store)
  else
    match ingress.refusal submission.sessionAuthed event submission.now with
    | some reason => (.ok false reason, store)
    | none =>
        let treatment := eventTreatment event.kind
        if treatment = .ephemeral then (.ok true "", store)
        else if saves then (.ok true "", store.saveEvent event treatment submission.now)
        else (.ok false "error: failed to save event", store)

end Relay
end NostrBbs
