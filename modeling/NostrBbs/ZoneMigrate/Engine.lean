import NostrBbs.ZoneMigrate.Plan
import NostrBbs.ZoneMigrate.Relay

/-!
# The migration's steps

Scanning, sealing, verifying and purging as programs over the relay and the state
file.  A step that stops with an error leaves the file as it was last saved.
-/

namespace NostrBbs
namespace ZoneMigrate

open Relay (NostrEvent)
open Fallible

/-- The reason that a deletion gives. -/
def purgeReason : String := "sealed-original history migration (ADR-2017)"

/-- A set of texts, in order. -/
def sortedSet (texts : List String) : List String :=
  texts.dedup.insertionSort (· ≤ ·)

/-! ## Scanning -/

/-- The plan for every listed channel. -/
structure Plan where
  channels : List ChannelPlan
  zonesWithoutKey : List String
  incompleteSeconds : List (String × Nat)
deriving DecidableEq, Repr

/-- The messages of a channel. -/
def channelFilter (spec : ChannelSpec) : Filter :=
  { Filter.any with kinds := some [42], eTags := some [spec.id] }

/-- Channels scanned one after another. -/
def scanEach (crypto : Crypto) (pages : Nat) (keys : KeyRing) :
    List ChannelSpec → Fallible (List (ChannelScan × List (String × Nat)))
  | [] => succeed []
  | spec :: rest =>
      andThen (fetchAll pages (channelFilter spec)) fun fetched =>
        andThen (scanEach crypto pages keys rest) fun scans =>
          succeed ((crypto.scanChannel spec fetched.events keys,
            fetched.ambiguousSeconds.map fun second => (spec.id, second)) :: scans)

def scan (crypto : Crypto) (pages : Nat) (channels : List ChannelSpec) (keys : KeyRing) :
    Fallible (Plan × List ChannelScan) :=
  andThen (scanEach crypto pages keys channels) fun scans =>
    succeed
      ({ channels := scans.map fun entry => entry.1.plan
         zonesWithoutKey := sortedSet ((channels.map ChannelSpec.zone).filter fun zone =>
           (keys.current zone).isNone)
         incompleteSeconds := scans.flatMap Prod.snd }, scans.map Prod.fst)

/-! ## Changes of an entry -/

/-- An entry's envelope recorded. -/
def Entry.setSealed (epoch : Nat) (outerId digest : String) (entry : Entry) : Entry :=
  { entry with
    status := .sealed
    epoch := some epoch
    outerId := some outerId
    innerSha256 := some digest }

/-- An entry failed at a step, with the envelope that failed if there is one. -/
def Entry.fail (step : Step) (reason : String) (envelope : Option (Nat × String))
    (entry : Entry) : Entry :=
  let failed := { entry with status := .failed step reason }
  match envelope with
  | none => failed
  | some (epoch, outer) =>
      { failed with epoch := some epoch, outerId := some outer, innerSha256 := none }

def Entry.setStatus (status : Status) (entry : Entry) : Entry :=
  { entry with status := status }

/-- Entries that failed: the original id and the reason. -/
abbrev Failures := List (String × String)

/-! ## Envelopes -/

namespace Crypto

variable (crypto : Crypto)

/-- The canonical JSON of the original that an envelope wraps, after the outer
signature, the channel, the opening and the inner id are checked. -/
def openAndCheck (outer : NostrEvent) (originalId channel zoneSk : String) :
    Except String String :=
  if !crypto.verifyEvent outer then .error "envelope id or signature does not verify"
  else if channelOf outer ≠ some channel then .error "envelope is in a different channel"
  else
    match crypto.openSealed outer zoneSk with
    | .error why => .error why
    | .ok inner =>
        if inner.id ≠ originalId then .error "envelope wraps a different event"
        else .ok (crypto.toJson inner)

/-- The first envelope that opens with a held key and wraps exactly the original:
its id, epoch and inner digest. -/
def adopt (envelopes : List NostrEvent) (originalId channel : String)
    (original : Option NostrEvent) (keys : KeyRing) : Option (String × Nat × String) :=
  envelopes.findSome? fun outer =>
    (zkOf outer).bind fun zk =>
      (keys.get zk.1 zk.2).bind fun key =>
        (crypto.openAndCheck outer originalId channel key.secret).toOption.bind fun inner =>
          if original.any fun event => crypto.toJson event ≠ inner then none
          else some (outer.id, zk.2, crypto.sha256Hex inner)

end Crypto

/-! ## Sealing -/

def needsSeal : Status → Bool
  | .planned => true
  | .failed .seal _ => true
  | .failed .verify _ => true
  | _ => false

structure SealReport where
  plan : Plan
  sealed : Nat
  adopted : Nat
  failed : Failures
  remaining : Nat
  limitReached : Bool
  counts : State.Counts
deriving DecidableEq, Repr

/-- What a seal run works with: the keys, the migrator's secret, and what the
relay held when it was scanned. -/
structure SealRun where
  keys : KeyRing
  migrator : String
  scans : List ChannelScan

namespace SealRun

variable (run : SealRun)

/-- The original that the relay holds; the last one scanned stands. -/
def original (id : String) : Option NostrEvent :=
  ((run.scans.flatMap ChannelScan.candidates).reverse.find? fun candidate =>
    candidate.original.id == id).map Candidate.original

/-- The envelopes of an original in the last channel that has some. -/
def existing (id : String) : List NostrEvent :=
  (run.scans.reverse.findSome? fun scan =>
    let envelopes := scan.envelopesOf id
    if envelopes.isEmpty then none else some envelopes).getD []

/-- Originals that have no entry are recorded as planned. -/
def recordNew (state : State) : State :=
  run.scans.foldl
    (fun state scan => scan.candidates.foldl
      (fun state candidate => state.record candidate.original.id
        (Entry.planned scan.plan.channel scan.plan.zone candidate.original.createdAt)) state)
    state

/-- One original failed, saved. -/
def failed (state : State) (report : SealReport) (id reason : String)
    (envelope : Option (Nat × String)) : Fallible (State × SealReport) :=
  let later := state.modify id (Entry.fail .seal reason envelope)
  andThen (persist later) fun _ =>
    succeed (later, { report with failed := report.failed ++ [(id, reason)] })

/-- An envelope that was accepted, fetched back by id and compared. -/
def readBack (crypto : Crypto) (key : ZoneKey) (id channel : String)
    (original envelope : NostrEvent) (state : State) (report : SealReport) :
    Fallible (State × SealReport) :=
  let expected := crypto.toJson original
  andThen (fetchByIds [envelope.id]) fun fetched =>
    let checked :=
      match fetched.get envelope.id with
      | none => Except.error "envelope accepted but not returned when fetched by id"
      | some outer =>
          match crypto.openAndCheck outer id channel key.secret with
          | .error why => .error why
          | .ok inner =>
              if inner = expected then .ok ()
              else .error "read-back inner event differs from the original"
    match checked with
    | .ok () =>
        let later := state.modify id
          (Entry.setSealed key.epoch envelope.id (crypto.sha256Hex expected))
        andThen (persist later) fun _ =>
          succeed (later, { report with sealed := report.sealed + 1 })
    | .error reason => failed state report id reason (some (key.epoch, envelope.id))

/-- A new envelope sealed and published. -/
def publishNew (crypto : Crypto) (key : ZoneKey) (id channel zone : String)
    (original : NostrEvent) (state : State) (report : SealReport) :
    Fallible (State × SealReport) :=
  andThen drawNonce fun nonce =>
    match crypto.sealOriginal original zone key.epoch key.pubkey run.migrator nonce with
    | .error why => failed state report id why none
    | .ok envelope =>
        andThen (publish envelope) fun outcome =>
          if outcome.accepted then readBack crypto key id channel original envelope state report
          else failed state report id
            (if outcome.message = "" then "relay rejected the envelope" else outcome.message) none

/-- One original adopted, or sealed anew.  The ids of the work have entries, and
the keys of their zones are held. -/
def sealOne (crypto : Crypto) (id : String) (state : State) (report : SealReport) :
    Fallible (State × SealReport) :=
  match state.entry id with
  | none => succeed (state, report)
  | some entry =>
      let original := run.original id
      match crypto.adopt (run.existing id) id entry.channel original run.keys with
      | some (outer, epoch, digest) =>
          let later := state.modify id (Entry.setSealed epoch outer digest)
          andThen (persist later) fun _ =>
            succeed (later, { report with adopted := report.adopted + 1 })
      | none =>
          match original, run.keys.current entry.zone with
          | none, _ => failed state report id "original not found on the relay" none
          | some _, none => succeed (state, report)
          | some original, some key =>
              run.publishNew crypto key id entry.channel entry.zone original state report

/-- The work, up to the limit. -/
def sealEach (crypto : Crypto) (limit : Option Nat) :
    Nat → List String → State → SealReport → Fallible (State × SealReport)
  | _, [], state, report => succeed (state, report)
  | number, id :: rest, state, report =>
      if limit.any (· ≤ number) then succeed (state, { report with limitReached := true })
      else andThen (run.sealOne crypto id state report) fun (later, report) =>
        sealEach crypto limit (number + 1) rest later report

/-- The originals to be sealed, oldest first. -/
def work (channels : List ChannelSpec) (state : State) : List String :=
  let ids := state.idsWhere fun entry =>
    (channels.any fun spec => spec.id == entry.channel) && needsSeal entry.status
  ids.insertionSort fun first second =>
    ((state.entry first).map Entry.createdAt).getD 0 ≤
      ((state.entry second).map Entry.createdAt).getD 0

end SealRun

/-- The zones of some entries for which no key is held. -/
def missingZones (keys : KeyRing) (state : State) (ids : List String) : List String :=
  sortedSet ((ids.filterMap fun id => (state.entry id).map Entry.zone).filter fun zone =>
    (keys.current zone).isNone)

/-- Every planned original sealed, as far as the limit allows. -/
def «seal» (crypto : Crypto) (pages : Nat) (migrator : String) (channels : List ChannelSpec)
    (keys : KeyRing) (state : State) (limit : Option Nat) : Fallible (State × SealReport) :=
  andThen (scan crypto pages channels keys) fun (plan, scans) =>
    let run : SealRun := ⟨keys, migrator, scans⟩
    let recorded := run.recordNew state
    let save : Fallible Unit :=
      if recorded.entries.rows.length = state.entries.rows.length then succeed ()
      else persist recorded
    andThen save fun _ =>
      let ids := SealRun.work channels recorded
      let missing := missingZones keys recorded ids
      if missing ≠ [] then stop (.missingKeys missing)
      else
        let report : SealReport := ⟨plan, 0, 0, [], 0, false, recorded.counts⟩
        andThen (run.sealEach crypto limit 0 ids recorded report) fun (last, report) =>
          succeed (last, { report with
            remaining := last.entries.countWhere fun row => needsSeal row.2.status
            counts := last.counts })

/-! ## Checking -/

/-- The keys that some entries need and that are not held. -/
def missingKeys (keys : KeyRing) (state : State) (ids : List String) : List String :=
  sortedSet (ids.filterMap fun id =>
    (state.entry id).bind fun entry =>
      entry.epoch.bind fun epoch =>
        if (keys.get entry.zone epoch).isNone then some s!"{entry.zone}:{epoch}" else none)

namespace Crypto

variable (crypto : Crypto)

/-- The check of one recorded envelope; the entry's key is held when there is an
epoch. -/
def verdict (keys : KeyRing) (fetched : String → Option NostrEvent) (id : String)
    (entry : Entry) : Except String Unit :=
  match entry.outerId, entry.epoch, entry.innerSha256 with
  | some outerId, some epoch, some digest =>
      match fetched outerId with
      | none => .error "envelope not found on the relay"
      | some outer =>
          match keys.get entry.zone epoch with
          | none => .error "no zone key held"
          | some key =>
              match crypto.openAndCheck outer id entry.channel key.secret with
              | .error why => .error why
              | .ok inner =>
                  if crypto.sha256Hex inner = digest then .ok ()
                  else .error "inner event differs from the one sealed"
  | _, _, _ => .error "no complete envelope record; run seal again"

/-- One entry marked by the check of its envelope. -/
def checkEntry (keys : KeyRing) (fetched : String → Option NostrEvent)
    (checked : State × Failures) (id : String) : State × Failures :=
  match checked.1.entry id with
  | none => checked
  | some entry =>
      match crypto.verdict keys fetched id entry with
      | .ok () => (checked.1.modify id (Entry.setStatus .verified), checked.2)
      | .error reason =>
          (checked.1.modify id (Entry.setStatus (.failed .verify reason)),
            checked.2 ++ [(id, reason)])

end Crypto

/-- The envelopes of some entries fetched and checked. -/
def checkEntries (crypto : Crypto) (keys : KeyRing) (state : State) (ids : List String)
    (failed : Failures) : Fallible (State × Failures) :=
  let missing := missingKeys keys state ids
  if missing ≠ [] then stop (.missingKeys missing)
  else
    andThen (fetchByIds (ids.filterMap fun id => (state.entry id).bind Entry.outerId))
      fun fetched => succeed (ids.foldl (crypto.checkEntry keys fetched.get) (state, failed))

structure VerifyReport where
  checked : Nat
  verified : Nat
  failed : Failures
  counts : State.Counts
deriving DecidableEq, Repr

/-- Entries whose envelope is checked. -/
def Entry.isTarget (entry : Entry) : Bool :=
  entry.outerId.isSome &&
    match entry.status with
    | .sealed => true
    | .verified => true
    | .failed .verify _ => true
    | _ => false

/-- Every recorded envelope fetched again and checked. -/
def verify (crypto : Crypto) (keys : KeyRing) (state : State) :
    Fallible (State × VerifyReport) :=
  let targets := state.idsWhere Entry.isTarget
  andThen (checkEntries crypto keys state targets []) fun (later, failed) =>
    andThen (persist later) fun _ =>
      succeed (later,
        { checked := targets.length
          verified := targets.countP fun id =>
            (later.entry id).any fun entry => entry.status == .verified
          failed := failed
          counts := later.counts })

/-! ## Purging -/

structure PurgeReport where
  requests : Nat
  deleted : Nat
  notFound : List String
  skipped : List String
  counts : State.Counts
deriving DecidableEq, Repr

/-- An entry after the relay answered the deletion. -/
def DeleteOutcome.statusOf (outcome : DeleteOutcome) (id : String) : Status :=
  if outcome.skipped.contains id then .failed .purge "relay kept the event: it is not kind 42"
  else .purged

/-- The entries of a chunk marked after its deletion. -/
def markChunk (outcome : DeleteOutcome) (chunk : List String) (state : State) : State :=
  chunk.foldl (fun state id => state.modify id (Entry.setStatus (outcome.statusOf id))) state

/-- A purge that a failed check stopped. -/
def refusedChunk (failures : Failures) (number count : Nat) : EngineError :=
  let firstId := (failures.map Prod.fst).headD ""
  let firstReason := (failures.map Prod.snd).headD ""
  .refused (s!"{failures.length} envelopes in chunk {number + 1}/{count} no longer open and " ++
    s!"match (first: {firstId} — {firstReason}); nothing in that chunk was deleted. " ++
    "Run seal, then verify, then purge again")

/-- The deletion of the originals of one chunk, just after its envelopes were
opened once more. -/
def purgeChunk (crypto : Crypto) (keys : KeyRing) (number count : Nat) (chunk : List String)
    (state : State) (report : PurgeReport) : Fallible (State × PurgeReport) :=
  andThen (checkEntries crypto keys state chunk []) fun (checked, failures) =>
    if failures ≠ [] then
      andThen (persist checked) fun _ => stop (refusedChunk failures number count)
    else
      andThen (deleteEvents chunk purgeReason) fun outcome =>
        let marked := markChunk outcome chunk checked
        andThen (persist marked) fun _ =>
          succeed (marked, { report with
            requests := report.requests + 1
            deleted := report.deleted + outcome.deleted
            notFound := report.notFound ++ chunk.filter fun id =>
              !outcome.skipped.contains id && outcome.notFound.contains id
            skipped := report.skipped ++ chunk.filter fun id => outcome.skipped.contains id })

def purgeEach (crypto : Crypto) (keys : KeyRing) (count : Nat) :
    Nat → List (List String) → State → PurgeReport → Fallible (State × PurgeReport)
  | _, [], state, report => succeed (state, report)
  | number, chunk :: rest, state, report =>
      andThen (purgeChunk crypto keys number count chunk state report) fun (later, report) =>
        purgeEach crypto keys count (number + 1) rest later report

/-- A purge that entries block. -/
def refusedBlocking (state : State) (blocking : List String) : EngineError :=
  let counts := state.counts
  let labelled (id : String) :=
    let label := ((state.entry id).map fun entry => entry.status.label).getD ""
    s!"{id} ({label})"
  let first := String.intercalate ", " ((blocking.take 5).map labelled)
  .refused (s!"{blocking.length} of {counts.total} entries are not verified " ++
    s!"(planned {counts.planned}, sealed {counts.sealed}, failed {counts.failed}), " ++
    s!"e.g. {first}; run seal and verify until every entry is verified")

/-- The originals of the verified entries deleted, in chunks. -/
def purge (crypto : Crypto) (keys : KeyRing) (state : State) (confirmed : Bool) :
    Fallible (State × PurgeReport) :=
  if !confirmed then
    stop (.refused "purge deletes the plaintext originals irreversibly; re-run with --yes")
  else if state.entries.rows = [] then
    stop (.refused "the state file has no entries; run seal and verify first")
  else
    let blocking := state.idsWhere fun entry =>
      !(entry.status == .verified || entry.status == .purged)
    if blocking ≠ [] then stop (refusedBlocking state blocking)
    else
      let todo := state.idsWhere fun entry => entry.status == .verified
      let missing := missingKeys keys state todo
      if missing ≠ [] then stop (.missingKeys missing)
      else
        let chunks := Lib.chunks maxDeleteIds todo
        andThen (purgeEach crypto keys chunks.length 0 chunks state
          ⟨0, 0, [], [], state.counts⟩) fun (last, report) =>
          succeed (last, { report with counts := last.counts })

/-! ## Commands -/

/-- A command that uses the state file. -/
inductive Command where
  | «seal» (channels : List ChannelSpec) (limit : Option Nat)
  | verify
  | purge (yes : Bool)
deriving DecidableEq, Repr

/-- A command as it is started: the keys that are held, the migrator's secret, and
how many pages paging has until it is cut off. -/
structure Invocation where
  keys : KeyRing
  migrator : String
  pages : Nat
  command : Command

/-- A command run from the file as it is saved. -/
def Invocation.program (crypto : Crypto) (invocation : Invocation) : Fallible State :=
  match invocation.command with
  | .seal channels limit =>
      andThen loadOrNew fun state =>
        andThen («seal» crypto invocation.pages invocation.migrator channels invocation.keys state
          limit) fun (last, _) => succeed last
  | .verify =>
      andThen loadExisting fun state =>
        andThen (verify crypto invocation.keys state) fun (last, _) => succeed last
  | .purge yes =>
      andThen loadExisting fun state =>
        andThen (purge crypto invocation.keys state yes) fun (last, _) => succeed last

end ZoneMigrate
end NostrBbs
