import NostrBbs.Lib.Page
import NostrBbs.Lib.Program
import NostrBbs.ZoneMigrate.Envelope
import NostrBbs.ZoneMigrate.Plan

/-!
# The relay as the migrator sees it

What the migrator asks of a relay and of its host, the answers that either may
give, and the two ways in which it reads events: page by page and by id.
-/

namespace NostrBbs
namespace ZoneMigrate

open Relay (NostrEvent)

/-- The `limit` of a page, which is the largest that the relay honours. -/
def maxReqLimit : Nat := 1000

/-- The ids of one request. -/
def maxIdsPerReq : Nat := 50

/-- The ids that one deletion takes. -/
def maxDeleteIds : Nat := 200

/-- A filter, in the fields that the migrator uses. -/
structure Filter where
  ids : Option (List String)
  kinds : Option (List Nat)
  eTags : Option (List String)
  pTags : Option (List String)
  «until» : Option Nat
  limit : Option Nat
deriving DecidableEq, Repr

/-- A filter without conditions. -/
def Filter.any : Filter :=
  ⟨none, none, none, none, none, none⟩

/-- The relay's answer to an event. -/
structure PublishOutcome where
  accepted : Bool
  message : String
deriving DecidableEq, Repr

/-- The relay's answer to a deletion. -/
structure DeleteOutcome where
  deleted : Nat
  notFound : List String
  skipped : List String
deriving DecidableEq, Repr

/-- A failure to talk to the relay. -/
inductive RelayError where
  | transport (why : String)
  | timeout (waitingFor : String)
  | closed (reason : String)
  | http (status : Nat) (body : String)
  | protocol (why : String)
deriving DecidableEq, Repr

/-- Why a step stopped; `unfinished` stands for paging that has not ended. -/
inductive EngineError where
  | relay (error : RelayError)
  | state (why : String)
  | missingKeys (keys : List String)
  | refused (why : String)
  | unfinished
deriving DecidableEq, Repr

/-- What a step asks of the relay and of its host. -/
inductive Op where
  | query (filter : Filter)
  | publish (event : NostrEvent)
  | deleteEvents (ids : List String) (reason : String)
  /-- A nonce for the encryption of an envelope. -/
  | nonce
  | load
  | persist (state : State)

namespace Op

/-- What is answered; the file may be absent. -/
def Answer : Op → Type
  | query _ => Except RelayError (List NostrEvent)
  | publish _ => Except RelayError PublishOutcome
  | deleteEvents _ _ => Except RelayError DeleteOutcome
  | nonce => String
  | load => Option State
  | persist _ => Except String Unit

end Op

/-- A step of the migration. -/
abbrev Migration := Lib.Program Op Op.Answer

/-- A program that may stop with an error. -/
abbrev Fallible (Result : Type) := Migration (Except EngineError Result)

namespace Fallible

variable {Value Result : Type}

/-- Going on with a result, or stopping with the error. -/
def andThen (program : Fallible Value) (continuation : Value → Fallible Result) :
    Fallible Result :=
  Lib.Program.bind program fun
    | .ok value => continuation value
    | .error error => .done (.error error)

def succeed (result : Result) : Fallible Result :=
  .done (.ok result)

def stop (error : EngineError) : Fallible Result :=
  .done (.error error)

variable {Host : Type} {answer : Host → (op : Op) → Host × op.Answer} {before after : Host}
  {program : Fallible Value} {continuation : Value → Fallible Result}

/-- A program that goes on runs what follows its result. -/
theorem run_andThen
    {value : Value}
    (ends : program.run answer before = (after, .ok value)) :
    (program.andThen continuation).run answer before = (continuation value).run answer after := by
  unfold andThen
  refine (Lib.Program.run_bind program _ before).trans ?_
  rw [ends]

end Fallible

open Fallible

/-- One request for events. -/
def query (filter : Filter) : Fallible (List NostrEvent) :=
  .perform (.query filter) fun answer => .done (Except.mapError .relay answer)

def publish (event : NostrEvent) : Fallible PublishOutcome :=
  .perform (.publish event) fun answer => .done (Except.mapError .relay answer)

def deleteEvents (ids : List String) (reason : String) : Fallible DeleteOutcome :=
  .perform (.deleteEvents ids reason) fun answer => .done (Except.mapError .relay answer)

/-- Saving the state. -/
def persist (state : State) : Fallible Unit :=
  .perform (.persist state) fun answer => .done (Except.mapError .state answer)

def drawNonce : Fallible String :=
  .perform .nonce fun answer => .done (.ok answer)

def loadOrNew : Fallible State :=
  .perform .load fun answer => .done (.ok (answer.getD State.new))

def loadExisting : Fallible State :=
  .perform .load fun answer =>
    .done (answer.elim (.error (.refused "state file does not exist; run seal first")) .ok)

/-! ## Paging -/

/-- What paging has found: every distinct event in order, and the seconds in which
there may be more. -/
structure Fetched where
  events : List NostrEvent
  ambiguousSeconds : List Nat
deriving DecidableEq, Repr

namespace Fetched

/-- Nothing found yet. -/
def empty : Fetched :=
  ⟨[], []⟩

/-- An id that was seen. -/
def seen (fetched : Fetched) (id : String) : Bool :=
  fetched.events.any fun event => event.id == id

/-- An event taken in, unless its id was seen. -/
def add (fetched : Fetched) (event : NostrEvent) : Fetched :=
  if fetched.seen event.id then fetched
  else { fetched with events := fetched.events ++ [event] }

/-- A page taken in. -/
def addPage (fetched : Fetched) (page : List NostrEvent) : Fetched :=
  page.foldl add fetched

end Fetched

/-- The oldest time of a page. -/
def oldestOf (page : List NostrEvent) : Nat :=
  page.foldl (fun oldest event => min oldest event.createdAt) (2 ^ 64 - 1)

/-- Where paging goes on after a page. -/
inductive PageStep where
  | finished (fetched : Fetched)
  | next (fetched : Fetched) («until» : Nat)

/-- One page taken in.  A full page that adds nothing means that a second holds
more than a page: paging steps past it and notes it. -/
def takePage (fetched : Fetched) (page : List NostrEvent) : PageStep :=
  let full := maxReqLimit ≤ page.length
  let out := fetched.addPage page
  let added := out.events.length - fetched.events.length
  let oldest := oldestOf page
  if !full then .finished out
  else if added = 0 then
    let out := { out with ambiguousSeconds := out.ambiguousSeconds ++ [oldest] }
    if oldest = 0 then .finished out else .next out (oldest - 1)
  else .next out oldest

theorem mem_addPage
    {fetched : Fetched}
    {page : List NostrEvent}
    {event : NostrEvent}
    (taken : event ∈ (fetched.addPage page).events) :
    event ∈ fetched.events ∨ event ∈ page := by
  unfold Fetched.addPage at taken
  induction page generalizing fetched with
  | nil => exact .inl taken
  | cons first page inductionHypothesis =>
      rw [List.foldl_cons] at taken
      rcases inductionHypothesis taken with before | later
      · unfold Fetched.add at before
        split at before
        · exact .inl before
        · rcases List.mem_append.mp before with earlier | isFirst
          · exact .inl earlier
          · exact .inr (List.mem_cons.mpr (.inl (List.mem_singleton.mp isFirst)))
      · exact .inr (List.mem_cons_of_mem _ later)

/-- A page's events are taken in, wherever paging goes on. -/
theorem events_of_takePage
    (fetched : Fetched)
    (page : List NostrEvent) :
    (∃ out, takePage fetched page = .finished out ∧
        out.events = (fetched.addPage page).events) ∨
      ∃ out bound, takePage fetched page = .next out bound ∧
        out.events = (fetched.addPage page).events := by
  unfold takePage
  dsimp only
  split
  · exact .inl ⟨_, rfl, rfl⟩
  · split
    · split
      · exact .inl ⟨_, rfl, rfl⟩
      · exact .inr ⟨_, _, rfl, rfl⟩
    · exact .inr ⟨_, _, rfl, rfl⟩

/-- Paging from a cursor, for some number of pages. -/
def fetchPages (base : Filter) : Nat → Fetched → Option Nat → Fallible Fetched
  | 0, _, _ => stop .unfinished
  | pages + 1, fetched, cursor =>
      andThen (query { base with limit := some maxReqLimit, «until» := cursor }) fun page =>
        match takePage fetched page with
        | .finished out => succeed out
        | .next out oldest => fetchPages base pages out (some oldest)

/-- Every event that matches a filter, in at most some number of pages. -/
def fetchAll (pages : Nat) (base : Filter) : Fallible Fetched :=
  fetchPages base pages .empty base.until

/-! ## By id -/

/-- The events found for ids, the last one for an id standing. -/
abbrev EventMap := List (String × NostrEvent)

def EventMap.get (found : EventMap) (id : String) : Option NostrEvent :=
  (found.find? fun entry => entry.1 == id).map Prod.snd

/-- The events of an answer that were asked for. -/
def keepAsked (asked : List String) (found : EventMap) (events : List NostrEvent) : EventMap :=
  events.foldl
    (fun found event => if asked.contains event.id then (event.id, event) :: found else found)
    found

theorem mem_keepAsked
    {asked : List String}
    {found : EventMap}
    {events : List NostrEvent}
    {entry : String × NostrEvent} :
    entry ∈ keepAsked asked found events ↔
      entry ∈ found ∨ entry.1 = entry.2.id ∧ entry.2 ∈ events ∧ entry.1 ∈ asked := by
  unfold keepAsked
  induction events generalizing found with
  | nil => simp
  | cons event events inductionHypothesis =>
      rw [List.foldl_cons, inductionHypothesis, List.mem_cons]
      by_cases isAsked : event.id ∈ asked
      · rw [if_pos (List.contains_iff_mem.mpr isAsked), List.mem_cons, Prod.ext_iff]
        constructor
        · rintro ((⟨sameId, rfl⟩ | before) | ⟨sameId, member, wasAsked⟩)
          · exact .inr ⟨sameId, .inl rfl, sameId ▸ isAsked⟩
          · exact .inl before
          · exact .inr ⟨sameId, .inr member, wasAsked⟩
        · rintro (before | ⟨sameId, rfl | member, wasAsked⟩)
          · exact .inl (.inr before)
          · exact .inl (.inl ⟨sameId, rfl⟩)
          · exact .inr ⟨sameId, member, wasAsked⟩
      · rw [if_neg (mt List.contains_iff_mem.mp isAsked)]
        constructor
        · rintro (before | ⟨sameId, member, wasAsked⟩)
          · exact .inl before
          · exact .inr ⟨sameId, .inr member, wasAsked⟩
        · rintro (before | ⟨sameId, rfl | member, wasAsked⟩)
          · exact .inl before
          · exact absurd (sameId ▸ wasAsked) isAsked
          · exact .inr ⟨sameId, member, wasAsked⟩

/-- Chunks of ids fetched one after another. -/
def fetchChunks : List (List String) → EventMap → Fallible EventMap
  | [], found => succeed found
  | chunk :: rest, found =>
      andThen (query { Filter.any with ids := some chunk, limit := some chunk.length }) fun events =>
        fetchChunks rest (keepAsked chunk found events)

/-- Events by id, some ids at a time. -/
def fetchByIds (ids : List String) : Fallible EventMap :=
  fetchChunks (Lib.chunks maxIdsPerReq ids) []

end ZoneMigrate
end NostrBbs
