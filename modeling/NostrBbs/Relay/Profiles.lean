import NostrBbs.Lib.Best
import NostrBbs.Lib.Page
import NostrBbs.Relay.Admission
import NostrBbs.Relay.Retention
import NostrBbs.Shared.Json

/-!
# The projection of profiles

The row that the newest metadata event of each pubkey leaves in the `profiles` table.  A
saved event of kind 0 is projected after its row is written, and a backfill replays the
stored ones page by page; both put a row where none newer is.  The table is compared with
the metadata events that were accepted.  Statements are taken to succeed, and the deletion
of a user's profile is left out.
-/

namespace NostrBbs
namespace Relay

open Lib

/-! ## Rows of profiles -/

/-- A row of the `profiles` table.  The `raw_event` column holds the event's JSON text, which
reads back as it was. -/
structure ProfileRow where
  pubkey : String
  name : Option String
  displayName : Option String
  picture : Option String
  banner : Option String
  about : Option String
  nip05 : Option String
  lud16 : Option String
  lastKind0At : Nat
  rawEvent : NostrEvent
deriving DecidableEq

abbrev ProfileTable :=
  Table ProfileRow ProfileRow.pubkey

/-- The members of an event's content, when it is the text of a JSON object. -/
def metadataOf (parseJson : String → Option JsonValue) (content : String) :
    Option (List (String × JsonValue)) :=
  match parseJson content with
  | some (.object fields) => some fields
  | _ => none

def strField (fields : List (String × JsonValue)) (key : String) : Option String :=
  (fields.lookup key).bind JsonValue.asStr

/-- The values that both upserts bind. -/
def profileRow
    (fields : List (String × JsonValue))
    (lastKind0At : Nat)
    (rawEvent : NostrEvent) : ProfileRow where
  pubkey := rawEvent.pubkey
  name := strField fields "name"
  displayName := (strField fields "display_name").or (strField fields "displayName")
  picture := strField fields "picture"
  banner := strField fields "banner"
  about := strField fields "about"
  nip05 := strField fields "nip05"
  lud16 := strField fields "lud16"
  lastKind0At := lastKind0At
  rawEvent := rawEvent

/-- The guard of both upserts: a newer row stays. -/
def newerStays (current excluded : ProfileRow) : Bool :=
  !decide (current.lastKind0At ≤ excluded.lastKind0At)

/-- The upsert of a live event. -/
def upsertProfile
    (parseJson : String → Option JsonValue)
    (profiles : ProfileTable)
    (event : NostrEvent) : ProfileTable :=
  match metadataOf parseJson event.content with
  | none => profiles
  | some fields => keepBest newerStays profiles (profileRow fields (asF64 event.createdAt) event)

/-- The columns of a stored event that the backfill reads. -/
structure Kind0Row where
  id : String
  pubkey : String
  createdAt : Nat
  content : String
  tags : List Tag
  sig : String
deriving DecidableEq

def Kind0Row.ofRow (row : EventRow) : Kind0Row where
  id := row.id
  pubkey := row.pubkey
  createdAt := row.createdAt
  content := row.content
  tags := row.tags
  sig := row.sig

/-- The event that the backfill puts together again. -/
def Kind0Row.rawEvent (row : Kind0Row) : NostrEvent where
  id := row.id
  pubkey := row.pubkey
  createdAt := row.createdAt
  kind := 0
  tags := row.tags
  content := row.content
  sig := row.sig

/-- The upsert of a stored event, and whether its statement ran. -/
def upsertProfileFromRow
    (parseJson : String → Option JsonValue)
    (profiles : ProfileTable)
    (row : Kind0Row) : ProfileTable × Bool :=
  match metadataOf parseJson row.content with
  | none => (profiles, false)
  | some fields =>
      (keepBest newerStays profiles (profileRow fields row.createdAt row.rawEvent), true)

/-! ## The backfill -/

def backfillBatchSize : Nat := 200

def backfillMaxRows : Nat := 50000

/-- A page of the stored metadata events. -/
def kind0Page
    {trigger : TagTrigger}
    (order : NewestFirst Kind0Row.createdAt)
    (store : Store trigger)
    (offset : Nat) : List Kind0Row :=
  ((order.sort ((store.events.filter fun row => row.kind = 0).map Kind0Row.ofRow)).drop
    offset).take backfillBatchSize

structure BackfillCounts where
  scanned : Nat
  backfilled : Nat
  skipped : Nat
deriving DecidableEq

structure BackfillResult where
  counts : BackfillCounts
  truncated : Bool
deriving DecidableEq

/-- A backfill between two of its statements. -/
inductive Backfill where
  | paging (offset : Nat) (counts : BackfillCounts)
  | upserting (offset pageLen : Nat) (rows : List Kind0Row) (counts : BackfillCounts)
  | finished (result : Except String BackfillResult)
deriving DecidableEq

namespace Backfill

def start : Backfill :=
  paging 0 ⟨0, 0, 0⟩

/-- The counts after a row was upserted or skipped. -/
def count (counts : BackfillCounts) (applied : Bool) : BackfillCounts where
  scanned := counts.scanned + 1
  backfilled := if applied then counts.backfilled + 1 else counts.backfilled
  skipped := if applied then counts.skipped else counts.skipped + 1

/-- What is left of a page after one of its rows. -/
def afterRow
    (offset pageLen : Nat)
    (rest : List Kind0Row)
    (counts : BackfillCounts) : Backfill :=
  if backfillMaxRows ≤ counts.scanned then finished (.ok ⟨counts, true⟩)
  else upserting offset pageLen rest counts

/-- What follows a page: the next one, when this one was full. -/
def afterPage
    (offset pageLen : Nat)
    (counts : BackfillCounts) : Backfill :=
  if pageLen < backfillBatchSize then finished (.ok ⟨counts, false⟩)
  else if offset + pageLen < 2 ^ 32 then paging (offset + pageLen) counts
  else finished (.error "offset overflow")

/-- The next statement of a backfill. -/
def advance
    {trigger : TagTrigger}
    (parseJson : String → Option JsonValue)
    (order : NewestFirst Kind0Row.createdAt)
    (store : Store trigger)
    (profiles : ProfileTable) : Backfill → ProfileTable × Backfill
  | paging offset counts =>
      let rows := kind0Page order store offset
      if rows.length = 0 then (profiles, finished (.ok ⟨counts, false⟩))
      else (profiles, upserting offset rows.length rows counts)
  | upserting offset pageLen [] counts => (profiles, afterPage offset pageLen counts)
  | upserting offset pageLen (row :: rest) counts =>
      let (profiles, applied) := upsertProfileFromRow parseJson profiles row
      (profiles, afterRow offset pageLen rest (count counts applied))
  | finished result => (profiles, finished result)

/-- The rows that a backfill has read and not yet upserted. -/
def pending : Backfill → List Kind0Row
  | upserting _ _ rows _ => rows
  | _ => []

end Backfill

/-! ## Runs -/

/-- The two tables, the events that were accepted, those of them that are not yet projected,
and the backfills that are under way. -/
structure ProfileState (trigger : TagTrigger) where
  store : Store trigger
  profiles : ProfileTable
  accepted : List NostrEvent
  ingesting : List NostrEvent
  backfills : List Backfill

inductive ProfileMove where
  /-- An event comes in, and is saved when its time is allowed. -/
  | ingest (event : NostrEvent) (now : Clock)
  /-- A saved event is projected. -/
  | project (index : Nat)
  /-- Rows of the event table are deleted. -/
  | delete (doomed : EventRow → Bool)
  | startBackfill
  | advanceBackfill (index : Nat)

namespace ProfileState

variable {trigger : TagTrigger}

def start : ProfileState trigger where
  store := Store.empty
  profiles := Table.empty
  accepted := []
  ingesting := []
  backfills := []

/-- The saving of an event; one of kind 0 is to be projected. -/
def ingest
    (state : ProfileState trigger)
    (event : NostrEvent)
    (now : Nat) : ProfileState trigger :=
  if timestampDriftOk event now then
    { state with
      store := state.store.saveEvent event (eventTreatment event.kind) now
      accepted := state.accepted ++ [event]
      ingesting := if event.kind = 0 then state.ingesting ++ [event] else state.ingesting }
  else state

def step
    (parseJson : String → Option JsonValue)
    (order : NewestFirst Kind0Row.createdAt)
    (state : ProfileState trigger) : ProfileMove → ProfileState trigger
  | .ingest event now => state.ingest event now
  | .project index =>
      match state.ingesting[index]? with
      | none => state
      | some event =>
          { state with
            profiles := upsertProfile parseJson state.profiles event
            ingesting := state.ingesting.eraseIdx index }
  | .delete doomed => { state with store := state.store.deleteWhere doomed }
  | .startBackfill => { state with backfills := state.backfills ++ [Backfill.start] }
  | .advanceBackfill index =>
      match state.backfills[index]? with
      | none => state
      | some backfill =>
          let (profiles, next) := backfill.advance parseJson order state.store state.profiles
          { state with
            profiles := profiles
            backfills := state.backfills.set index next }

end ProfileState

/-! ## What both upserts write -/

/-- An event of a pubkey that is well-formed metadata. -/
structure IsMetadata
    (parseJson : String → Option JsonValue)
    (pubkey : String)
    (event : NostrEvent) : Prop where
  kind : event.kind = 0
  author : event.pubkey = pubkey
  wellFormed : (metadataOf parseJson event.content).isSome

/-- The row that an event is projected to. -/
def profileOf
    (parseJson : String → Option JsonValue)
    (event : NostrEvent) : Option ProfileRow :=
  (metadataOf parseJson event.content).map fun fields =>
    profileRow fields event.createdAt event

section Upserts

variable {parseJson : String → Option JsonValue} {profiles : ProfileTable} {event : NostrEvent}

theorem ranks_newerStays :
    Ranks ProfileRow.lastKind0At newerStays where
  keeps := by
    intro current row stays
    simp only [newerStays, Bool.not_eq_true', decide_eq_false_iff_not] at stays
    omega
  goes := by
    intro current row goes
    simpa [newerStays] using goes

/-- A time that the check lets through is exact as a double. -/
theorem createdAt_lt_of_timestampDriftOk
    {now : Nat}
    (isClock : now ≤ maxClock)
    (allowed : timestampDriftOk event now = true) :
    event.createdAt < 2 ^ 53 := by
  unfold timestampDriftOk drift at allowed
  unfold maxClock at isClock
  have within : event.createdAt ≤ now + maxTimestampDrift := by
    rcases Bool.or_eq_true_iff.mp allowed with exempt | near
    · have past := of_decide_eq_true (Bool.and_eq_true_iff.mp exempt).1
      exact past.trans (Nat.le_add_right _ _)
    · have near := of_decide_eq_true near
      omega
  unfold maxTimestampDrift at within
  omega

theorem upsertProfile_eq
    (exact : event.createdAt < 2 ^ 53) :
    upsertProfile parseJson profiles event =
      match profileOf parseJson event with
      | none => profiles
      | some row => keepBest newerStays profiles row := by
  unfold upsertProfile profileOf
  rw [asF64_of_lt exact]
  cases metadataOf parseJson event.content with
  | none => rfl
  | some fields => rfl

/-- The backfill writes of a stored event what the live path wrote of it. -/
theorem upsertProfileFromRow_eq
    (exact : event.createdAt < 2 ^ 53)
    (isKind0 : event.kind = 0)
    (now : Nat) :
    (upsertProfileFromRow parseJson profiles
        (Kind0Row.ofRow (EventRow.ofEvent event now))).1 =
      upsertProfile parseJson profiles event := by
  obtain ⟨id, pubkey, createdAt, kind, tags, content, sig⟩ := event
  dsimp only at exact isKind0
  subst isKind0
  unfold upsertProfileFromRow upsertProfile
  simp only [Kind0Row.ofRow, EventRow.ofEvent, Kind0Row.rawEvent, asF64_of_lt exact]
  cases metadataOf parseJson content with
  | none => rfl
  | some fields => rfl

theorem pubkey_of_profileOf
    {row : ProfileRow}
    (projected : profileOf parseJson event = some row) :
    row.pubkey = event.pubkey ∧ row.lastKind0At = event.createdAt := by
  obtain ⟨fields, -, rfl⟩ := Option.map_eq_some_iff.mp projected
  exact ⟨rfl, rfl⟩

end Upserts

/-! ## What every run keeps -/

section Runs

variable {trigger : TagTrigger} {parseJson : String → Option JsonValue} {order : NewestFirst Kind0Row.createdAt}

/-- A stored event of kind 0 is the row of an accepted one. -/
def IsAccepted (accepted : List NostrEvent) (row : Kind0Row) : Prop :=
  ∃ event ∈ accepted, event.kind = 0 ∧ ∃ now, row = Kind0Row.ofRow (EventRow.ofEvent event now)

/-- What holds between the tables and the accepted events, with the rows that came to the
table of profiles. -/
structure ProjectsFrom
    (parseJson : String → Option JsonValue)
    (came : Set ProfileRow)
    (state : ProfileState trigger) : Prop where
  best : BestOf ProfileRow.lastKind0At came state.profiles
  drawn : ∀ row ∈ came, ∃ event ∈ state.accepted, event.kind = 0 ∧
    profileOf parseJson event = some row
  projected : ∀ event ∈ state.accepted, event.kind = 0 → event ∉ state.ingesting →
    ∀ row, profileOf parseJson event = some row → row ∈ came
  exact : ∀ event ∈ state.accepted, event.createdAt < 2 ^ 53
  ingesting : ∀ event ∈ state.ingesting, event ∈ state.accepted ∧ event.kind = 0
  stored : ∀ row ∈ state.store.events, row.kind = 0 →
    IsAccepted state.accepted (Kind0Row.ofRow row)
  pending : ∀ backfill ∈ state.backfills, ∀ row ∈ backfill.pending,
    IsAccepted state.accepted row

section Steps

variable {came : Set ProfileRow} {state : ProfileState trigger} {event : NostrEvent}

/-- The rows that came, with the one that an event is projected to. -/
def withProfile
    (parseJson : String → Option JsonValue)
    (came : Set ProfileRow)
    (event : NostrEvent) : Set ProfileRow :=
  {row | row ∈ came ∨ profileOf parseJson event = some row}

theorem best_upsertProfile
    {profiles : ProfileTable}
    (best : BestOf ProfileRow.lastKind0At came profiles)
    (exact : event.createdAt < 2 ^ 53) :
    BestOf ProfileRow.lastKind0At (withProfile parseJson came event)
      (upsertProfile parseJson profiles event) := by
  rw [upsertProfile_eq exact]
  cases projected : profileOf parseJson event with
  | none =>
      have same : withProfile parseJson came event = came := by
        ext row
        simp [withProfile, projected]
      rw [same]
      exact best
  | some row =>
      have grown : withProfile parseJson came event = insert row came := by
        ext other
        simp only [withProfile, projected, Option.some_inj, Set.mem_ofPred_eq, Set.mem_insert_iff]
        rw [or_comm, eq_comm]
      rw [grown]
      exact best.next ranks_newerStays row

theorem projectsFrom_start :
    ProjectsFrom parseJson ∅ (ProfileState.start : ProfileState trigger) where
  best := bestOf_empty
  drawn := fun _ isCame => absurd isCame (Set.notMem_empty _)
  projected := fun _ isAccepted => absurd isAccepted List.not_mem_nil
  exact := fun _ isAccepted => absurd isAccepted List.not_mem_nil
  ingesting := fun _ isIngesting => absurd isIngesting List.not_mem_nil
  stored := fun _ held => absurd held List.not_mem_nil
  pending := fun _ held => absurd held List.not_mem_nil

theorem mem_of_mem_saveEvent
    {store : Store trigger}
    {treatment : EventTreatment}
    {now : Nat}
    {row : EventRow}
    (held : row ∈ (store.saveEvent event treatment now).events) :
    row ∈ store.events ∨ row = EventRow.ofEvent event now := by
  cases treatment with
  | regular => exact (Store.mem_insert.mp held).imp_right And.left
  | ephemeral => exact .inl held
  | replaceable =>
      exact (Store.mem_insert.mp held).imp (fun old => (Store.mem_deleteWhere.mp old).1) And.left
  | parameterizedReplaceable =>
      exact (Store.mem_insert.mp held).imp (fun old => (Store.mem_deleteWhere.mp old).1) And.left

/-- A kind is bound as zero only when it is zero. -/
theorem kind_eq_zero_of_asF64
    {kind : Nat}
    (isZero : asF64 kind = 0) :
    kind = 0 := by
  have below : kind < 1 := (Lib.roundTo_lt_iff (by decide) (by decide)).mp
    (Nat.lt_one_iff.mpr isZero)
  exact Nat.lt_one_iff.mp below

theorem IsAccepted.mono
    {accepted more : List NostrEvent}
    (among : ∀ event ∈ accepted, event ∈ more)
    {row : Kind0Row}
    (isAccepted : IsAccepted accepted row) :
    IsAccepted more row := by
  obtain ⟨event, held, stamped⟩ := isAccepted
  exact ⟨event, among event held, stamped⟩

/-- An event that comes in is saved, and is still to be projected. -/
theorem projectsFrom_ingest
    (projects : ProjectsFrom parseJson came state)
    (event : NostrEvent)
    (now : Clock) :
    ProjectsFrom parseJson came (state.ingest event now) := by
  unfold ProfileState.ingest
  split
  case isFalse => exact projects
  case isTrue allowed =>
    have among : ∀ other ∈ state.accepted, other ∈ state.accepted ++ [event] :=
      fun _ held => List.mem_append_left _ held
    exact
      { best := projects.best
        drawn := fun row isCame => by
          obtain ⟨other, held, isKind0, projected⟩ := projects.drawn row isCame
          exact ⟨other, among other held, isKind0, projected⟩
        projected := by
          intro other held isKind0 notIngesting row projected
          rcases List.mem_append.mp held with old | isNew
          · refine projects.projected other old isKind0 (fun isIngesting => ?_) row projected
            refine notIngesting ?_
            dsimp only
            split
            · exact List.mem_append_left _ isIngesting
            · exact isIngesting
          · rw [List.mem_singleton] at isNew
            subst isNew
            simp [isKind0] at notIngesting
        exact := by
          intro other held
          rcases List.mem_append.mp held with old | isNew
          · exact projects.exact other old
          · rw [List.mem_singleton] at isNew
            rw [isNew]
            exact createdAt_lt_of_timestampDriftOk now.2 allowed
        ingesting := by
          intro other isIngesting
          dsimp only at isIngesting
          split at isIngesting
          case isTrue isKind0 =>
            rcases List.mem_append.mp isIngesting with old | isNew
            · obtain ⟨held, oldKind⟩ := projects.ingesting other old
              exact ⟨among other held, oldKind⟩
            · rw [List.mem_singleton] at isNew
              rw [isNew]
              exact ⟨List.mem_append_right _ (List.mem_singleton_self event), isKind0⟩
          case isFalse =>
            obtain ⟨held, oldKind⟩ := projects.ingesting other isIngesting
            exact ⟨among other held, oldKind⟩
        stored := by
          intro row held isKind0
          rcases mem_of_mem_saveEvent held with old | rfl
          · exact (projects.stored row old isKind0).mono among
          · exact ⟨event, List.mem_append_right _ (List.mem_singleton_self event),
              kind_eq_zero_of_asF64 isKind0, now, rfl⟩
        pending := fun backfill held row isPending =>
          (projects.pending backfill held row isPending).mono among }

/-- A saved event comes to the table of profiles. -/
theorem projectsFrom_project
    (projects : ProjectsFrom parseJson came state)
    {index : Nat}
    (atIndex : state.ingesting[index]? = some event) :
    ProjectsFrom parseJson (withProfile parseJson came event)
      { state with
        profiles := upsertProfile parseJson state.profiles event
        ingesting := state.ingesting.eraseIdx index } := by
  obtain ⟨isAccepted, isKind0⟩ := projects.ingesting event (List.mem_of_getElem? atIndex)
  exact
    { best := best_upsertProfile projects.best (projects.exact event isAccepted)
      drawn := by
        rintro row (isCame | projected)
        · exact projects.drawn row isCame
        · exact ⟨event, isAccepted, isKind0, projected⟩
      projected := by
        intro other held otherKind notLeft row projected
        by_cases isEvent : other = event
        · exact .inr (isEvent ▸ projected)
        · refine .inl (projects.projected other held otherKind ?_ row projected)
          intro isIngesting
          -- what is not at the index is not taken away with it
          obtain ⟨place, atPlace⟩ := List.mem_iff_getElem?.mp isIngesting
          have elsewhere : place ≠ index := by
            rintro rfl
            rw [atIndex] at atPlace
            exact isEvent (Option.some.inj atPlace).symm
          exact notLeft (List.mem_eraseIdx_iff_getElem?.mpr ⟨place, elsewhere, atPlace⟩)
      exact := projects.exact
      ingesting := fun other left => projects.ingesting other (List.mem_of_mem_eraseIdx left)
      stored := projects.stored
      pending := projects.pending }

/-- The rows of a page are stored. -/
theorem mem_kind0Page
    {store : Store trigger}
    {offset : Nat}
    {row : Kind0Row}
    (onPage : row ∈ kind0Page order store offset) :
    ∃ stored ∈ store.events, stored.kind = 0 ∧ row = Kind0Row.ofRow stored := by
  have sorted := List.mem_of_mem_drop (List.mem_of_mem_take onPage)
  obtain ⟨stored, kept, rfl⟩ := List.mem_map.mp ((order.perm _).mem_iff.mp sorted)
  obtain ⟨held, isKind0⟩ := List.mem_filter.mp kept
  exact ⟨stored, held, of_decide_eq_true isKind0, rfl⟩

/-- What one statement of a backfill can do: read a page, upsert the first of the rows that
are left, or neither. -/
theorem advance_cases
    (parseJson : String → Option JsonValue)
    (order : NewestFirst Kind0Row.createdAt)
    (store : Store trigger)
    (profiles : ProfileTable)
    (backfill : Backfill) :
    (∃ offset, (backfill.advance parseJson order store profiles).1 = profiles ∧
      (backfill.advance parseJson order store profiles).2.pending ⊆
        kind0Page order store offset) ∨
    (∃ row ∈ backfill.pending,
      (backfill.advance parseJson order store profiles).1 =
        (upsertProfileFromRow parseJson profiles row).1 ∧
      (backfill.advance parseJson order store profiles).2.pending ⊆ backfill.pending) := by
  cases backfill with
  | paging offset counts =>
      left
      refine ⟨offset, ?_⟩
      simp only [Backfill.advance]
      split
      · exact ⟨rfl, List.nil_subset _⟩
      · exact ⟨rfl, List.Subset.refl _⟩
  | upserting offset pageLen rows counts =>
      cases rows with
      | nil =>
          left
          refine ⟨offset, rfl, ?_⟩
          simp only [Backfill.advance, Backfill.afterPage]
          split
          · exact List.nil_subset _
          · split
            · exact List.nil_subset _
            · exact List.nil_subset _
      | cons row rest =>
          right
          refine ⟨row, List.mem_cons_self, rfl, ?_⟩
          simp only [Backfill.advance, Backfill.afterRow]
          split
          · exact List.nil_subset _
          · exact List.subset_cons_self row rest
  | finished result =>
      left
      exact ⟨0, rfl, List.nil_subset _⟩

/-- A backfill's statement projects an accepted event, or leaves the profiles. -/
theorem projectsFrom_advanceBackfill
    (projects : ProjectsFrom parseJson came state)
    {index : Nat}
    {backfill : Backfill}
    (atIndex : state.backfills[index]? = some backfill) :
    ∃ more, came ⊆ more ∧
      ProjectsFrom parseJson more (state.step parseJson order (.advanceBackfill index)) := by
  have underWay : backfill ∈ state.backfills := List.mem_of_getElem? atIndex
  simp only [ProfileState.step, atIndex]
  rcases advance_cases parseJson order state.store state.profiles backfill with
    ⟨offset, sameProfiles, fromPage⟩ | ⟨row, isPending, upserted, rest⟩
  · refine ⟨came, subset_rfl, ?_⟩
    exact
      { best := by
          rw [sameProfiles]
          exact projects.best
        drawn := projects.drawn
        projected := projects.projected
        exact := projects.exact
        ingesting := projects.ingesting
        stored := projects.stored
        pending := by
          intro other held row isPending
          rcases List.mem_or_eq_of_mem_set held with old | rfl
          · exact projects.pending other old row isPending
          · obtain ⟨stored, isStored, isKind0, rfl⟩ := mem_kind0Page (fromPage isPending)
            exact projects.stored stored isStored isKind0 }
  · obtain ⟨event, isAccepted, isKind0, now, rfl⟩ :=
      projects.pending backfill underWay row isPending
    have exact := projects.exact event isAccepted
    refine ⟨withProfile parseJson came event, fun _ isCame => .inl isCame, ?_⟩
    exact
      { best := by
          rw [upserted, upsertProfileFromRow_eq exact isKind0]
          exact best_upsertProfile projects.best exact
        drawn := by
          rintro row (isCame | projected)
          · exact projects.drawn row isCame
          · exact ⟨event, isAccepted, isKind0, projected⟩
        projected := fun other otherHeld otherKind notIngesting row projected =>
          .inl (projects.projected other otherHeld otherKind notIngesting row projected)
        exact := projects.exact
        ingesting := projects.ingesting
        stored := projects.stored
        pending := by
          intro other held row isPending
          rcases List.mem_or_eq_of_mem_set held with old | rfl
          · exact projects.pending other old row isPending
          · exact projects.pending backfill underWay row (rest isPending) }

/-- Every step keeps what holds, and only lets rows come. -/
theorem projectsFrom_step
    (order : NewestFirst Kind0Row.createdAt)
    (projects : ProjectsFrom parseJson came state)
    (move : ProfileMove) :
    ∃ more, came ⊆ more ∧ ProjectsFrom parseJson more (state.step parseJson order move) := by
  cases move with
  | ingest event now => exact ⟨came, subset_rfl, projectsFrom_ingest projects event now⟩
  | project index =>
      simp only [ProfileState.step]
      cases atIndex : state.ingesting[index]? with
      | none => exact ⟨came, subset_rfl, projects⟩
      | some event =>
          exact ⟨withProfile parseJson came event, fun _ isCame => .inl isCame,
            projectsFrom_project projects atIndex⟩
  | delete doomed =>
      refine ⟨came, subset_rfl, ?_⟩
      exact
        { projects with
          stored := fun row held => projects.stored row (Store.mem_deleteWhere.mp held).1 }
  | startBackfill =>
      refine ⟨came, subset_rfl, ?_⟩
      exact
        { projects with
          pending := by
            intro backfill held row isPending
            rcases List.mem_append.mp held with old | isNew
            · exact projects.pending backfill old row isPending
            · rw [List.mem_singleton] at isNew
              subst isNew
              exact absurd isPending List.not_mem_nil }
  | advanceBackfill index =>
      cases atIndex : state.backfills[index]? with
      | none =>
          simp only [ProfileState.step, atIndex]
          exact ⟨came, subset_rfl, projects⟩
      | some backfill => exact projectsFrom_advanceBackfill projects atIndex

end Steps

/-- The state after some moves on empty tables. -/
def profilesAfter
    (trigger : TagTrigger)
    (parseJson : String → Option JsonValue)
    (order : NewestFirst Kind0Row.createdAt)
    (moves : List ProfileMove) : ProfileState trigger :=
  run (ProfileState.step parseJson order) ProfileState.start moves

theorem projectsFrom_after
    (trigger : TagTrigger)
    (parseJson : String → Option JsonValue)
    (order : NewestFirst Kind0Row.createdAt)
    (moves : List ProfileMove) :
    ∃ came, ProjectsFrom parseJson came (profilesAfter trigger parseJson order moves) := by
  have kept : ∀ (state : ProfileState trigger) move,
      (∃ came, ProjectsFrom parseJson came state) →
      ∃ came, ProjectsFrom parseJson came (state.step parseJson order move) := by
    rintro state move ⟨came, projects⟩
    obtain ⟨more, -, next⟩ := projectsFrom_step order projects move
    exact ⟨more, next⟩
  exact invariant_run kept ⟨∅, projectsFrom_start⟩ moves

end Runs

/-! ## The newest metadata -/

section Newest

variable {trigger : TagTrigger} {parseJson : String → Option JsonValue} {order : NewestFirst Kind0Row.createdAt}
  {came : Set ProfileRow} {state : ProfileState trigger} {pubkey : String} {event : NostrEvent}
  {row : ProfileRow}

/-- An accepted metadata event of a pubkey that is at least as new as each one whose saving
has ended. -/
structure IsNewest
    (parseJson : String → Option JsonValue)
    (state : ProfileState trigger)
    (pubkey : String)
    (event : NostrEvent) : Prop where
  isAccepted : event ∈ state.accepted
  isMetadata : IsMetadata parseJson pubkey event
  newest : ∀ other ∈ state.accepted, other ∉ state.ingesting →
    IsMetadata parseJson pubkey other → other.createdAt ≤ event.createdAt

/-- No event of a pubkey is still to be projected. -/
def ProfileState.Settled (state : ProfileState trigger) (pubkey : String) : Prop :=
  ∀ event ∈ state.ingesting, event.pubkey ≠ pubkey

theorem isMetadata_of_profileOf
    (isKind0 : event.kind = 0)
    (projected : profileOf parseJson event = some row) :
    IsMetadata parseJson event.pubkey event := by
  obtain ⟨fields, parsed, -⟩ := Option.map_eq_some_iff.mp projected
  exact ⟨isKind0, rfl, Option.isSome_of_mem parsed⟩

/-- Accepted metadata came, once it was projected. -/
theorem ProjectsFrom.came_of_isMetadata
    (projects : ProjectsFrom parseJson came state)
    (isAccepted : event ∈ state.accepted)
    (notIngesting : event ∉ state.ingesting)
    (isMetadata : IsMetadata parseJson pubkey event) :
    ∃ row ∈ came, profileOf parseJson event = some row ∧ row.pubkey = pubkey ∧
      row.lastKind0At = event.createdAt := by
  obtain ⟨fields, parsed⟩ := Option.isSome_iff_exists.mp isMetadata.wellFormed
  have projected : profileOf parseJson event = some (profileRow fields event.createdAt event) := by
    rw [profileOf, parsed]
    rfl
  exact ⟨_, projects.projected event isAccepted isMetadata.kind notIngesting _ projected,
    projected, isMetadata.author, rfl⟩

/-- A row carries the fields of one of the newest metadata events of its pubkey. -/
theorem ProjectsFrom.isNewest
    (projects : ProjectsFrom parseJson came state)
    (found : state.profiles.find? pubkey = some row) :
    ∃ event, IsNewest parseJson state pubkey event ∧ profileOf parseJson event = some row := by
  obtain ⟨held, named⟩ := Table.find?_eq_some_iff.mp found
  obtain ⟨event, isAccepted, isKind0, projected⟩ := projects.drawn row
    (projects.best.drawn row held)
  obtain ⟨author, time⟩ := pubkey_of_profileOf projected
  have isMetadata := isMetadata_of_profileOf isKind0 projected
  rw [← author, named] at isMetadata
  refine ⟨event, ⟨isAccepted, isMetadata, ?_⟩, projected⟩
  intro other otherAccepted notIngesting otherMetadata
  obtain ⟨otherRow, isCame, -, otherNamed, otherTime⟩ :=
    projects.came_of_isMetadata otherAccepted notIngesting otherMetadata
  have below := projects.best.best held otherRow isCame (otherNamed.trans named.symm)
  rwa [otherTime, time] at below

/-- A pubkey without a row has no metadata but what is still to be projected. -/
theorem ProjectsFrom.ingesting_of_noRow
    (projects : ProjectsFrom parseJson came state)
    (noRow : state.profiles.find? pubkey = none)
    (isAccepted : event ∈ state.accepted)
    (isMetadata : IsMetadata parseJson pubkey event) :
    event ∈ state.ingesting := by
  by_contra notIngesting
  obtain ⟨row, isCame, -, named, -⟩ :=
    projects.came_of_isMetadata isAccepted notIngesting isMetadata
  obtain ⟨kept, held, sameKey⟩ := projects.best.exists_row isCame
  refine Table.find?_eq_none_iff.mp noRow ?_
  rw [← named, ← sameKey]
  exact List.mem_map_of_mem held

/-- No two metadata events of a pubkey share the greatest time. -/
def OneNewest
    (parseJson : String → Option JsonValue)
    (state : ProfileState trigger)
    (pubkey : String) : Prop :=
  ∀ first second, IsNewest parseJson state pubkey first → IsNewest parseJson state pubkey second →
    first.createdAt = second.createdAt → first = second

/-- The profile of a pubkey stands when accepted metadata is upserted once more. -/
theorem ProjectsFrom.find?_upsertProfile
    (projects : ProjectsFrom parseJson came state)
    (settled : state.Settled pubkey)
    (oneNewest : OneNewest parseJson state pubkey)
    (isAccepted : event ∈ state.accepted)
    (isKind0 : event.kind = 0) :
    (upsertProfile parseJson state.profiles event).find? pubkey =
      state.profiles.find? pubkey := by
  rw [upsertProfile_eq (projects.exact event isAccepted)]
  cases projected : profileOf parseJson event with
  | none => rfl
  | some row =>
      obtain ⟨author, time⟩ := pubkey_of_profileOf projected
      dsimp only
      by_cases ofPubkey : event.pubkey = pubkey
      · have notIngesting : event ∉ state.ingesting := fun isIngesting =>
          settled event isIngesting ofPubkey
        have isCame := projects.projected event isAccepted isKind0 notIngesting row projected
        refine projects.best.find?_again ranks_newerStays isCame ?_ _
        intro current found sameTime
        rw [author, ofPubkey] at found
        obtain ⟨newest, isNewest, shows⟩ := projects.isNewest found
        -- the event is as new as the newest, so it is the newest
        have sameCreatedAt : newest.createdAt = event.createdAt := by
          rw [← time, ← sameTime, (pubkey_of_profileOf shows).2]
        have alsoNewest : IsNewest parseJson state pubkey event := by
          refine ⟨isAccepted, ofPubkey ▸ isMetadata_of_profileOf isKind0 projected, ?_⟩
          intro other otherAccepted otherProjected otherMetadata
          rw [← sameCreatedAt]
          exact isNewest.newest other otherAccepted otherProjected otherMetadata
        have same := oneNewest newest event isNewest alsoNewest sameCreatedAt
        rw [same, projected] at shows
        exact (Option.some.inj shows).symm
      · refine find?_keepBest_of_ne ?_
        rw [author]
        exact Ne.symm ofPubkey

/-! ## Backfills of a settled profile -/

/-- A move that saves no event of a pubkey. -/
def ProfileMove.Spares (pubkey : String) : ProfileMove → Prop
  | .ingest event _ => event.pubkey ≠ pubkey
  | _ => True

/-- The profile of a pubkey is as it was, and so are the events of it that were accepted. -/
structure Stands
    (parseJson : String → Option JsonValue)
    (pubkey : String)
    (before state : ProfileState trigger) : Prop where
  projects : ∃ came, ProjectsFrom parseJson came state
  settled : state.Settled pubkey
  sameAccepted : ∀ event : NostrEvent, event.pubkey = pubkey →
    (event ∈ state.accepted ↔ event ∈ before.accepted)
  sameProfile : state.profiles.find? pubkey = before.profiles.find? pubkey

section

variable {before : ProfileState trigger}

theorem Stands.oneNewest
    (stands : Stands parseJson pubkey before state)
    (oneNewest : OneNewest parseJson before pubkey) :
    OneNewest parseJson state pubkey := by
  have newestBefore : ∀ event, IsNewest parseJson state pubkey event →
      IsNewest parseJson before pubkey event := by
    rintro event ⟨isAccepted, isMetadata, newest⟩
    refine ⟨(stands.sameAccepted event isMetadata.author).mp isAccepted, isMetadata, ?_⟩
    intro other otherAccepted _ otherMetadata
    have author := otherMetadata.author
    exact newest other ((stands.sameAccepted other author).mpr otherAccepted)
      (fun isIngesting => stands.settled other isIngesting author) otherMetadata
  intro first second firstNewest secondNewest sameTime
  exact oneNewest first second (newestBefore first firstNewest)
    (newestBefore second secondNewest) sameTime

/-- Each step that saves no event of the pubkey leaves its profile. -/
theorem Stands.step
    (stands : Stands parseJson pubkey before state)
    (oneNewest : OneNewest parseJson before pubkey)
    (move : ProfileMove)
    (spares : move.Spares pubkey) :
    Stands parseJson pubkey before (state.step parseJson order move) := by
  obtain ⟨came, projects⟩ := stands.projects
  have stillOne := stands.oneNewest oneNewest
  have projectsNext : ∃ came, ProjectsFrom parseJson came (state.step parseJson order move) := by
    obtain ⟨more, -, next⟩ := projectsFrom_step order projects move
    exact ⟨more, next⟩
  cases move with
  | ingest event now =>
      unfold ProfileMove.Spares at spares
      refine ⟨projectsNext, ?_, ?_, ?_⟩ <;> simp only [ProfileState.step, ProfileState.ingest]
      · split
        · intro other isIngesting
          dsimp only at isIngesting
          split at isIngesting
          · rcases List.mem_append.mp isIngesting with old | isNew
            · exact stands.settled other old
            · rw [List.mem_singleton] at isNew
              rw [isNew]
              exact spares
          · exact stands.settled other isIngesting
        · exact stands.settled
      · intro other author
        rw [← stands.sameAccepted other author]
        split
        · have notNew : other ≠ event := by
            rintro rfl
            exact spares author
          simp [notNew]
        · exact Iff.rfl
      · split
        · exact stands.sameProfile
        · exact stands.sameProfile
  | project index =>
      simp only [ProfileState.step] at projectsNext ⊢
      cases atIndex : state.ingesting[index]? with
      | none => exact stands
      | some event =>
          rw [atIndex] at projectsNext
          obtain ⟨isAccepted, isKind0⟩ := projects.ingesting event (List.mem_of_getElem? atIndex)
          refine ⟨projectsNext, ?_, stands.sameAccepted, ?_⟩
          · exact fun other left => stands.settled other (List.mem_of_mem_eraseIdx left)
          · rw [← stands.sameProfile]
            exact projects.find?_upsertProfile stands.settled stillOne isAccepted isKind0
  | delete doomed => exact ⟨projectsNext, stands.settled, stands.sameAccepted, stands.sameProfile⟩
  | startBackfill => exact ⟨projectsNext, stands.settled, stands.sameAccepted, stands.sameProfile⟩
  | advanceBackfill index =>
      simp only [ProfileState.step] at projectsNext ⊢
      cases atIndex : state.backfills[index]? with
      | none => exact stands
      | some backfill =>
          rw [atIndex] at projectsNext
          refine ⟨projectsNext, stands.settled, stands.sameAccepted, ?_⟩
          rw [← stands.sameProfile]
          rcases advance_cases parseJson order state.store state.profiles backfill with
            ⟨offset, sameProfiles, -⟩ | ⟨row, isPending, upserted, -⟩
          · exact congrArg (fun profiles : ProfileTable => profiles.find? pubkey) sameProfiles
          · obtain ⟨event, isAccepted, isKind0, now, rfl⟩ :=
              projects.pending backfill (List.mem_of_getElem? atIndex) row isPending
            rw [upsertProfileFromRow_eq (projects.exact event isAccepted) isKind0] at upserted
            dsimp only
            rw [upserted]
            exact projects.find?_upsertProfile stands.settled stillOne isAccepted isKind0

end

/-- After any moves the row of a pubkey carries the fields of an accepted metadata event as
new as every one whose saving has ended, and there is none only where there is no such event;
once nothing of the pubkey is still to be projected and no two of its newest events share their
time, what saves none of its events, a backfill among them, leaves the row as it is. -/
theorem profile_newest
    (trigger : TagTrigger)
    (parseJson : String → Option JsonValue)
    (order : NewestFirst Kind0Row.createdAt)
    (moves : List ProfileMove)
    (pubkey : String) :
    let state := profilesAfter trigger parseJson order moves
    (∀ row, state.profiles.find? pubkey = some row →
      ∃ event, IsNewest parseJson state pubkey event ∧ profileOf parseJson event = some row) ∧
    (state.profiles.find? pubkey = none → ∀ event ∈ state.accepted,
      IsMetadata parseJson pubkey event → event ∈ state.ingesting) ∧
    (state.Settled pubkey → OneNewest parseJson state pubkey →
      ∀ more, (∀ move ∈ more, ProfileMove.Spares pubkey move) →
        (profilesAfter trigger parseJson order (moves ++ more)).profiles.find? pubkey =
          state.profiles.find? pubkey) := by
  obtain ⟨came, projects⟩ := projectsFrom_after trigger parseJson order moves
  refine ⟨fun row found => projects.isNewest found, fun noRow event isAccepted isMetadata =>
    projects.ingesting_of_noRow noRow isAccepted isMetadata, ?_⟩
  intro settled oneNewest more spares
  have stands : Stands parseJson pubkey (profilesAfter trigger parseJson order moves)
      (profilesAfter trigger parseJson order (moves ++ more)) := by
    induction more using List.reverseRecOn with
    | nil =>
        rw [List.append_nil]
        exact ⟨⟨came, projects⟩, settled, fun _ _ => Iff.rfl, rfl⟩
    | append_singleton past move inductionHypothesis =>
        have appended : profilesAfter trigger parseJson order (moves ++ (past ++ [move])) =
            (profilesAfter trigger parseJson order (moves ++ past)).step parseJson order move := by
          unfold profilesAfter
          rw [← List.append_assoc, run_append]
          rfl
        rw [appended]
        have pastSpares : ∀ move ∈ past, ProfileMove.Spares pubkey move :=
          fun move isPast => spares move (List.mem_append_left _ isPast)
        exact (inductionHypothesis pastSpares).step oneNewest move
          (spares move (List.mem_append_right _ (List.mem_singleton_self move)))
  exact stands.sameProfile

end Newest

end Relay
end NostrBbs
