import Mathlib.Data.Prod.Lex
import NostrBbs.Lib.Page
import NostrBbs.Lib.Table
import NostrBbs.Relay.Query
import NostrBbs.Relay.ReadGate

/-!
# Activity on profile cards

The activity that a profile card shows of an identity: how many posts, the first and the
last of them, and the channels with the most.  The card attributes a message to a channel and
asks for the rights of its viewer in its own way; the read gate of a subscription does both in
another.  Lookups are taken to succeed.
-/

namespace NostrBbs
namespace Relay

open Lib

/-- Notes, channel messages and comments. -/
def postKinds : List Nat := [1, 42, 1111]

def statsMaxRows : Nat := 5000

def topChannelCount : Nat := 5

/-! ## Aggregation -/

structure ChannelActivity where
  id : String
  count : Nat
  lastAt : Nat
deriving DecidableEq, Repr

structure Activity where
  postCount : Nat
  firstPostAt : Option Nat
  lastPostAt : Option Nat
  topChannels : List ChannelActivity
deriving DecidableEq, Repr

/-- The channel of a message as the card takes it: the first `e` tag. -/
def channelOf (kind : Nat) (tags : List Tag) : Option String :=
  if kind ≠ 42 then none else (tags.find? (isValued "e")).map firstValue

/-- Most posts first, then the latest, then by id. -/
def ChannelActivity.rank (channel : ChannelActivity) : Natᵒᵈ ×ₗ Natᵒᵈ ×ₗ String :=
  toLex (OrderDual.toDual channel.count, toLex (OrderDual.toDual channel.lastAt, channel.id))

def mostActive (channels : List ChannelActivity) : List ChannelActivity :=
  (channels.mergeSort fun first second => decide (first.rank ≤ second.rank)).take topChannelCount

/-- What is counted while the rows are gone through. -/
structure Tallied where
  postCount : Nat
  firstPostAt : Option Nat
  lastPostAt : Option Nat
  perChannel : Table ChannelActivity ChannelActivity.id

namespace Tallied

def start : Tallied where
  postCount := 0
  firstPostAt := none
  lastPostAt := none
  perChannel := Table.empty

/-- One more post at a time, in a channel or in none. -/
def count (tallied : Tallied) (post : Nat × Option String) : Tallied where
  postCount := tallied.postCount + 1
  firstPostAt := some (tallied.firstPostAt.elim post.1 fun first => min first post.1)
  lastPostAt := some (tallied.lastPostAt.elim post.1 fun last => max last post.1)
  perChannel :=
    match post.2 with
    | none => tallied.perChannel
    | some id =>
        let entry := (tallied.perChannel.find? id).getD ⟨id, 0, 0⟩
        tallied.perChannel.put ⟨id, entry.count + 1, max entry.lastAt post.1⟩

end Tallied

section Aggregate

variable (channelZone : String → Option String) (canReadZone : String → Bool)

/-- A channel is bound to no zone, or to one that may be read. -/
def channelAllowed (channel : Option String) : Bool :=
  (channel.bind channelZone).all canReadZone

def aggregateRow (tallied : Tallied) (row : EventRow) : Tallied :=
  let channel := channelOf row.kind row.tags
  if channelAllowed channelZone canReadZone channel then tallied.count (row.createdAt, channel)
  else tallied

def aggregate (rows : List EventRow) : Activity :=
  let tallied := rows.foldl (aggregateRow channelZone canReadZone) Tallied.start
  { postCount := tallied.postCount
    firstPostAt := tallied.firstPostAt
    lastPostAt := tallied.lastPostAt
    topChannels := mostActive tallied.perChannel.rows }

end Aggregate

def viewerCanRead
    (zones : ZoneConfig)
    (zone : String)
    (cohorts : List String)
    (isAdmin : Bool) : Bool :=
  isAdmin || zones.isPublicRead zone || zones.cohortsCanRead zone cohorts

/-! ## The request -/

/-- The posts of an identity that are read: the newest ones, up to the cap. -/
def postRows
    {trigger : TagTrigger}
    (order : NewestFirst EventRow.createdAt)
    (store : Store trigger)
    (identities : List String) : List EventRow :=
  (order.sort (store.events.filter fun row =>
    identities.contains row.pubkey && postKinds.contains row.kind)).take statsMaxRows

namespace Deployment

variable (deployment : Deployment)

/-- The cohorts and the administrator's mark of a viewer's own key. -/
def ownCohorts (viewer : Option String) : List String × Bool :=
  viewer.elim ([], false) deployment.viewerCohorts

/-- The zones that a card lets its viewer read. -/
def cardCanRead (viewer : Option String) (zone : String) : Bool :=
  let (cohorts, isAdmin) := deployment.ownCohorts viewer
  viewerCanRead deployment.zones zone cohorts isAdmin

/-- The activity that a card shows its viewer of some rows. -/
def activity (viewer : Option String) (rows : List EventRow) : Activity :=
  aggregate deployment.channelZone (deployment.cardCanRead viewer) rows

end Deployment

/-! ## The activity of posts -/

/-- What a channel has of some posts. -/
def channelActivity (posts : List (Nat × Option String)) (id : String) : ChannelActivity where
  id := id
  count := posts.countP fun post => post.2 = some id
  lastAt := ((posts.filter fun post => post.2 = some id).map Prod.fst).foldl max 0

/-- The number of some posts, their first and last times, and the most active of their
channels. -/
def activityOf (posts : List (Nat × Option String)) : Activity where
  postCount := posts.length
  firstPostAt := (posts.map Prod.fst).min?
  lastPostAt := (posts.map Prod.fst).max?
  topChannels := mostActive ((posts.filterMap Prod.snd).dedup.map (channelActivity posts))

section Tally

variable {posts : List (Nat × Option String)} {post : Nat × Option String} {id : String}

theorem channelActivity_append
    (posts : List (Nat × Option String))
    (post : Nat × Option String)
    (id : String) :
    channelActivity (posts ++ [post]) id =
      if post.2 = some id then
        ⟨id, (channelActivity posts id).count + 1, max (channelActivity posts id).lastAt post.1⟩
      else channelActivity posts id := by
  by_cases isChannel : post.2 = some id
  · simp [channelActivity, isChannel, List.filter_append, List.foldl_append]
  · simp [channelActivity, isChannel, List.filter_append]

/-- A channel without posts has none of their activity. -/
theorem channelActivity_of_notMem
    (noPost : id ∉ posts.filterMap Prod.snd) :
    channelActivity posts id = ⟨id, 0, 0⟩ := by
  have none : (posts.filter fun post => post.2 = some id) = [] := by
    rw [List.filter_eq_nil_iff]
    intro post isPost isChannel
    exact noPost (List.mem_filterMap.mpr ⟨post, isPost, of_decide_eq_true isChannel⟩)
  simp [channelActivity, none, List.countP_eq_length_filter]

theorem mem_channels_append
    (posts : List (Nat × Option String))
    (post : Nat × Option String)
    (id : String) :
    id ∈ (posts ++ [post]).filterMap Prod.snd ↔
      id ∈ posts.filterMap Prod.snd ∨ post.2 = some id := by
  rw [List.filterMap_append, List.mem_append]
  refine or_congr_right ?_
  simp [List.mem_filterMap]

/-- What is counted of posts, one after the other. -/
structure Counts (posts : List (Nat × Option String)) (tallied : Tallied) : Prop where
  postCount : tallied.postCount = posts.length
  firstPostAt : tallied.firstPostAt = (posts.map Prod.fst).min?
  lastPostAt : tallied.lastPostAt = (posts.map Prod.fst).max?
  perChannel : ∀ id, tallied.perChannel.find? id =
    if id ∈ posts.filterMap Prod.snd then some (channelActivity posts id) else none

theorem min?_append_singleton
    (times : List Nat)
    (time : Nat) :
    (times ++ [time]).min? = some (times.min?.elim time fun first => min first time) := by
  cases times with
  | nil => rfl
  | cons head times =>
      rw [List.cons_append, List.min?_cons', List.min?_cons', List.foldl_append]
      rfl

theorem max?_append_singleton
    (times : List Nat)
    (time : Nat) :
    (times ++ [time]).max? = some (times.max?.elim time fun last => max last time) := by
  cases times with
  | nil => rfl
  | cons head times =>
      rw [List.cons_append, List.max?_cons', List.max?_cons', List.foldl_append]
      rfl

theorem Counts.count
    {tallied : Tallied}
    (counts : Counts posts tallied)
    (post : Nat × Option String) :
    Counts (posts ++ [post]) (tallied.count post) where
  postCount := by
    rw [Tallied.count, counts.postCount, List.length_append]
    rfl
  firstPostAt := by
    rw [Tallied.count, counts.firstPostAt, List.map_append]
    exact (min?_append_singleton _ _).symm
  lastPostAt := by
    rw [Tallied.count, counts.lastPostAt, List.map_append]
    exact (max?_append_singleton _ _).symm
  perChannel := by
    intro id
    rw [channelActivity_append]
    simp only [mem_channels_append]
    cases channel : post.2 with
    | none =>
        simp only [Tallied.count, channel, counts.perChannel id, reduceCtorEq, if_false]
        exact if_congr (or_iff_left (by simp)).symm rfl rfl
    | some ofPost =>
        have entry : ((tallied.perChannel.find? ofPost).getD ⟨ofPost, 0, 0⟩) =
            channelActivity posts ofPost := by
          rw [counts.perChannel]
          by_cases isMember : ofPost ∈ posts.filterMap Prod.snd
          · rw [if_pos isMember]
            rfl
          · rw [if_neg isMember, channelActivity_of_notMem isMember]
            rfl
        simp only [Tallied.count, channel]
        rw [entry, Table.find?_put, counts.perChannel]
        by_cases same : id = ofPost
        · subst same
          simp
        · have other : ¬ofPost = id := fun reversed => same reversed.symm
          have otherChannel : ¬some ofPost = some id := fun reversed =>
            other (Option.some.inj reversed)
          rw [if_neg same, if_neg otherChannel]
          exact if_congr (or_iff_left otherChannel).symm rfl rfl

theorem counts_foldl
    (posts : List (Nat × Option String)) :
    Counts posts (posts.foldl Tallied.count Tallied.start) := by
  induction posts using List.reverseRecOn with
  | nil => exact ⟨rfl, rfl, rfl, fun id => rfl⟩
  | append_singleton posts post inductionHypothesis =>
      rw [List.foldl_append]
      exact inductionHypothesis.count post

/-- The channels that were counted are those of the posts, in some order. -/
theorem Counts.perm
    {tallied : Tallied}
    (counts : Counts posts tallied) :
    tallied.perChannel.rows.Perm
      ((posts.filterMap Prod.snd).dedup.map (channelActivity posts)) := by
  have distinct : ((posts.filterMap Prod.snd).dedup.map (channelActivity posts)).Nodup := by
    refine List.Nodup.of_map ChannelActivity.id ?_
    rw [List.map_map]
    exact (List.nodup_dedup _).map fun _ _ same => same
  refine (List.perm_ext_iff_of_nodup (List.Nodup.of_map _ tallied.perChannel.distinct)
    distinct).mpr ?_
  intro channel
  have found := counts.perChannel channel.id
  constructor
  · intro held
    rw [Table.find?_of_mem held] at found
    split at found
    · rename_i isMember
      exact List.mem_map.mpr ⟨channel.id, List.mem_dedup.mpr isMember,
        (Option.some.inj found).symm⟩
    · cases found
  · intro ofPosts
    obtain ⟨id, isMember, rfl⟩ := List.mem_map.mp ofPosts
    have member : (channelActivity posts id).id ∈ posts.filterMap Prod.snd :=
      List.mem_dedup.mp isMember
    rw [if_pos member] at found
    exact (Table.find?_eq_some_iff.mp found).1

theorem Counts.topChannels
    {tallied : Tallied}
    (counts : Counts posts tallied) :
    mostActive tallied.perChannel.rows = (activityOf posts).topChannels := by
  have ranksDistinct : (tallied.perChannel.rows.map ChannelActivity.rank).Nodup := by
    refine (List.Nodup.of_map _ tallied.perChannel.distinct).map ?_
    rintro ⟨id, count, lastAt⟩ ⟨otherId, otherCount, otherLastAt⟩ sameRank
    simp only [ChannelActivity.rank, toLex_inj, Prod.mk.injEq, OrderDual.toDual_inj] at sameRank
    obtain ⟨sameCount, sameLast, sameId⟩ := sameRank
    rw [sameId, sameCount, sameLast]
  unfold mostActive activityOf
  rw [mergeSort_eq_of_perm ranksDistinct counts.perm]
  rfl

end Tally

/-- The posts that aggregation counts, each with its time and its channel. -/
def countedPosts
    (channelZone : String → Option String)
    (canReadZone : String → Bool)
    (rows : List EventRow) : List (Nat × Option String) :=
  (rows.filter fun row =>
    channelAllowed channelZone canReadZone (channelOf row.kind row.tags)).map fun row =>
      (row.createdAt, channelOf row.kind row.tags)

/-- Aggregation gives the activity of the posts that it counts. -/
theorem aggregate_eq
    (channelZone : String → Option String)
    (canReadZone : String → Bool)
    (rows : List EventRow) :
    aggregate channelZone canReadZone rows =
      activityOf (countedPosts channelZone canReadZone rows) := by
  have tallied : ∀ start, rows.foldl (aggregateRow channelZone canReadZone) start =
      (countedPosts channelZone canReadZone rows).foldl Tallied.count start := by
    intro start
    unfold countedPosts
    rw [List.foldl_map, List.foldl_filter]
    rfl
  have counts := counts_foldl (countedPosts channelZone canReadZone rows)
  unfold aggregate
  rw [tallied]
  dsimp only
  rw [counts.postCount, counts.firstPostAt, counts.lastPostAt, counts.topChannels]
  rfl

/-! ## What the read gate delivers -/

namespace Deployment

variable (deployment : Deployment)

/-- The decision of the read gate for a stored event and a session. -/
def gateDelivers (session : Option String) (row : EventRow) : Bool :=
  ((deployment.authorizeEvent row.intoNostrEvent
    (deployment.resolveViewerContext session)).sent row.intoNostrEvent).isSome

/-- The posts that the read gate delivers, each with the channel that it resolves. -/
def deliveredPosts (session : Option String) (rows : List EventRow) :
    List (Nat × Option String) :=
  (rows.filter (deployment.gateDelivers session)).map fun row =>
    (row.createdAt, zoneChannelId row.intoNostrEvent)

/-- The zones that a session may read of. -/
def gateCanRead (session : Option String) (zone : String) : Bool :=
  let context := deployment.resolveViewerContext session
  context.isAdmin || zoneReadPermitted deployment.zones zone context

/-- A message is taken to one channel by the card and by the gate, and both let the viewer
read of it or both do not; where they do not, it may be taken to two. -/
def Agrees (viewer : Option String) (row : EventRow) : Prop :=
  row.kind = 42 →
    let first := channelOf row.kind row.tags
    let resolved := channelTag row.intoNostrEvent
    channelAllowed deployment.channelZone (deployment.cardCanRead viewer) first =
        channelAllowed deployment.channelZone (deployment.gateCanRead viewer) resolved ∧
      (channelAllowed deployment.channelZone (deployment.gateCanRead viewer) resolved = true →
        first = resolved)

section

variable {deployment : Deployment} {viewer : Option String} {row : EventRow}

/-- The gate delivers every post but a message of a channel that the session may not read. -/
theorem gateDelivers_of_post
    (isPost : row.kind ∈ postKinds) :
    deployment.gateDelivers viewer row =
      channelAllowed deployment.channelZone (deployment.gateCanRead viewer)
        (zoneChannelId row.intoNostrEvent) := by
  have kinds : row.kind = 1 ∨ row.kind = 42 ∨ row.kind = 1111 := by
    simpa [postKinds] using isPost
  unfold gateDelivers authorizeEvent
  have sameKind : row.intoNostrEvent.kind = row.kind := rfl
  have open_ : protectedReadPermitted row.intoNostrEvent.kind row.intoNostrEvent.pubkey
      (recipients row.intoNostrEvent)
      (deployment.resolveViewerContext viewer).sessionPubkey deployment.authMode = true := by
    unfold protectedReadPermitted isProtectedReadKind
    rw [sameKind]
    rcases kinds with isKind | isKind | isKind <;> rw [isKind] <;> rfl
  have notCalendar : isProjectedCalendarKind row.intoNostrEvent.kind = false := by
    rw [sameKind]
    rcases kinds with isKind | isKind | isKind <;> rw [isKind] <;> rfl
  have notKanban : isKanbanKind row.intoNostrEvent.kind = false := by
    rw [sameKind]
    rcases kinds with isKind | isKind | isKind <;> rw [isKind] <;> rfl
  have notDefinition : (row.intoNostrEvent.kind == 40 || row.intoNostrEvent.kind == 41) =
      false := by
    rw [sameKind]
    rcases kinds with isKind | isKind | isKind <;> rw [isKind] <;> rfl
  rw [open_, notCalendar, notKanban]
  have readable : deployment.channelReadable row.intoNostrEvent
      (deployment.resolveViewerContext viewer) =
      channelAllowed deployment.channelZone (deployment.gateCanRead viewer)
        (zoneChannelId row.intoNostrEvent) := by
    unfold channelReadable channelAllowed
    cases (zoneChannelId row.intoNostrEvent).bind deployment.channelZone with
    | none => rfl
    | some zone =>
        rw [notDefinition]
        simp [gateCanRead]
  rw [readable]
  cases channelAllowed deployment.channelZone (deployment.gateCanRead viewer)
      (zoneChannelId row.intoNostrEvent) with
  | true => rfl
  | false => rfl

theorem zoneChannelId_of_post
    (isPost : row.kind ∈ postKinds) :
    zoneChannelId row.intoNostrEvent =
      if row.kind = 42 then channelTag row.intoNostrEvent else none := by
  have kinds : row.kind = 1 ∨ row.kind = 42 ∨ row.kind = 1111 := by
    simpa [postKinds] using isPost
  have sameKind : row.intoNostrEvent.kind = row.kind := rfl
  unfold zoneChannelId
  rcases kinds with isKind | isKind | isKind <;> rw [sameKind, isKind] <;> rfl

/-- Two posts at one time show one activity only when they are of one channel. -/
theorem activityOf_singleton_inj
    {time : Nat}
    {first second : Option String}
    (same : activityOf [(time, first)] = activityOf [(time, second)]) :
    first = second := by
  have sameTop := congrArg Activity.topChannels same
  cases first with
  | none =>
      cases second with
      | none => rfl
      | some second => simp [activityOf, mostActive, topChannelCount] at sameTop
  | some first =>
      cases second with
      | none => simp [activityOf, mostActive, topChannelCount] at sameTop
      | some second =>
          have sameId : first = second := by
            have sameChannel : channelActivity [(time, some first)] first =
                channelActivity [(time, some second)] second := by
              simpa [activityOf, mostActive, topChannelCount] using sameTop
            exact congrArg ChannelActivity.id sameChannel
          rw [sameId]

/-- One row agrees exactly when the card shows of it alone what the gate delivers. -/
theorem activity_singleton_iff
    (isPost : row.kind ∈ postKinds) :
    deployment.activity viewer [row] = activityOf (deployment.deliveredPosts viewer [row]) ↔
      deployment.Agrees viewer row := by
  unfold activity
  rw [aggregate_eq]
  unfold countedPosts deliveredPosts
  simp only [List.filter_singleton, gateDelivers_of_post isPost, zoneChannelId_of_post isPost]
  unfold Agrees
  by_cases isMessage : row.kind = 42
  · have channel : zoneChannelId row.intoNostrEvent = channelTag row.intoNostrEvent := by
      rw [zoneChannelId_of_post isPost, if_pos isMessage]
    simp only [isMessage, if_true, forall_const]
    cases counted : channelAllowed deployment.channelZone (deployment.cardCanRead viewer)
        (channelOf 42 row.tags) with
    | false =>
        cases delivered : channelAllowed deployment.channelZone (deployment.gateCanRead viewer)
            (channelTag row.intoNostrEvent) with
        | false => simp
        | true => simp [activityOf]
    | true =>
        cases delivered : channelAllowed deployment.channelZone (deployment.gateCanRead viewer)
            (channelTag row.intoNostrEvent) with
        | false => simp [activityOf]
        | true =>
            simp only [cond_true, List.map_cons, List.map_nil, true_and, forall_const, channel,
              isMessage]
            exact ⟨activityOf_singleton_inj, fun same => by rw [same]⟩
  · have noChannel : channelOf row.kind row.tags = none := if_pos isMessage
    have resolvesNone : zoneChannelId row.intoNostrEvent = none := by
      rw [zoneChannelId_of_post isPost, if_neg isMessage]
    simp [isMessage, noChannel, resolvesNone, channelAllowed]

/-- Rows that all agree are counted as they are delivered. -/
theorem countedPosts_eq
    {rows : List EventRow}
    (arePosts : ∀ row ∈ rows, row.kind ∈ postKinds)
    (agree : ∀ row ∈ rows, deployment.Agrees viewer row) :
    countedPosts deployment.channelZone (deployment.cardCanRead viewer) rows =
      deployment.deliveredPosts viewer rows := by
  unfold countedPosts deliveredPosts
  induction rows with
  | nil => rfl
  | cons row rows inductionHypothesis =>
      have later := inductionHypothesis
        (fun other isLater => arePosts other (List.mem_cons_of_mem _ isLater))
        (fun other isLater => agree other (List.mem_cons_of_mem _ isLater))
      have isPost := arePosts row List.mem_cons_self
      have agrees := agree row List.mem_cons_self
      have sameGate : channelAllowed deployment.channelZone (deployment.cardCanRead viewer)
          (channelOf row.kind row.tags) = deployment.gateDelivers viewer row ∧
          (deployment.gateDelivers viewer row = true →
            channelOf row.kind row.tags = zoneChannelId row.intoNostrEvent) := by
        rw [gateDelivers_of_post isPost, zoneChannelId_of_post isPost]
        by_cases isMessage : row.kind = 42
        · rw [if_pos isMessage]
          exact agrees isMessage
        · have noChannel : channelOf row.kind row.tags = none := if_pos isMessage
          rw [if_neg isMessage, noChannel]
          exact ⟨rfl, fun _ => rfl⟩
      rw [List.filter_cons, List.filter_cons, sameGate.1]
      cases delivers : deployment.gateDelivers viewer row with
      | false =>
          simp only [Bool.false_eq_true, if_false]
          exact later
      | true =>
          simp only [if_true, List.map_cons]
          rw [later, sameGate.2 delivers]

end

/-- Of the posts of an identity, and of any selection of them, a card shows its viewer the
activity of what the read gate delivers to that viewer exactly when each post agrees. -/
theorem activity_iff_agrees
    {trigger : TagTrigger}
    (order : NewestFirst EventRow.createdAt)
    (store : Store trigger)
    (identities : List String)
    (viewer : Option String) :
    (∀ rows, rows.Sublist (postRows order store identities) →
      deployment.activity viewer rows = activityOf (deployment.deliveredPosts viewer rows)) ↔
      ∀ row ∈ postRows order store identities, deployment.Agrees viewer row := by
  have arePosts : ∀ row ∈ postRows order store identities, row.kind ∈ postKinds := by
    intro row isRow
    have sorted := List.mem_of_mem_take isRow
    have kept := (List.mem_filter.mp ((order.perm _).mem_iff.mp sorted)).2
    exact List.contains_iff_mem.mp (Bool.and_eq_true_iff.mp kept).2
  constructor
  · intro shows row isRow
    exact (activity_singleton_iff (arePosts row isRow)).mp
      (shows [row] (List.singleton_sublist.mpr isRow))
  · intro agree rows selected
    unfold activity
    rw [aggregate_eq, countedPosts_eq (fun row isRow => arePosts row (selected.subset isRow))
      fun row isRow => agree row (selected.subset isRow)]

/-- A message whose first `e` tag names a channel of no zone, and whose root is a channel of a
hidden zone.  The card counts it for everyone; the gate withholds it. -/
theorem decoy_counted :
    let zones : ZoneConfig := ⟨[⟨"family", ["family"], .hiddenZone⟩]⟩
    let deployment : Deployment :=
      { authMode := .nip42
        zones := zones
        deviceKeysEnabled := false
        deviceOwner := fun _ => none
        isAdmin := fun _ => false
        viewerCohorts := fun _ => ([], false)
        channelZone := fun channel => if channel = "hall" then some "family" else none
        storedTags := fun _ => none }
    let message : NostrEvent :=
      ⟨"m", "member", 1000, 42, [["e", "lobby"], ["e", "hall", "", "root"]], "", ""⟩
    let rows := [EventRow.ofEvent message 1000]
    deployment.activity none rows ≠ activityOf (deployment.deliveredPosts none rows) ∧
      deployment.activity none rows = ⟨1, some 1000, some 1000, [⟨"lobby", 1, 1000⟩]⟩ ∧
      deployment.deliveredPosts none rows = [] := by
  intro zones deployment message rows
  have counted : countedPosts deployment.channelZone (deployment.cardCanRead none) rows =
      [(1000, some "lobby")] := by
    decide
  have delivered : deployment.deliveredPosts none rows = [] := by
    decide
  have shown : deployment.activity none rows =
      ⟨1, some 1000, some 1000, [⟨"lobby", 1, 1000⟩]⟩ := by
    unfold activity
    rw [aggregate_eq, counted]
    simp [activityOf, mostActive, topChannelCount, channelActivity]
  refine ⟨?_, shown, delivered⟩
  rw [shown, delivered]
  intro same
  have sameCount := congrArg Activity.postCount same
  cases sameCount

end Deployment

end Relay
end NostrBbs
