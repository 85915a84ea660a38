import Mathlib.Data.List.Sort
import NostrBbs.Lib.Table
import NostrBbs.Relay.Admission
import NostrBbs.Relay.Query

/-!
# Triage of public posts

The sweep that sends posts of public zones, with what they reply to, to a model outside
of the relay.  It joins a post to a channel by any of its `e` tags, while the read gate
takes the one that is marked as the root, or else the first.  What it sends is readable by
everybody exactly if, of the posts that it can pick, each belongs to a public channel for
the read gate as well.
-/

namespace NostrBbs
namespace Relay

/-! ## Bindings of channels -/

/-- A row of the `channel_zones` table. -/
structure ChannelZoneRow where
  channelId : String
  zone : String
  archived : Int
deriving DecidableEq, Repr

abbrev ChannelZones := Lib.Table ChannelZoneRow ChannelZoneRow.channelId

/-- The zone that a channel is bound to, archived or not. -/
def ChannelZones.getChannelZone (bindings : ChannelZones) (channelId : String) : Option String :=
  (bindings.find? channelId).map ChannelZoneRow.zone

/-- The zones whose content may be sent. -/
def eligibleZoneIds (zones : WriteZoneConfig) : List String :=
  (zones.zones.map fun zone => zone.id).filter fun id =>
    zones.forReading.isPublicRead id && !zones.isEncrypted id

/-! ## The sweep -/

def perTickCap : Nat := 5

def windowSecs : Nat := 24 * 3600

/-- The posts that one statement returns. -/
def triageLimit : Nat := 50

/-- The `e` tag marked `reply`. -/
def replyTarget (tags : List Tag) : Option String :=
  (tags.find? fun tag =>
    decide (4 ≤ tag.length) && tag.head? == some "e" && tag[3]? == some "reply").map firstValue

inductive Fallback where
  | flagOff
  | noEndpoint
  | timeout
  | transport
  | http (status : Nat)
  | malformed
  | lowConfidence
deriving DecidableEq, Repr

/-- A failure that ends the batch. -/
def Fallback.endsBatch : Fallback → Bool
  | timeout => true
  | transport => true
  | http _ => true
  | noEndpoint => true
  | _ => false

/-- A selected post and the channel that it was joined to. -/
structure PostRow where
  event : EventRow
  channelId : String
  zone : String

/-- A post to be sent, and the post that it replies to. -/
structure Candidate where
  event : EventRow
  channelId : String
  zone : String
  parent : Option EventRow

/-- The events whose texts are sent. -/
def Candidate.posts (candidate : Candidate) : List EventRow :=
  candidate.event :: candidate.parent.toList

/-- What the database leaves open in the statement of the sweep: the order of posts that came
in at once, and which channel stands for a post that is joined to several. -/
structure TriagePlan where
  order : List EventRow → List EventRow
  perm : ∀ rows, (order rows).Perm rows
  sorted : ∀ rows, (order rows).Pairwise fun first second => second.receivedAt ≤ first.receivedAt
  group : EventRow → List ChannelZoneRow → Option ChannelZoneRow
  member : ∀ row joined binding, group row joined = some binding → binding ∈ joined
  grouped : ∀ row joined, joined ≠ [] → (group row joined).isSome

/-- What a tick of the sweep meets besides posts and bindings: the clock, the posts that were
examined or hidden, the reads of parents that fail, and the outcomes of what is sent. -/
structure TriageTick where
  now : Nat
  triaged : List String
  hidden : List String
  plan : TriagePlan
  parentFails : String → Bool
  outcome : Candidate → Option Fallback

section Sweep

variable {trigger : TagTrigger} (decodeBase64 : String → Option (List UInt8))
  (zones : WriteZoneConfig) (bindings : ChannelZones) (store : Store trigger)

/-- The eligible channels that a row is joined to by its `e` tags. -/
def joinedChannels (row : EventRow) : List ChannelZoneRow :=
  (store.tags.filter fun tag => tag.eventId = row.id && tag.name = "e").flatMap fun tag =>
    bindings.rows.filter fun binding =>
      binding.channelId = tag.value && binding.archived = 0 &&
        (eligibleZoneIds zones).contains binding.zone

/-- The rows of the sweep's statement. -/
def triageRows (tick : TriageTick) : List PostRow :=
  let selected := store.events.filter fun row =>
    row.kind = 42 && tick.now ≤ row.receivedAt + windowSecs &&
      !(joinedChannels zones bindings store row).isEmpty &&
        !tick.triaged.contains row.id && !tick.hidden.contains row.id
  ((tick.plan.order selected).take triageLimit).filterMap fun row =>
    (tick.plan.group row (joinedChannels zones bindings store row)).map fun binding =>
      ⟨row, binding.channelId, binding.zone⟩

/-- A parent is a message with an `e` tag of the same channel. -/
def fetchParent (tick : TriageTick) (parentId channelId : String) : Option EventRow :=
  if tick.parentFails parentId then none
  else store.events.find? fun row => row.id = parentId && row.kind = 42 &&
    store.tags.any fun tag => tag.eventId = row.id && tag.name = "e" && tag.value = channelId

def candidateOf (tick : TriageTick) (row : PostRow) : Candidate where
  event := row.event
  channelId := row.channelId
  zone := row.zone
  parent := (replyTarget row.event.tags).bind fun parentId =>
    fetchParent store tick parentId row.channelId

/-- The first posts that carry no ciphertext of their zone. -/
def candidates (tick : TriageTick) : List Candidate :=
  (((triageRows zones bindings store tick).filter fun row =>
    !isZoneCiphertext decodeBase64 row.zone row.event.tags row.event.content).take perTickCap).map
      (candidateOf store tick)

/-- The candidates of a batch that are sent, up to the first failure that ends it. -/
def triageBatch (outcome : Candidate → Option Fallback) : List Candidate → List Candidate
  | [] => []
  | candidate :: rest =>
      candidate ::
        if (outcome candidate).any Fallback.endsBatch then [] else triageBatch outcome rest

/-- What a tick sends. -/
def runSweep (tick : TriageTick) : List Candidate :=
  if eligibleZoneIds zones = [] then []
  else triageBatch tick.outcome
    ((candidates decodeBase64 zones bindings store tick).take perTickCap)

/-! ## What is claimed, and when it holds -/

/-- For the read gate, a message belongs to a channel that is bound to a zone which anybody
may read and which is not encrypted. -/
def IsOpen (row : EventRow) : Prop :=
  row.kind = 42 ∧ ∃ channelId zone, zoneChannelId row.intoNostrEvent = some channelId ∧
    bindings.getChannelZone channelId = some zone ∧ zones.forReading.isPublicRead zone ∧
      zones.isEncrypted zone = false

/-- A message that a sweep can pick under a channel. -/
def Picked (row : EventRow) (binding : ChannelZoneRow) : Prop :=
  row ∈ store.events ∧ row.kind = 42 ∧ binding ∈ joinedChannels zones bindings store row ∧
    isZoneCiphertext decodeBase64 binding.zone row.tags row.content = false

/-- A message that a sweep can pick as the parent of another. -/
def PickedAsParent (row : EventRow) (binding : ChannelZoneRow) : Prop :=
  row ∈ store.events ∧ row.kind = 42 ∧ binding ∈ joinedChannels zones bindings store row ∧
    ∃ reply, Picked decodeBase64 zones bindings store reply binding ∧
      replyTarget reply.tags = some row.id

/-- The channel of a message for the read gate, that of its root or first `e` tag, is bound to
an eligible zone. -/
def RootEligible (row : EventRow) : Prop :=
  ∃ channelId zone, zoneChannelId row.intoNostrEvent = some channelId ∧
    bindings.getChannelZone channelId = some zone ∧ zone ∈ eligibleZoneIds zones

/-- Whatever message a sweep can pick under the channel of any of its `e` tags, the root or
first one names an eligible channel too. -/
def JoinsAgree : Prop :=
  ∀ row binding, Picked decodeBase64 zones bindings store row binding ∨
      PickedAsParent decodeBase64 zones bindings store row binding →
    RootEligible zones bindings row

end Sweep

/-! ## What is sent -/

section Sent

variable {trigger : TagTrigger} {decodeBase64 : String → Option (List UInt8)}
  {zones : WriteZoneConfig} {bindings : ChannelZones} {store : Store trigger}

theorem mem_eligibleZoneIds
    {id : String} :
    id ∈ eligibleZoneIds zones ↔
      zones.forReading.isPublicRead id ∧ zones.isEncrypted id = false := by
  unfold eligibleZoneIds
  rw [List.mem_filter, Bool.and_eq_true, Bool.not_eq_true']
  refine and_iff_right_of_imp ?_
  rintro ⟨isPublic, -⟩
  unfold ZoneConfig.isPublicRead ZoneConfig.get WriteZoneConfig.forReading at isPublic
  obtain ⟨zone, found, -⟩ := (Option.any_eq_true _ _).mp isPublic
  obtain ⟨writeZone, held, isZone⟩ := List.mem_map.mp (List.mem_of_find?_eq_some found)
  have isId := List.find?_some found
  rw [beq_iff_eq, ← isZone] at isId
  exact List.mem_map.mpr ⟨writeZone, held, isId⟩

/-- A message is open for the read gate when its root or first `e` tag names an eligible
channel. -/
theorem isOpen_iff
    {row : EventRow} :
    IsOpen zones bindings row ↔ row.kind = 42 ∧ RootEligible zones bindings row := by
  unfold IsOpen RootEligible
  simp only [mem_eligibleZoneIds]

theorem mem_joinedChannels
    {row : EventRow}
    {binding : ChannelZoneRow} :
    binding ∈ joinedChannels zones bindings store row ↔
      (∃ tag ∈ store.tags, tag.eventId = row.id ∧ tag.name = "e" ∧
        tag.value = binding.channelId) ∧
      binding ∈ bindings.rows ∧ binding.archived = 0 ∧ binding.zone ∈ eligibleZoneIds zones := by
  unfold joinedChannels
  simp only [List.mem_flatMap, List.mem_filter, Bool.and_eq_true, decide_eq_true_eq,
    List.contains_eq_mem]
  constructor
  · rintro ⟨tag, ⟨held, isRow, isName⟩, isBinding, ⟨isChannel, notArchived⟩, eligible⟩
    exact ⟨⟨tag, held, isRow, isName, isChannel.symm⟩, isBinding, notArchived, eligible⟩
  · rintro ⟨⟨tag, held, isRow, isName, isChannel⟩, isBinding, notArchived, eligible⟩
    exact ⟨tag, ⟨held, isRow, isName⟩, isBinding, ⟨isChannel.symm, notArchived⟩, eligible⟩

theorem mem_of_mem_triageBatch
    {outcome : Candidate → Option Fallback}
    {batch : List Candidate}
    {candidate : Candidate}
    (isSent : candidate ∈ triageBatch outcome batch) :
    candidate ∈ batch := by
  induction batch with
  | nil => cases isSent
  | cons head batch inductionHypothesis =>
      rcases List.mem_cons.mp isSent with rfl | later
      · exact List.mem_cons_self
      · split at later
        · cases later
        · exact List.mem_cons_of_mem _ (inductionHypothesis later)

/-- A row of the sweep is a message under an eligible channel that it is joined to. -/
theorem joined_of_mem_triageRows
    {tick : TriageTick}
    {post : PostRow}
    (selected : post ∈ triageRows zones bindings store tick) :
    post.event ∈ store.events ∧ post.event.kind = 42 ∧
      ∃ binding ∈ joinedChannels zones bindings store post.event,
        post.channelId = binding.channelId ∧ post.zone = binding.zone := by
  unfold triageRows at selected
  obtain ⟨row, isTaken, isPost⟩ := List.mem_filterMap.mp selected
  obtain ⟨binding, isGroup, rfl⟩ := Option.map_eq_some_iff.mp isPost
  have isRow := (tick.plan.perm _).mem_iff.mp (List.mem_of_mem_take isTaken)
  obtain ⟨held, conditions⟩ := List.mem_filter.mp isRow
  simp only [Bool.and_eq_true, decide_eq_true_eq] at conditions
  exact ⟨held, conditions.1.1.1.1, binding, tick.plan.member _ _ _ isGroup, rfl, rfl⟩

/-- What is fetched as a parent is a message that is joined to the same channel. -/
theorem joined_of_fetchParent
    {tick : TriageTick}
    {parentId : String}
    {parent : EventRow}
    {binding : ChannelZoneRow}
    (fetched : fetchParent store tick parentId binding.channelId = some parent)
    (isBinding : binding ∈ bindings.rows)
    (notArchived : binding.archived = 0)
    (eligible : binding.zone ∈ eligibleZoneIds zones) :
    parent ∈ store.events ∧ parent.kind = 42 ∧ parent.id = parentId ∧
      binding ∈ joinedChannels zones bindings store parent := by
  unfold fetchParent at fetched
  split at fetched
  · cases fetched
  · have named := List.find?_some fetched
    simp only [Bool.and_eq_true, decide_eq_true_eq, List.any_eq_true] at named
    obtain ⟨⟨isId, isKind⟩, tag, held, ⟨isRow, isName⟩, isChannel⟩ := named
    exact ⟨List.mem_of_find?_eq_some fetched, isKind, isId,
      mem_joinedChannels.mpr ⟨⟨tag, held, isRow, isName, isChannel⟩, isBinding, notArchived,
        eligible⟩⟩

/-- A message that is joined to a channel is fetched as a parent, if the read goes well. -/
theorem fetchParent_eq_some
    {tick : TriageTick}
    {parent : EventRow}
    {binding : ChannelZoneRow}
    (held : parent ∈ store.events)
    (isKind : parent.kind = 42)
    (joined : binding ∈ joinedChannels zones bindings store parent)
    (goesWell : tick.parentFails parent.id = false) :
    fetchParent store tick parent.id binding.channelId = some parent := by
  obtain ⟨⟨tag, tagHeld, isRow, isName, isChannel⟩, -⟩ := mem_joinedChannels.mp joined
  unfold fetchParent
  rw [if_neg (by simp [goesWell])]
  cases found : store.events.find? fun other => other.id = parent.id && other.kind = 42 &&
      store.tags.any fun tag =>
        tag.eventId = other.id && tag.name = "e" && tag.value = binding.channelId with
  | none =>
      have missing := List.find?_eq_none.mp found parent held
      exfalso
      apply missing
      simp only [Bool.and_eq_true, decide_eq_true_eq, List.any_eq_true]
      exact ⟨⟨trivial, isKind⟩, tag, tagHeld, ⟨isRow, isName⟩, isChannel⟩
  | some other =>
      have named := List.find?_some found
      simp only [Bool.and_eq_true, decide_eq_true_eq] at named
      rw [store.eq_of_id (List.mem_of_find?_eq_some found) held named.1.1]

/-- Whatever a tick sends can be picked. -/
theorem picked_of_mem_runSweep
    {tick : TriageTick}
    {candidate : Candidate}
    (isSent : candidate ∈ runSweep decodeBase64 zones bindings store tick)
    {row : EventRow}
    (isPost : row ∈ candidate.posts) :
    ∃ binding, Picked decodeBase64 zones bindings store row binding ∨
      PickedAsParent decodeBase64 zones bindings store row binding := by
  unfold runSweep at isSent
  split at isSent
  · cases isSent
  · have isCandidate := List.mem_of_mem_take (mem_of_mem_triageBatch isSent)
    unfold candidates at isCandidate
    obtain ⟨post, isTaken, rfl⟩ := List.mem_map.mp isCandidate
    obtain ⟨selected, notCipher⟩ := List.mem_filter.mp (List.mem_of_mem_take isTaken)
    obtain ⟨held, isKind, binding, joined, isChannel, isZone⟩ := joined_of_mem_triageRows selected
    have picked : Picked decodeBase64 zones bindings store post.event binding := by
      refine ⟨held, isKind, joined, ?_⟩
      rw [isZone] at notCipher
      simpa using notCipher
    obtain ⟨-, isBinding, notArchived, eligible⟩ := mem_joinedChannels.mp joined
    refine ⟨binding, ?_⟩
    rcases List.mem_cons.mp isPost with rfl | isParent
    · exact .inl picked
    · right
      obtain ⟨parentId, isTarget, fetched⟩ :=
        Option.bind_eq_some_iff.mp (Option.mem_toList.mp isParent)
      rw [isChannel] at fetched
      obtain ⟨parentHeld, parentKind, rfl, parentJoined⟩ :=
        joined_of_fetchParent fetched isBinding notArchived eligible
      exact ⟨parentHeld, parentKind, parentJoined, post.event, picked, isTarget⟩

/-- The plan of a statement that takes one channel wherever a post is joined to it. -/
def planFor (binding : ChannelZoneRow) : TriagePlan where
  order rows := rows.insertionSort fun first second => second.receivedAt ≤ first.receivedAt
  perm rows := List.perm_insertionSort _ rows
  sorted rows := List.pairwise_insertionSort _ rows
  group _ joined := if binding ∈ joined then some binding else joined.head?
  member _ joined other isGroup := by
    split at isGroup
    · rename_i isJoined
      exact Option.some.inj isGroup ▸ isJoined
    · exact List.mem_of_mem_head? isGroup
  grouped _ joined notEmpty := by
    split
    · rfl
    · exact List.isSome_head?.mpr notEmpty

/-- A tick that meets one post only. -/
def tickFor (store : Store trigger) (row : EventRow) (binding : ChannelZoneRow) : TriageTick where
  now := 0
  triaged := []
  hidden := (store.events.map EventRow.id).filter (· ≠ row.id)
  plan := planFor binding
  parentFails _ := false
  outcome _ := none

/-- Of all posts, such a tick selects the one. -/
theorem selected_tickFor
    {row : EventRow}
    {binding : ChannelZoneRow}
    (held : row ∈ store.events)
    (isKind : row.kind = 42)
    (joined : binding ∈ joinedChannels zones bindings store row) :
    (store.events.filter fun other =>
      other.kind = 42 && (tickFor store row binding).now ≤ other.receivedAt + windowSecs &&
        !(joinedChannels zones bindings store other).isEmpty &&
          !(tickFor store row binding).triaged.contains other.id &&
            !(tickFor store row binding).hidden.contains other.id) = [row] := by
  have onlyRow : ∀ other ∈ store.events,
      (other.kind = 42 && (tickFor store row binding).now ≤ other.receivedAt + windowSecs &&
        !(joinedChannels zones bindings store other).isEmpty &&
          !(tickFor store row binding).triaged.contains other.id &&
            !(tickFor store row binding).hidden.contains other.id) =
        decide (other = row) := by
    intro other isHeld
    rw [Bool.eq_iff_iff]
    simp only [tickFor, Bool.and_eq_true, decide_eq_true_eq, Bool.not_eq_true',
      List.contains_eq_mem, decide_eq_false_iff_not, List.not_mem_nil, not_false_iff,
      List.mem_filter, ne_eq, not_and, not_not]
    constructor
    · rintro ⟨-, sameId⟩
      exact store.eq_of_id isHeld held (sameId (List.mem_map_of_mem isHeld))
    · rintro rfl
      refine ⟨⟨⟨⟨isKind, decide_eq_true (Nat.zero_le _)⟩, ?_⟩, trivial⟩, fun _ => rfl⟩
      rw [List.isEmpty_eq_false_iff]
      exact List.ne_nil_of_mem joined
  rw [List.filter_congr onlyRow]
  have unique : (store.events.filter fun other => decide (other = row)) =
      List.replicate (store.events.count row) row :=
    List.filter_eq row
  rw [unique, List.count_eq_one_of_mem (List.Nodup.of_map _ store.distinctIds) held]
  rfl

/-- A post that can be picked is sent by such a tick. -/
theorem runSweep_tickFor
    {row : EventRow}
    {binding : ChannelZoneRow}
    (picked : Picked decodeBase64 zones bindings store row binding) :
    runSweep decodeBase64 zones bindings store (tickFor store row binding) =
      [candidateOf store (tickFor store row binding) ⟨row, binding.channelId, binding.zone⟩] := by
  obtain ⟨held, isKind, joined, notCipher⟩ := picked
  have eligible := (mem_joinedChannels.mp joined).2.2.2
  have rows : triageRows zones bindings store (tickFor store row binding) =
      [⟨row, binding.channelId, binding.zone⟩] := by
    unfold triageRows
    dsimp only
    rw [selected_tickFor held isKind joined]
    have isGroup : (tickFor store row binding).plan.group row
        (joinedChannels zones bindings store row) = some binding := if_pos joined
    have isOrder : (tickFor store row binding).plan.order [row] = [row] := rfl
    rw [isOrder]
    simp [triageLimit, isGroup]
  have nonempty : eligibleZoneIds zones ≠ [] := List.ne_nil_of_mem eligible
  unfold runSweep candidates
  rw [if_neg nonempty, rows]
  simp [notCipher, perTickCap, triageBatch]

/-- Every text that a sweep can send, of posts and of what they reply to, belongs to a message
that is open for the read gate, exactly if the messages that it can pick are. -/
theorem triage_open_iff
    (decodeBase64 : String → Option (List UInt8))
    (zones : WriteZoneConfig)
    (bindings : ChannelZones)
    (store : Store trigger) :
    (∀ tick, ∀ candidate ∈ runSweep decodeBase64 zones bindings store tick,
        ∀ row ∈ candidate.posts, IsOpen zones bindings row) ↔
      JoinsAgree decodeBase64 zones bindings store := by
  constructor
  · rintro allOpen row binding (picked | ⟨held, isKind, joined, reply, picked, isTarget⟩)
    · refine (isOpen_iff.mp (allOpen (tickFor store row binding)
        (candidateOf store (tickFor store row binding)
          ⟨row, binding.channelId, binding.zone⟩) ?_ row List.mem_cons_self)).2
      rw [runSweep_tickFor picked]
      exact List.mem_singleton_self _
    · refine (isOpen_iff.mp (allOpen (tickFor store reply binding)
        (candidateOf store (tickFor store reply binding)
          ⟨reply, binding.channelId, binding.zone⟩) ?_ row ?_)).2
      · rw [runSweep_tickFor picked]
        exact List.mem_singleton_self _
      · apply List.mem_cons_of_mem
        rw [Option.mem_toList]
        refine Option.bind_eq_some_iff.mpr ⟨row.id, isTarget, ?_⟩
        exact fetchParent_eq_some held isKind joined rfl
  · intro agree tick candidate isSent row isPost
    obtain ⟨binding, picked⟩ := picked_of_mem_runSweep isSent isPost
    have isKind : row.kind = 42 := by
      rcases picked with picked | ⟨-, isKind, -⟩
      · exact picked.2.1
      · exact isKind
    exact isOpen_iff.mpr ⟨isKind, agree row binding picked⟩

end Sent

/-! ## A decoy -/

/-- A public zone and one for the family. -/
def lobbyAndFamily : WriteZoneConfig where
  zones :=
    [ { id := "lobby", requiredCohorts := [], visibility := .publicZone, writeCohorts := none,
        encrypted := false },
      { id := "family", requiredCohorts := ["family"], visibility := .hiddenZone,
        writeCohorts := none, encrypted := false } ]
  encryptionEnabled := false

def hallAndKitchen : ChannelZones where
  rows := [⟨"hall", "lobby", 0⟩, ⟨"kitchen", "family", 0⟩]
  distinct := by decide

/-- A message in the family's channel that mentions the public one. -/
def mention : NostrEvent where
  id := "message"
  pubkey := "member"
  createdAt := 1000
  kind := 42
  tags := [["e", "kitchen", "", "root"], ["e", "hall", "", "mention"]]
  content := "the key is under the mat"
  sig := ""

def mentionStore : Store .probeBlind :=
  storeAfter .probeBlind [.save mention 1000]

/-- A message of a hidden zone is sent, since it mentions a public channel. -/
theorem triage_sends_mention :
    ¬ ∀ (decodeBase64 : String → Option (List UInt8)) (zones : WriteZoneConfig)
        (bindings : ChannelZones) (store : Store .probeBlind) (tick : TriageTick),
      ∀ candidate ∈ runSweep decodeBase64 zones bindings store tick,
        ∀ row ∈ candidate.posts, IsOpen zones bindings row := by
  intro allOpen
  let row := EventRow.ofEvent mention 1000
  let binding : ChannelZoneRow := ⟨"hall", "lobby", 0⟩
  have joined : binding ∈ joinedChannels lobbyAndFamily hallAndKitchen mentionStore row := by
    decide +kernel
  have picked : Picked (fun _ => none) lobbyAndFamily hallAndKitchen mentionStore row binding :=
    ⟨by decide +kernel, rfl, joined, by decide +kernel⟩
  have sent := runSweep_tickFor picked
  obtain ⟨-, channelId, zone, isChannel, isBound, isPublic, -⟩ :=
    allOpen (fun _ => none) lobbyAndFamily hallAndKitchen mentionStore
      (tickFor mentionStore row binding)
      (candidateOf mentionStore (tickFor mentionStore row binding) ⟨row, "hall", "lobby"⟩)
      (by rw [sent]; exact List.mem_singleton_self _) row List.mem_cons_self
  have isKitchen : zoneChannelId row.intoNostrEvent = some "kitchen" := by decide +kernel
  have isFamily : hallAndKitchen.getChannelZone "kitchen" = some "family" := by decide +kernel
  have notPublic : lobbyAndFamily.forReading.isPublicRead "family" = false := by decide +kernel
  rw [isKitchen] at isChannel
  obtain rfl := Option.some.inj isChannel
  rw [isFamily] at isBound
  obtain rfl := Option.some.inj isBound
  rw [notPublic] at isPublic
  cases isPublic

end Relay
end NostrBbs
