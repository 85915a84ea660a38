import Mathlib.Data.List.Sort
import NostrBbs.Client.Channels
import NostrBbs.Lib.Counting
import NostrBbs.Shared.Json

/-!
# Threads of a board

The posts of a channel in threads.  A reply names the post that it answers; its thread is the
one of the post without a parent that its parents lead to, and a reply whose parents lead
nowhere is a thread of its own.
-/

namespace NostrBbs
namespace Client
namespace Threads

open Relay (NostrEvent)

/-! ## Replies and their roots -/

/-- Parents that are followed from a reply to its root. -/
def maxParentHops : Nat :=
  64

/-- The tags of a message of a channel, and of a reply to a post and its author. -/
def channelMessageTags (channelId : String) (replyTo : Option (String × String)) :
    List Relay.Tag :=
  ["e", channelId, "", "root"] ::
    match replyTo with
    | some (replyId, replyAuthor) => [["e", replyId, "", "reply"], ["p", replyAuthor]]
    | none => []

/-- The channel of a post: the value of its first `e` tag. -/
def postRootChannel (event : NostrEvent) : Option String :=
  (event.tags.find? fun tag => tag.head? == some "e").bind fun tag => tag[1]?

/-- The post that a reply answers. -/
def replyParent (event : NostrEvent) : Option String :=
  (event.tags.find? fun tag => tag.head? == some "e" && tag[3]? == some "reply").bind fun tag =>
    tag[1]?

/-- The posts of a channel, the ids of those without a parent, and the parents of the others. -/
structure Linkage where
  inChan : List NostrEvent
  rootIds : List String
  parentOf : List (String × String)

namespace Linkage

def build (posts : List NostrEvent) (channelId : String) : Linkage :=
  let inChan := posts.filter fun post => postRootChannel post == some channelId
  { inChan := inChan
    rootIds := (inChan.filter fun post => (replyParent post).isNone).map NostrEvent.id
    -- of the entries of one id the map keeps the last
    parentOf := (inChan.filterMap fun post =>
      (replyParent post).map fun parent => (post.id, parent)).reverse }

variable (link : Linkage)

def isRoot (id : String) : Bool :=
  link.rootIds.contains id

/-- The root that parents lead to, from one of them on. -/
def climb : Nat → String → Option String
  | 0, _ => none
  | hops + 1, current =>
      if link.isRoot current then some current
      else (link.parentOf.lookup current).bind (climb hops)

/-- The root of a reply. -/
def resolveRoot (replyId : String) : Option String :=
  (link.parentOf.lookup replyId).bind (link.climb maxParentHops)

end Linkage

/-! ## The threads -/

structure ThreadInfo where
  root : NostrEvent
  replyCount : Nat
  lastActivity : Nat
deriving DecidableEq, Repr

/-- Counts and newest times by root, and the replies without a root. -/
structure Tally where
  counts : String → Option Nat
  last : String → Option Nat
  orphans : List NostrEvent

namespace Tally

/-- A root is counted without replies. -/
def open_ (link : Linkage) (tally : Tally) (post : NostrEvent) : Tally :=
  if link.isRoot post.id then
    { tally with
      counts := Function.update tally.counts post.id (some 0)
      last := Function.update tally.last post.id (some post.createdAt) }
  else tally

/-- A reply is counted under its root. -/
def attach (link : Linkage) (tally : Tally) (post : NostrEvent) : Tally :=
  if link.isRoot post.id then tally
  else
    match link.resolveRoot post.id with
    | some root =>
        { tally with
          counts := Function.update tally.counts root (some ((tally.counts root).getD 0 + 1))
          last := Function.update tally.last root
            (some (((tally.last root).map fun time => max time post.createdAt).getD
              post.createdAt)) }
    | none => { tally with orphans := tally.orphans ++ [post] }

def of (link : Linkage) : Tally :=
  link.inChan.foldl (attach link)
    (link.inChan.foldl (open_ link) ⟨fun _ => none, fun _ => none, []⟩)

end Tally

/-- The threads of a channel before they are sorted. -/
def listThreads (link : Linkage) : List ThreadInfo :=
  let tally := Tally.of link
  ((link.inChan.filter fun post => link.isRoot post.id).map fun post =>
      ⟨post, (tally.counts post.id).getD 0, (tally.last post.id).getD post.createdAt⟩) ++
    tally.orphans.map fun orphan => ⟨orphan, 0, orphan.createdAt⟩

/-- The threads of a channel, those with the newest activity first. -/
def groupThreads (posts : List NostrEvent) (channelId : String) : List ThreadInfo :=
  List.insertionSort (fun first second => second.lastActivity ≤ first.lastActivity)
    (listThreads (Linkage.build posts channelId))

/-- The posts of a thread, its root first and the others by time. -/
def threadMessages (posts : List NostrEvent) (channelId rootId : String) : List NostrEvent :=
  let link := Linkage.build posts channelId
  List.insertionSort
    (fun first second =>
      (first.id = rootId ∧ second.id ≠ rootId) ∨
        ((first.id = rootId ↔ second.id = rootId) ∧ first.createdAt ≤ second.createdAt))
    (link.inChan.filter fun post => post.id == rootId || link.resolveRoot post.id == some rootId)

/-- No post vanishes from its board: each is in one thread, as its root or as one of its counted
replies, and a thread's page has just these, whatever the order of the posts. -/
structure KeepsPosts (posts : List NostrEvent) (channelId : String) : Prop where
  distinct : ((groupThreads posts channelId).map fun thread => thread.root.id).Nodup
  placed : ∃ threadOf : NostrEvent → String,
    (∀ post ∈ posts, ∃ thread ∈ groupThreads posts channelId,
      thread.root.id = threadOf post) ∧
    ∀ thread ∈ groupThreads posts channelId,
      thread.root ∈ posts ∧ threadOf thread.root = thread.root.id ∧
        thread.replyCount = posts.countP (fun post =>
          threadOf post = thread.root.id ∧ post.id ≠ thread.root.id) ∧
        (threadMessages posts channelId thread.root.id).Perm
          (posts.filter fun post => threadOf post = thread.root.id)
  complete : ((groupThreads posts channelId).map fun thread => thread.replyCount + 1).sum =
    posts.length
  sameThreads : ∀ others, others.Perm posts → ∀ thread,
    thread ∈ groupThreads others channelId ↔ thread ∈ groupThreads posts channelId
  sameMessages : ∀ others, others.Perm posts → ∀ rootId post,
    post ∈ threadMessages others channelId rootId ↔ post ∈ threadMessages posts channelId rootId

/-! ## Where replies lead -/

section Linkage

variable {posts others : List NostrEvent} {channelId : String} {post : NostrEvent}
  {link : Linkage} {id rootId : String}

theorem mem_inChan_iff :
    post ∈ (Linkage.build posts channelId).inChan ↔
      post ∈ posts ∧ postRootChannel post = some channelId := by
  unfold Linkage.build
  rw [List.mem_filter, beq_iff_eq]

theorem nodup_inChan
    (distinct : (posts.map NostrEvent.id).Nodup)
    (channelId : String) :
    ((Linkage.build posts channelId).inChan.map NostrEvent.id).Nodup :=
  distinct.sublist (List.filter_sublist.map NostrEvent.id)

theorem isRoot_iff :
    (Linkage.build posts channelId).isRoot id = true ↔
      ∃ post ∈ (Linkage.build posts channelId).inChan, replyParent post = none ∧ post.id = id := by
  unfold Linkage.isRoot
  rw [List.contains_iff_mem]
  change id ∈ ((Linkage.build posts channelId).inChan.filter _).map NostrEvent.id ↔ _
  simp only [List.mem_map, List.mem_filter, Option.isNone_iff_eq_none, and_assoc]

/-- A chain of parents ends in a post without a parent. -/
theorem isRoot_of_climb
    {hops : Nat}
    {current : String}
    (leads : link.climb hops current = some rootId) :
    link.isRoot rootId = true := by
  induction hops generalizing current with
  | zero => cases leads
  | succ hops inductionHypothesis =>
      unfold Linkage.climb at leads
      split at leads
      · rename_i isRoot
        cases leads
        exact isRoot
      · obtain ⟨parent, isParent, leadsOn⟩ := Option.bind_eq_some_iff.mp leads
        exact inductionHypothesis leadsOn

theorem isRoot_of_resolveRoot
    (resolves : link.resolveRoot id = some rootId) :
    link.isRoot rootId = true := by
  obtain ⟨parent, isParent, leads⟩ := Option.bind_eq_some_iff.mp resolves
  exact isRoot_of_climb leads

theorem sublist_ids
    (events : List NostrEvent) :
    ((events.filterMap fun post => (replyParent post).map fun parent => (post.id, parent)).map
      Prod.fst).Sublist (events.map NostrEvent.id) := by
  induction events with
  | nil => exact List.Sublist.refl []
  | cons post events inductionHypothesis =>
      rw [List.filterMap_cons, List.map_cons]
      cases replyParent post with
      | none => exact inductionHypothesis.cons post.id
      | some parent => exact inductionHypothesis.cons_cons post.id

/-- The parents of posts with distinct ids. -/
theorem lookup_parentOf_iff
    (distinct : (posts.map NostrEvent.id).Nodup)
    (id parent : String) :
    (Linkage.build posts channelId).parentOf.lookup id = some parent ↔
      ∃ post ∈ (Linkage.build posts channelId).inChan,
        post.id = id ∧ replyParent post = some parent := by
  have listed : ((Linkage.build posts channelId).parentOf.map Prod.fst).Nodup := by
    change ((((Linkage.build posts channelId).inChan.filterMap _).reverse).map Prod.fst).Nodup
    rw [List.map_reverse, List.nodup_reverse]
    exact (nodup_inChan distinct channelId).sublist (sublist_ids _)
  rw [Relay.JsonValue.lookup_eq_some_iff_mem listed]
  change (id, parent) ∈ ((Linkage.build posts channelId).inChan.filterMap _).reverse ↔ _
  rw [List.mem_reverse, List.mem_filterMap]
  simp only [Option.map_eq_some_iff, Prod.mk.injEq]
  constructor
  · rintro ⟨post, isPost, held, isParent, isId, rfl⟩
    exact ⟨post, isPost, isId, isParent⟩
  · rintro ⟨post, isPost, isId, isParent⟩
    exact ⟨post, isPost, parent, isParent, isId, rfl⟩

theorem inChan_perm
    (isPerm : others.Perm posts)
    (channelId : String) :
    (Linkage.build others channelId).inChan.Perm (Linkage.build posts channelId).inChan :=
  isPerm.filter _

theorem isRoot_of_perm
    (isPerm : others.Perm posts)
    (channelId id : String) :
    (Linkage.build others channelId).isRoot id = (Linkage.build posts channelId).isRoot id := by
  rw [Bool.eq_iff_iff, isRoot_iff, isRoot_iff]
  simp only [(inChan_perm isPerm channelId).mem_iff]

theorem parentOf_of_perm
    (distinct : (posts.map NostrEvent.id).Nodup)
    (isPerm : others.Perm posts)
    (channelId id : String) :
    (Linkage.build others channelId).parentOf.lookup id =
      (Linkage.build posts channelId).parentOf.lookup id := by
  ext parent
  rw [lookup_parentOf_iff ((isPerm.map NostrEvent.id).nodup_iff.mpr distinct),
    lookup_parentOf_iff distinct]
  simp only [(inChan_perm isPerm channelId).mem_iff]

theorem climb_of_perm
    (distinct : (posts.map NostrEvent.id).Nodup)
    (isPerm : others.Perm posts)
    (channelId : String)
    (hops : Nat)
    (current : String) :
    (Linkage.build others channelId).climb hops current =
      (Linkage.build posts channelId).climb hops current := by
  induction hops generalizing current with
  | zero => rfl
  | succ hops inductionHypothesis =>
      unfold Linkage.climb
      rw [isRoot_of_perm isPerm, parentOf_of_perm distinct isPerm, funext inductionHypothesis]

theorem resolveRoot_of_perm
    (distinct : (posts.map NostrEvent.id).Nodup)
    (isPerm : others.Perm posts)
    (channelId id : String) :
    (Linkage.build others channelId).resolveRoot id =
      (Linkage.build posts channelId).resolveRoot id := by
  unfold Linkage.resolveRoot
  rw [parentOf_of_perm distinct isPerm, funext (climb_of_perm distinct isPerm channelId _)]

theorem resolveRoot_of_isRoot
    (distinct : (posts.map NostrEvent.id).Nodup)
    (isRoot : (Linkage.build posts channelId).isRoot id = true) :
    (Linkage.build posts channelId).resolveRoot id = none := by
  obtain ⟨post, isPost, noParent, rfl⟩ := isRoot_iff.mp isRoot
  unfold Linkage.resolveRoot
  cases found : (Linkage.build posts channelId).parentOf.lookup post.id with
  | none => rfl
  | some parent =>
      obtain ⟨other, isOther, sameId, isParent⟩ := (lookup_parentOf_iff distinct _ _).mp found
      rw [List.inj_on_of_nodup_map (nodup_inChan distinct channelId) isOther isPost sameId,
        noParent] at isParent
      cases isParent

end Linkage

/-! ## What is counted -/

section Tally

variable {link : Linkage} {tally : Tally} {events : List NostrEvent} {rootId : String}

/-- The replies among some posts whose parents lead to a root. -/
def repliesTo (link : Linkage) (events : List NostrEvent) (rootId : String) : List NostrEvent :=
  events.filter fun post => !link.isRoot post.id && link.resolveRoot post.id == some rootId

/-- The replies among some posts whose parents lead nowhere. -/
def orphansOf (link : Linkage) (events : List NostrEvent) : List NostrEvent :=
  events.filter fun post => !link.isRoot post.id && (link.resolveRoot post.id).isNone

theorem counts_foldl_open
    (noCount : (tally.counts rootId).getD 0 = 0) :
    ((events.foldl (Tally.open_ link) tally).counts rootId).getD 0 = 0 := by
  induction events generalizing tally with
  | nil => exact noCount
  | cons post events inductionHypothesis =>
      rw [List.foldl_cons]
      apply inductionHypothesis
      unfold Tally.open_
      split
      · by_cases isOpened : rootId = post.id
        · rw [isOpened]
          dsimp only
          rw [Function.update_self]
          rfl
        · dsimp only
          rw [Function.update_of_ne isOpened]
          exact noCount
      · exact noCount

theorem last_foldl_open_of_notMem
    (notOpened : rootId ∉ events.map NostrEvent.id) :
    (events.foldl (Tally.open_ link) tally).last rootId = tally.last rootId := by
  induction events generalizing tally with
  | nil => rfl
  | cons post events inductionHypothesis =>
      rw [List.map_cons, List.mem_cons, not_or] at notOpened
      rw [List.foldl_cons, inductionHypothesis notOpened.2]
      unfold Tally.open_
      split
      · exact Function.update_of_ne notOpened.1 ..
      · rfl

theorem last_foldl_open
    {post : NostrEvent}
    (distinct : (events.map NostrEvent.id).Nodup)
    (isPost : post ∈ events)
    (isRoot : link.isRoot post.id = true) :
    (events.foldl (Tally.open_ link) tally).last post.id = some post.createdAt := by
  induction events generalizing tally with
  | nil => cases isPost
  | cons first events inductionHypothesis =>
      rw [List.map_cons, List.nodup_cons] at distinct
      rw [List.foldl_cons]
      rcases List.mem_cons.mp isPost with rfl | isLater
      · rw [last_foldl_open_of_notMem distinct.1]
        unfold Tally.open_
        rw [if_pos isRoot]
        exact Function.update_self ..
      · exact inductionHypothesis distinct.2 isLater

theorem orphans_foldl_open :
    (events.foldl (Tally.open_ link) tally).orphans = tally.orphans := by
  induction events generalizing tally with
  | nil => rfl
  | cons post events inductionHypothesis =>
      rw [List.foldl_cons, inductionHypothesis]
      unfold Tally.open_
      split <;> rfl

theorem attach_of_root
    {post : NostrEvent}
    (isRoot : link.isRoot post.id = true) :
    tally.attach link post = tally :=
  if_pos isRoot

theorem attach_of_reply
    {post : NostrEvent}
    {root : String}
    (notRoot : link.isRoot post.id = false)
    (resolves : link.resolveRoot post.id = some root) :
    tally.attach link post =
      { tally with
        counts := Function.update tally.counts root (some ((tally.counts root).getD 0 + 1))
        last := Function.update tally.last root
          (some (((tally.last root).map fun time => max time post.createdAt).getD
            post.createdAt)) } := by
  unfold Tally.attach
  rw [notRoot, if_neg Bool.false_ne_true, resolves]

theorem attach_of_orphan
    {post : NostrEvent}
    (notRoot : link.isRoot post.id = false)
    (isOrphan : link.resolveRoot post.id = none) :
    tally.attach link post = { tally with orphans := tally.orphans ++ [post] } := by
  unfold Tally.attach
  rw [notRoot, if_neg Bool.false_ne_true, isOrphan]

theorem counts_foldl_attach :
    ((events.foldl (Tally.attach link) tally).counts rootId).getD 0 =
      (tally.counts rootId).getD 0 + (repliesTo link events rootId).length := by
  induction events generalizing tally with
  | nil => rfl
  | cons post events inductionHypothesis =>
      rw [List.foldl_cons, inductionHypothesis]
      unfold repliesTo
      rw [List.filter_cons]
      cases isRoot : link.isRoot post.id with
      | true => rw [attach_of_root isRoot]; rfl
      | false =>
          cases resolves : link.resolveRoot post.id with
          | none => rw [attach_of_orphan isRoot resolves]; rfl
          | some root =>
              rw [attach_of_reply isRoot resolves]
              dsimp only
              by_cases isWanted : rootId = root
              · rw [isWanted, Function.update_self]
                simp
                omega
              · rw [Function.update_of_ne isWanted]
                simp [Ne.symm isWanted]

theorem last_foldl_attach
    {time : Nat}
    (isLast : tally.last rootId = some time) :
    (events.foldl (Tally.attach link) tally).last rootId =
      some (((repliesTo link events rootId).map NostrEvent.createdAt).foldl max time) := by
  induction events generalizing tally time with
  | nil => exact isLast
  | cons post events inductionHypothesis =>
      rw [List.foldl_cons]
      unfold repliesTo
      rw [List.filter_cons]
      cases isRoot : link.isRoot post.id with
      | true =>
          rw [attach_of_root isRoot]
          exact inductionHypothesis isLast
      | false =>
          cases resolves : link.resolveRoot post.id with
          | none =>
              rw [attach_of_orphan isRoot resolves]
              exact inductionHypothesis isLast
          | some root =>
              rw [attach_of_reply isRoot resolves]
              by_cases isWanted : rootId = root
              · subst isWanted
                rw [inductionHypothesis (Function.update_self ..)]
                simp [isLast, repliesTo]
              · rw [inductionHypothesis ((Function.update_of_ne isWanted ..).trans isLast)]
                simp [Ne.symm isWanted, repliesTo]

theorem orphans_foldl_attach :
    (events.foldl (Tally.attach link) tally).orphans = tally.orphans ++ orphansOf link events := by
  induction events generalizing tally with
  | nil => exact (List.append_nil _).symm
  | cons post events inductionHypothesis =>
      rw [List.foldl_cons, inductionHypothesis]
      unfold orphansOf
      rw [List.filter_cons]
      cases isRoot : link.isRoot post.id with
      | true => rw [attach_of_root isRoot]; rfl
      | false =>
          cases resolves : link.resolveRoot post.id with
          | none =>
              rw [attach_of_orphan isRoot resolves]
              exact List.append_assoc _ [post] _
          | some root => rw [attach_of_reply isRoot resolves]; rfl

end Tally

/-! ## The threads of all posts -/

section Threads

variable {posts others : List NostrEvent} {channelId : String} {post : NostrEvent}
  {link : Linkage} {thread : ThreadInfo} {id : String}

/-- A thread whose root is a post without a parent. -/
def rootThread (link : Linkage) (post : NostrEvent) : ThreadInfo where
  root := post
  replyCount := (repliesTo link link.inChan post.id).length
  lastActivity :=
    ((repliesTo link link.inChan post.id).map NostrEvent.createdAt).foldl max post.createdAt

/-- A thread of a reply without a root. -/
def orphanThread (orphan : NostrEvent) : ThreadInfo :=
  ⟨orphan, 0, orphan.createdAt⟩

/-- The posts that open a thread. -/
def heads (link : Linkage) : List NostrEvent :=
  (link.inChan.filter fun post => link.isRoot post.id) ++ orphansOf link link.inChan

theorem listThreads_eq
    (distinct : (posts.map NostrEvent.id).Nodup)
    (channelId : String) :
    listThreads (Linkage.build posts channelId) =
      ((Linkage.build posts channelId).inChan.filter fun post =>
          (Linkage.build posts channelId).isRoot post.id).map
        (rootThread (Linkage.build posts channelId)) ++
      (orphansOf (Linkage.build posts channelId) (Linkage.build posts channelId).inChan).map
        orphanThread := by
  have once := nodup_inChan distinct channelId
  unfold listThreads
  dsimp only
  congr 1
  · refine List.map_congr_left fun post isMember => ?_
    obtain ⟨isPost, isRoot⟩ := List.mem_filter.mp isMember
    unfold rootThread Tally.of
    rw [counts_foldl_attach, counts_foldl_open rfl, Nat.zero_add,
      last_foldl_attach (last_foldl_open once isPost isRoot), Option.getD_some]
  · unfold Tally.of
    rw [orphans_foldl_attach, orphans_foldl_open, List.nil_append]
    rfl

theorem groupThreads_perm
    (distinct : (posts.map NostrEvent.id).Nodup)
    (channelId : String) :
    (groupThreads posts channelId).Perm
      (((Linkage.build posts channelId).inChan.filter fun post =>
          (Linkage.build posts channelId).isRoot post.id).map
        (rootThread (Linkage.build posts channelId)) ++
      (orphansOf (Linkage.build posts channelId) (Linkage.build posts channelId).inChan).map
        orphanThread) := by
  rw [← listThreads_eq distinct]
  exact List.perm_insertionSort _ _

theorem roots_perm
    (distinct : (posts.map NostrEvent.id).Nodup)
    (channelId : String) :
    ((groupThreads posts channelId).map ThreadInfo.root).Perm
      (heads (Linkage.build posts channelId)) := by
  have isPerm := (groupThreads_perm distinct channelId).map ThreadInfo.root
  rw [List.map_append, List.map_map, List.map_map] at isPerm
  have rootsKept : ThreadInfo.root ∘ rootThread (Linkage.build posts channelId) = id := rfl
  have orphansKept : ThreadInfo.root ∘ orphanThread = id := rfl
  rw [rootsKept, orphansKept, List.map_id, List.map_id] at isPerm
  exact isPerm

/-- A thread has a post of the channel as its root, which is itself no reply, and counts the
replies to it. -/
theorem of_mem_groupThreads
    (distinct : (posts.map NostrEvent.id).Nodup)
    (isThread : thread ∈ groupThreads posts channelId) :
    thread.root ∈ (Linkage.build posts channelId).inChan ∧
      (Linkage.build posts channelId).resolveRoot thread.root.id = none ∧
      thread.replyCount = (repliesTo (Linkage.build posts channelId)
        (Linkage.build posts channelId).inChan thread.root.id).length := by
  rw [(groupThreads_perm distinct channelId).mem_iff, List.mem_append, List.mem_map,
    List.mem_map] at isThread
  rcases isThread with ⟨post, isMember, rfl⟩ | ⟨orphan, isMember, rfl⟩
  · obtain ⟨isPost, isRoot⟩ := List.mem_filter.mp isMember
    exact ⟨isPost, resolveRoot_of_isRoot distinct isRoot, rfl⟩
  · obtain ⟨isPost, isOrphan⟩ := List.mem_filter.mp isMember
    rw [Bool.and_eq_true, Bool.not_eq_true', Option.isNone_iff_eq_none] at isOrphan
    refine ⟨isPost, isOrphan.2, (List.length_eq_zero_iff.mpr ?_).symm⟩
    refine List.filter_eq_nil_iff.mpr fun post _ isReply => ?_
    rw [Bool.and_eq_true, beq_iff_eq] at isReply
    have isRoot := isRoot_of_resolveRoot isReply.2
    change (Linkage.build posts channelId).isRoot orphan.id = true at isRoot
    rw [isOrphan.1] at isRoot
    cases isRoot

theorem nodup_heads
    (distinct : (posts.map NostrEvent.id).Nodup)
    (channelId : String) :
    ((heads (Linkage.build posts channelId)).map NostrEvent.id).Nodup := by
  have once := nodup_inChan distinct channelId
  unfold heads
  rw [List.map_append, List.nodup_append]
  refine ⟨once.sublist (List.filter_sublist.map _), once.sublist (List.filter_sublist.map _), ?_⟩
  intro rootId isRootId orphanId isOrphanId same
  obtain ⟨post, isMember, rfl⟩ := List.mem_map.mp isRootId
  obtain ⟨orphan, isOrphan, rfl⟩ := List.mem_map.mp isOrphanId
  have isRoot := (List.mem_filter.mp isMember).2
  have notRoot := (List.mem_filter.mp isOrphan).2
  rw [Bool.and_eq_true, Bool.not_eq_true'] at notRoot
  rw [same, notRoot.1] at isRoot
  cases isRoot

/-- The root of the thread that a post is in. -/
def Linkage.threadOf (link : Linkage) (post : NostrEvent) : String :=
  if link.isRoot post.id then post.id else (link.resolveRoot post.id).getD post.id

theorem threadOf_eq_iff
    (distinct : (posts.map NostrEvent.id).Nodup)
    (isHead : (Linkage.build posts channelId).resolveRoot id = none)
    (post : NostrEvent) :
    (Linkage.build posts channelId).threadOf post = id ↔
      post.id = id ∨ (Linkage.build posts channelId).resolveRoot post.id = some id := by
  unfold Linkage.threadOf
  cases isRoot : (Linkage.build posts channelId).isRoot post.id with
  | true =>
      rw [if_pos rfl, resolveRoot_of_isRoot distinct isRoot]
      exact (or_iff_left (Option.some_ne_none id).symm).symm
  | false =>
      rw [if_neg Bool.false_ne_true]
      cases resolves : (Linkage.build posts channelId).resolveRoot post.id with
      | none => exact (or_iff_left (Option.some_ne_none id).symm).symm
      | some root =>
          rw [Option.getD_some, Option.some.injEq]
          refine (or_iff_right ?_).symm
          intro sameId
          rw [sameId, isHead] at resolves
          cases resolves

/-- The posts counted under a root are those of its thread but the root. -/
theorem isReply_iff
    (distinct : (posts.map NostrEvent.id).Nodup)
    (isHead : (Linkage.build posts channelId).resolveRoot id = none)
    (post : NostrEvent) :
    (!(Linkage.build posts channelId).isRoot post.id &&
        (Linkage.build posts channelId).resolveRoot post.id == some id) = true ↔
      (Linkage.build posts channelId).threadOf post = id ∧ post.id ≠ id := by
  rw [Bool.and_eq_true, Bool.not_eq_true', beq_iff_eq, threadOf_eq_iff distinct isHead]
  constructor
  · rintro ⟨-, resolves⟩
    refine ⟨.inr resolves, fun sameId => ?_⟩
    rw [sameId, isHead] at resolves
    cases resolves
  · rintro ⟨sameId | resolves, otherId⟩
    · exact absurd sameId otherId
    · refine ⟨?_, resolves⟩
      by_contra isRoot
      rw [resolveRoot_of_isRoot distinct (Bool.not_eq_false _ ▸ isRoot)] at resolves
      cases resolves

/-- Every post of the channel is in the thread of some post that opens one. -/
theorem exists_thread
    (distinct : (posts.map NostrEvent.id).Nodup)
    (isPost : post ∈ (Linkage.build posts channelId).inChan) :
    ∃ thread ∈ groupThreads posts channelId,
      thread.root.id = (Linkage.build posts channelId).threadOf post := by
  have ofRoot : ∀ {root}, (Linkage.build posts channelId).isRoot root = true →
      ∃ thread ∈ groupThreads posts channelId, thread.root.id = root := by
    intro root isRoot
    obtain ⟨opening, isOpening, -, rfl⟩ := isRoot_iff.mp isRoot
    refine ⟨rootThread (Linkage.build posts channelId) opening, ?_, rfl⟩
    rw [(groupThreads_perm distinct channelId).mem_iff]
    exact List.mem_append_left _ (List.mem_map_of_mem (List.mem_filter.mpr ⟨isOpening, isRoot⟩))
  unfold Linkage.threadOf
  cases isRoot : (Linkage.build posts channelId).isRoot post.id with
  | true => exact ofRoot isRoot
  | false =>
      cases resolves : (Linkage.build posts channelId).resolveRoot post.id with
      | some root => exact ofRoot (isRoot_of_resolveRoot resolves)
      | none =>
          refine ⟨orphanThread post, ?_, rfl⟩
          rw [(groupThreads_perm distinct channelId).mem_iff]
          refine List.mem_append_right _ (List.mem_map_of_mem (List.mem_filter.mpr ⟨isPost, ?_⟩))
          rw [isRoot, resolves]
          rfl

theorem threadMessages_perm
    (posts : List NostrEvent)
    (channelId rootId : String) :
    (threadMessages posts channelId rootId).Perm
      ((Linkage.build posts channelId).inChan.filter fun post =>
        post.id == rootId || (Linkage.build posts channelId).resolveRoot post.id == some rootId) :=
  List.perm_insertionSort _ _

theorem rootThread_of_perm
    (distinct : (posts.map NostrEvent.id).Nodup)
    (isPerm : others.Perm posts)
    (channelId : String)
    (post : NostrEvent) :
    rootThread (Linkage.build others channelId) post =
      rootThread (Linkage.build posts channelId) post := by
  have sameReplies : (repliesTo (Linkage.build others channelId)
      (Linkage.build others channelId).inChan post.id).Perm
      (repliesTo (Linkage.build posts channelId)
        (Linkage.build posts channelId).inChan post.id) := by
    unfold repliesTo
    simp only [isRoot_of_perm isPerm, resolveRoot_of_perm distinct isPerm]
    exact (inChan_perm isPerm channelId).filter _
  unfold rootThread
  rw [sameReplies.length_eq, (sameReplies.map NostrEvent.createdAt).foldl_eq]

theorem mem_groupThreads_of_perm
    (distinct : (posts.map NostrEvent.id).Nodup)
    (isPerm : others.Perm posts)
    (channelId : String)
    (thread : ThreadInfo) :
    thread ∈ groupThreads others channelId ↔ thread ∈ groupThreads posts channelId := by
  have othersDistinct := (isPerm.map NostrEvent.id).nodup_iff.mpr distinct
  rw [(groupThreads_perm othersDistinct channelId).mem_iff,
    (groupThreads_perm distinct channelId).mem_iff]
  unfold orphansOf
  simp only [isRoot_of_perm isPerm, resolveRoot_of_perm distinct isPerm,
    funext (rootThread_of_perm distinct isPerm channelId)]
  exact ((((inChan_perm isPerm channelId).filter _).map _).append
    (((inChan_perm isPerm channelId).filter _).map _)).mem_iff

theorem mem_threadMessages_of_perm
    (distinct : (posts.map NostrEvent.id).Nodup)
    (isPerm : others.Perm posts)
    (channelId rootId : String)
    (post : NostrEvent) :
    post ∈ threadMessages others channelId rootId ↔
      post ∈ threadMessages posts channelId rootId := by
  rw [(threadMessages_perm others channelId rootId).mem_iff,
    (threadMessages_perm posts channelId rootId).mem_iff]
  simp only [resolveRoot_of_perm distinct isPerm]
  exact ((inChan_perm isPerm channelId).filter _).mem_iff

/-- The root of a thread is one post of it. -/
theorem countP_threadOf
    (distinct : (posts.map NostrEvent.id).Nodup)
    {threadOf : NostrEvent → String}
    (isPost : post ∈ posts)
    (isRoot : threadOf post = post.id) :
    posts.countP (fun other => threadOf other = post.id) =
      posts.countP (fun other => threadOf other = post.id ∧ other.id ≠ post.id) + 1 := by
  have isOne : posts.countP (fun other => threadOf other = post.id ∧ other.id = post.id) = 1 := by
    have onlyRoot : posts.countP (fun other => threadOf other = post.id ∧ other.id = post.id) =
        posts.countP fun other => other.id = post.id := by
      refine List.countP_congr fun other isOther => ?_
      rw [decide_eq_true_eq, decide_eq_true_eq]
      refine ⟨And.right, fun sameId => ⟨?_, sameId⟩⟩
      rwa [List.inj_on_of_nodup_map distinct isOther isPost sameId]
    have counted := List.count_eq_one_of_mem distinct (List.mem_map_of_mem isPost)
    rw [List.count_eq_countP, List.countP_map] at counted
    rw [onlyRoot, ← counted]
    exact List.countP_congr fun other _ => by simp
  rw [List.countP_eq_countP_filter_add _ _ fun other => decide (other.id ≠ post.id),
    List.countP_filter, List.countP_filter, ← isOne]
  congr 1
  · exact List.countP_congr fun other _ => by simp
  · exact List.countP_congr fun other _ => by simp

end Threads

/-! ## No post vanishes -/

/-- No post vanishes from its board exactly when the first `e` tag of every post has the channel's
id as its value. -/
theorem keepsPosts_iff
    (posts : List NostrEvent)
    (channelId : String)
    (distinct : (posts.map NostrEvent.id).Nodup) :
    KeepsPosts posts channelId ↔ ∀ post ∈ posts, postRootChannel post = some channelId := by
  constructor
  · intro keeps post isPost
    obtain ⟨threadOf, placed, threads⟩ := keeps.placed
    obtain ⟨thread, isThread, isRoot⟩ := placed post isPost
    have isMessage : post ∈ threadMessages posts channelId thread.root.id := by
      rw [(threads thread isThread).2.2.2.mem_iff, List.mem_filter]
      exact ⟨isPost, decide_eq_true isRoot.symm⟩
    rw [(threadMessages_perm posts channelId thread.root.id).mem_iff] at isMessage
    exact (mem_inChan_iff.mp (List.mem_filter.mp isMessage).1).2
  · intro inChannel
    have all : (Linkage.build posts channelId).inChan = posts :=
      List.filter_eq_self.mpr fun post isPost => beq_iff_eq.mpr (inChannel post isPost)
    have distinctRoots :
        ((groupThreads posts channelId).map fun thread => thread.root.id).Nodup := by
      have isPerm := (roots_perm distinct channelId).map NostrEvent.id
      rw [List.map_map] at isPerm
      exact isPerm.nodup_iff.mpr (nodup_heads distinct channelId)
    have placed : ∀ post ∈ posts, ∃ thread ∈ groupThreads posts channelId,
        thread.root.id = (Linkage.build posts channelId).threadOf post :=
      fun post isPost => exists_thread distinct (all.symm ▸ isPost)
    have threads : ∀ thread ∈ groupThreads posts channelId,
        thread.root ∈ posts ∧
          (Linkage.build posts channelId).threadOf thread.root = thread.root.id ∧
          thread.replyCount = posts.countP (fun post =>
            (Linkage.build posts channelId).threadOf post = thread.root.id ∧
              post.id ≠ thread.root.id) ∧
          (threadMessages posts channelId thread.root.id).Perm (posts.filter fun post =>
            (Linkage.build posts channelId).threadOf post = thread.root.id) := by
      intro thread isThread
      obtain ⟨isPost, isHead, counted⟩ := of_mem_groupThreads distinct isThread
      rw [all] at isPost counted
      refine ⟨isPost, (threadOf_eq_iff distinct isHead _).mpr (.inl rfl), ?_, ?_⟩
      · rw [counted, repliesTo, ← List.countP_eq_length_filter]
        refine List.countP_congr fun post _ => ?_
        rw [isReply_iff distinct isHead, decide_eq_true_eq]
      · refine (threadMessages_perm posts channelId _).trans ?_
        rw [all]
        refine List.Perm.of_eq (List.filter_congr fun post _ => ?_)
        rw [Bool.eq_iff_iff, Bool.or_eq_true, beq_iff_eq, beq_iff_eq, decide_eq_true_eq,
          threadOf_eq_iff distinct isHead]
    refine ⟨distinctRoots, ⟨_, placed, threads⟩, ?_, ?_, ?_⟩
    case refine_1 =>
      have covered : ∀ post ∈ posts, (Linkage.build posts channelId).threadOf post ∈
          (groupThreads posts channelId).map fun thread => thread.root.id := by
        intro post isPost
        obtain ⟨thread, isThread, isRoot⟩ := placed post isPost
        exact List.mem_map.mpr ⟨thread, isThread, isRoot⟩
      rw [← Lib.sum_map_countP distinctRoots covered, List.map_map]
      refine congrArg List.sum (List.map_congr_left fun thread isThread => ?_)
      obtain ⟨isPost, isRoot, counted, -⟩ := threads thread isThread
      rw [counted]
      exact (countP_threadOf distinct isPost isRoot).symm
    case refine_2 => exact fun others isPerm => mem_groupThreads_of_perm distinct isPerm channelId
    case refine_3 => exact fun others isPerm => mem_threadMessages_of_perm distinct isPerm channelId

namespace Sample

def post (id : String) (createdAt : Nat) (tags : List Relay.Tag) : NostrEvent where
  id := id
  pubkey := "alice"
  createdAt := createdAt
  kind := 42
  tags := tags
  content := "hello"
  sig := ""

def opening : NostrEvent :=
  post "p1" 10 (channelMessageTags "c1" none)

def answer : NostrEvent :=
  post "p2" 20 (channelMessageTags "c1" (some ("p1", "alice")))

end Sample

/-- A board with a post and its answer. -/
theorem keepsPosts_answered :
    KeepsPosts [Sample.answer, Sample.opening] "c1" :=
  (keepsPosts_iff [Sample.answer, Sample.opening] "c1" (by decide)).mpr (by decide)

namespace Sample

def crypto : ZoneMigrate.Crypto where
  verifyEvent _ := true
  toJson event := event.content
  fromJson _ := none
  encrypt _ _ _ text := .ok text
  decrypt _ _ _ := none
  publicKey secret := secret
  onCurve _ := true
  signEvent event _ := .ok event
  sha256Hex text := text

/-- A client that knows one channel. -/
def reader : Reader :=
  ⟨crypto, id, [⟨"c1", "General", "public"⟩]⟩

/-- An answer whose channel tag comes after its parent's. -/
def reversed : NostrEvent :=
  post "p2" 20 [["e", "p1", "", "reply"], ["e", "c1", "", "root"]]

end Sample

/-- A reply that the client files under a channel is in no thread of it when its first `e` tag
names its parent. -/
theorem reply_vanishes :
    Sample.reversed.kind = 42 ∧ Sample.reader.resolveChannel Sample.reversed = some "c1" ∧
      groupThreads [Sample.reversed] "c1" = [] ∧ ¬KeepsPosts [Sample.reversed] "c1" := by
  have noThread : groupThreads [Sample.reversed] "c1" = [] := by decide
  refine ⟨rfl, by decide, noThread, fun keeps => ?_⟩
  have complete := keeps.complete
  rw [noThread] at complete
  cases complete

end Threads
end Client
end NostrBbs
