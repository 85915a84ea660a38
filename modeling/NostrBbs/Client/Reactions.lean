import Mathlib.Data.Finset.Sort
import Mathlib.Data.String.Basic
import NostrBbs.Client.Channels
import NostrBbs.Lib.Replay
import NostrBbs.Shared.Texts

/-!
# Reactions

Who reacted to an event with an emoji.  Reactions and deletions reach the store in any
order and any number of times; the store keeps a set of members for an emoji, and takes a
member out with the first of their reactions that is deleted.
-/

namespace NostrBbs
namespace Client

open Lib (Holding Change)
open Relay (NostrEvent)

/-! ## The store -/

/-- The target, emoji and reactor of a reaction. -/
@[ext] structure ReactionRef where
  target : String
  emoji : String
  pubkey : String
deriving DecidableEq, Repr

/-- The reactors of a target and an emoji, an entry that was pruned being empty; the reaction
of each id; and the ids that were deleted. -/
structure ReactionStore where
  aggregate : String → String → Finset String
  index : String → Option ReactionRef
  tombstones : Finset String

/-- An empty content is a like. -/
def normaliseEmoji (content : String) : String :=
  let trimmed := String.ofList (Shared.trimChars content.toList)
  if trimmed = "" then "+" else trimmed

/-- The reaction that an event makes, to the last event that it names. -/
def parseReaction (lower : String → String) (event : NostrEvent) : Option ReactionRef :=
  if event.kind ≠ 7 then none
  else
    (((event.tags.reverse.find? (Relay.isValued "e")).map fun tag =>
      lower (Relay.firstValue tag)).filter (· ≠ "")).map fun target =>
        ⟨target, normaliseEmoji event.content, lower event.pubkey⟩

namespace ReactionStore

/-- The store when the client starts. -/
def empty : ReactionStore :=
  ⟨fun _ _ => ∅, fun _ => none, ∅⟩

def foldAdd (store : ReactionStore) (kind7Id : String) (r : ReactionRef) : ReactionStore :=
  if kind7Id ∈ store.tombstones then store
  else
    { store with
      aggregate := Function.update store.aggregate r.target
        (Function.update (store.aggregate r.target) r.emoji
          (insert r.pubkey (store.aggregate r.target r.emoji)))
      index := Function.update store.index kind7Id (some r) }

/-- One deleted id: its reactor leaves the set. -/
def removeOne (store : ReactionStore) (id : String) : ReactionStore where
  aggregate :=
    match store.index id with
    | none => store.aggregate
    | some r =>
        Function.update store.aggregate r.target
          (Function.update (store.aggregate r.target) r.emoji
            ((store.aggregate r.target r.emoji).erase r.pubkey))
  index := Function.update store.index id none
  tombstones := insert id store.tombstones

def foldRemove (lower : String → String) (store : ReactionStore) (deleted : List String) :
    ReactionStore :=
  deleted.foldl (fun store id => store.removeOne (lower id)) store

def onEvent (lower : String → String) (store : ReactionStore) (event : NostrEvent) :
    ReactionStore :=
  if event.kind = 7 then
    match parseReaction lower event with
    | none => store
    | some r => store.foldAdd (lower event.id) r
  else if event.kind = 5 then
    let deleted := deletionTargets lower event
    if deleted = [] then store else store.foldRemove lower deleted
  else store

/-- The pill of a reaction that was just signed. -/
def addLocal (lower : String → String) (store : ReactionStore)
    (kind7Id target emoji pubkey : String) : ReactionStore :=
  store.foldAdd (lower kind7Id) ⟨lower target, emoji, lower pubkey⟩

def removeLocal (lower : String → String) (store : ReactionStore) (kind7Id : String) :
    ReactionStore :=
  store.foldRemove lower [lower kind7Id]

/-- The reactors behind an emoji on a target. -/
def reactorList (store : ReactionStore) (target emoji : String) : List String :=
  (store.aggregate target emoji).sort (· ≤ ·)

end ReactionStore

/-- What reaches the store: an event of the relay, or what the member does here. -/
inductive ReactionInput
  | received (event : NostrEvent)
  | addLocal (kind7Id target emoji pubkey : String)
  | removeLocal (kind7Id : String)

namespace ReactionInput

def fold (lower : String → String) (store : ReactionStore) : ReactionInput → ReactionStore
  | received event => store.onEvent lower event
  | addLocal kind7Id target emoji pubkey => store.addLocal lower kind7Id target emoji pubkey
  | removeLocal kind7Id => store.removeLocal lower kind7Id

/-- What an input says: a reaction under its id, or ids that are deleted. -/
def change (lower : String → String) : ReactionInput → Option (Change String ReactionRef)
  | received event =>
      if event.kind = 7 then (parseReaction lower event).map (.add (lower event.id))
      else if event.kind = 5 then some (.retract ((deletionTargets lower event).map lower))
      else none
  | addLocal kind7Id target emoji pubkey =>
      some (.add (lower kind7Id) ⟨lower target, emoji, lower pubkey⟩)
  | removeLocal kind7Id => some (.retract [lower (lower kind7Id)])

end ReactionInput

/-- The store after some inputs. -/
def reactionsAfter (lower : String → String) (order : List ReactionInput) : ReactionStore :=
  order.foldl (ReactionInput.fold lower) ReactionStore.empty

/-! ## What the store holds -/

section Holding

variable {lower : String → String} {store : ReactionStore}

/-- The reactions that the store shows, those it knows and the ids that it saw deleted. -/
def ReactionStore.holding (store : ReactionStore) : Holding String ReactionRef where
  held := {ref | ref.pubkey ∈ store.aggregate ref.target ref.emoji}
  index := store.index
  retracted := {id | id ∈ store.tombstones}

theorem holding_empty :
    ReactionStore.empty.holding = Holding.start := by
  refine Holding.ext (Set.ext fun ref => ?_) rfl (Set.ext fun id => ?_)
  · exact iff_of_false (Finset.notMem_empty ref.pubkey) fun isHeld => isHeld
  · exact iff_of_false (Finset.notMem_empty id) fun isRetracted => isRetracted

/-- The set of one target and emoji is changed, and no other. -/
theorem update_aggregate
    (aggregate : String → String → Finset String)
    (target emoji : String)
    (reactors : Finset String)
    (ref : ReactionRef) :
    Function.update aggregate target (Function.update (aggregate target) emoji reactors)
        ref.target ref.emoji =
      if ref.target = target ∧ ref.emoji = emoji then reactors
      else aggregate ref.target ref.emoji := by
  by_cases sameTarget : ref.target = target
  · by_cases sameEmoji : ref.emoji = emoji
    · rw [if_pos ⟨sameTarget, sameEmoji⟩, sameTarget, sameEmoji, Function.update_self,
        Function.update_self]
    · rw [if_neg fun same => sameEmoji same.2, sameTarget, Function.update_self,
        Function.update_of_ne sameEmoji]
  · rw [if_neg fun same => sameTarget same.1, Function.update_of_ne sameTarget]

theorem holding_foldAdd
    (kind7Id : String)
    (r : ReactionRef) :
    (store.foldAdd kind7Id r).holding = store.holding.add kind7Id r := by
  unfold ReactionStore.foldAdd
  split
  · rename_i isDeleted
    exact (Holding.add_of_mem isDeleted).symm
  · rename_i notDeleted
    have notRetracted : kind7Id ∉ store.holding.retracted := notDeleted
    refine Holding.ext (Set.ext fun ref => ?_) (funext fun id => ?_) ?_
    · rw [Holding.held_add notRetracted, Set.mem_insert_iff, ReactionRef.ext_iff]
      unfold ReactionStore.holding
      dsimp only
      rw [Set.mem_ofPred_eq, Set.mem_ofPred_eq, update_aggregate]
      split
      · rename_i same
        rw [Finset.mem_insert, same.1, same.2]
        tauto
      · tauto
    · by_cases isSame : id = kind7Id
      · rw [isSame, Holding.index_add_self notRetracted]
        unfold ReactionStore.holding
        dsimp only
        rw [Function.update_self]
      · rw [Holding.index_add_of_ne isSame]
        unfold ReactionStore.holding
        dsimp only
        rw [Function.update_of_ne isSame]
    · rw [Holding.retracted_add]
      rfl

theorem holding_removeOne
    (id : String) :
    (store.removeOne id).holding = store.holding.retractOne id := by
  refine Holding.ext (Set.ext fun ref => ?_) (funext fun other => ?_) ?_
  · rw [Holding.mem_held_retractOne]
    unfold ReactionStore.holding ReactionStore.removeOne
    dsimp only
    rw [Set.mem_ofPred_eq, Set.mem_ofPred_eq]
    cases store.index id with
    | none => simp
    | some r =>
        dsimp only
        rw [update_aggregate, ne_eq, Option.some.injEq, ReactionRef.ext_iff]
        split
        · rename_i same
          rw [Finset.mem_erase, same.1, same.2]
          tauto
        · rename_i different
          constructor
          · refine fun isHeld => ⟨isHeld, fun isSame => different ⟨isSame.1.symm, isSame.2.1.symm⟩⟩
          · exact fun isHeld => isHeld.1
  · by_cases isSame : other = id
    · rw [isSame, Holding.index_retractOne_self]
      unfold ReactionStore.holding ReactionStore.removeOne
      dsimp only
      rw [Function.update_self]
    · rw [Holding.index_retractOne_of_ne isSame]
      unfold ReactionStore.holding ReactionStore.removeOne
      dsimp only
      rw [Function.update_of_ne isSame]
  · exact Set.ext fun other => Finset.mem_insert

theorem holding_foldRemove
    (deleted : List String) :
    (store.foldRemove lower deleted).holding =
      (deleted.map lower).foldl Holding.retractOne store.holding := by
  unfold ReactionStore.foldRemove
  induction deleted generalizing store with
  | nil => rfl
  | cons id deleted inductionHypothesis =>
      rw [List.foldl_cons, inductionHypothesis, holding_removeOne, List.map_cons, List.foldl_cons]

/-- An input changes what the store holds by what it says. -/
theorem holding_fold
    (input : ReactionInput) :
    (input.fold lower store).holding =
      store.holding.step (ReactionInput.change lower) input := by
  unfold Holding.step
  cases input with
  | received event =>
      unfold ReactionInput.fold ReactionStore.onEvent ReactionInput.change
      dsimp only
      split
      · cases parseReaction lower event with
        | none => rfl
        | some r => exact holding_foldAdd (lower event.id) r
      · split
        · split
          · rename_i noTarget
            rw [noTarget]
            rfl
          · exact holding_foldRemove (deletionTargets lower event)
        · rfl
  | addLocal kind7Id target emoji pubkey => exact holding_foldAdd (lower kind7Id) _
  | removeLocal kind7Id => exact holding_foldRemove [lower kind7Id]

theorem holding_reactionsAfter
    (order : List ReactionInput) :
    (reactionsAfter lower order).holding = Holding.after (ReactionInput.change lower) order := by
  unfold reactionsAfter Holding.after
  rw [← holding_empty]
  generalize ReactionStore.empty = store
  induction order generalizing store with
  | nil => rfl
  | cons input order inductionHypothesis =>
      rw [List.foldl_cons, inductionHypothesis, holding_fold, List.foldl_cons]

theorem mem_reactorList_iff
    (order : List ReactionInput)
    (ref : ReactionRef) :
    ref.pubkey ∈ (reactionsAfter lower order).reactorList ref.target ref.emoji ↔
      ref ∈ (Holding.after (ReactionInput.change lower) order).held := by
  rw [← holding_reactionsAfter]
  unfold ReactionStore.reactorList
  rw [Finset.mem_sort]
  rfl

end Holding

/-! ## Reactors in any order -/

/-- Whatever the order and the repetition, the reactors shown for a target and an emoji are the
members with a reaction that no deletion names, exactly when no deletion names one reaction of
a member with a target and an emoji and leaves another. -/
theorem reactors_settle_iff
    (lower : String → String)
    (inputs : List ReactionInput) :
    (∀ order, Lib.SameInputs order inputs → ∀ target emoji pubkey,
        pubkey ∈ (reactionsAfter lower order).reactorList target emoji ↔
          ∃ id, Lib.Added (ReactionInput.change lower) inputs id ⟨target, emoji, pubkey⟩ ∧
            ¬Lib.Retracted (ReactionInput.change lower) inputs id) ↔
      Lib.RetractedWhole (ReactionInput.change lower) inputs := by
  rw [← Lib.held_iff_lives_iff]
  constructor
  · intro shown order same ref
    rw [← mem_reactorList_iff]
    exact shown order same ref.target ref.emoji ref.pubkey
  · intro held order same target emoji pubkey
    exact (mem_reactorList_iff order ⟨target, emoji, pubkey⟩).trans (held order same _)

namespace Sample

/-- A like of a post by one member, from some device. -/
def like (id : String) : NostrEvent where
  id := id
  pubkey := "alice"
  createdAt := 1
  kind := 7
  tags := [["e", "post"]]
  content := "+"
  sig := ""

def unlike (id : String) : NostrEvent where
  id := "unlike"
  pubkey := "alice"
  createdAt := 2
  kind := 5
  tags := [["e", id]]
  content := ""
  sig := ""

end Sample

/-- A member who likes from two devices and takes one like back is not shown, unless the
deletion comes first. -/
theorem like_forgotten :
    "alice" ∉ (reactionsAfter id [.received (Sample.like "first"), .received (Sample.like "second"),
        .received (Sample.unlike "first")]).reactorList "post" "+" ∧
      "alice" ∈ (reactionsAfter id [.received (Sample.unlike "first"),
        .received (Sample.like "first"), .received (Sample.like "second")]).reactorList
          "post" "+" := by
  unfold ReactionStore.reactorList
  rw [Finset.mem_sort, Finset.mem_sort]
  decide

end Client
end NostrBbs
