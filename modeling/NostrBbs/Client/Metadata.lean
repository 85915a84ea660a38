import NostrBbs.Governance.Plans
import NostrBbs.Lib.Patches

/-!
# Channel metadata

The name, description and picture that the client holds for a channel.  Edits carry some of
the three and may come before their channel; the store keeps one time for a channel, of the
edit that it took last, and of the edits of a channel that is not there yet only the newest.
-/

namespace NostrBbs
namespace Client
namespace Metadata

open Governance (JsonParser textField isBlank)
open Lib (Base Part Patch Slot)
open Relay (NostrEvent)

/-! ## The store -/

structure ChannelMeta where
  id : String
  name : String
  description : String
  section_ : String
  picture : String
  createdAt : Nat
deriving DecidableEq, Repr

/-- A channel-metadata edit, with the fields that its content carries. -/
structure MetaUpdate where
  channelId : String
  name : Option String
  about : Option String
  picture : Option String
  createdAt : Nat
deriving DecidableEq, Repr

/-- The channels, the time of the edit that each took last, and the edits that wait for their
channel. -/
structure MetaStore where
  channels : List ChannelMeta
  metaUpdatedAt : String → Option Nat
  pendingMeta : String → Option MetaUpdate

section Reading

variable (json : JsonParser)

/-- Name, description and picture of a creation's content. -/
def parseChannelContent (content : String) : String × String × String :=
  match json.parse content with
  | some val =>
      ((textField val "name").getD "Unnamed Channel", (textField val "about").getD "",
        (textField val "picture").getD "")
  | none => ("Unnamed Channel", "", "")

/-- The channel that a creation makes. -/
def createdChannel (event : NostrEvent) : ChannelMeta :=
  let (name, description, picture) := parseChannelContent json event.content
  { id := event.id
    name := name
    description := description
    section_ := (Relay.tagValue event "section").getD ""
    picture := picture
    createdAt := event.createdAt }

/-- The edit of an event; pins and unpins carry neither name nor description and are none. -/
def parseMetaUpdate (event : NostrEvent) : Option MetaUpdate :=
  ((Relay.channelTag event).filter (· ≠ "")).bind fun channelId =>
    (json.parse event.content).bind fun val =>
      let name := textField val "name"
      let about := textField val "about"
      if name = none ∧ about = none then none
      else some ⟨channelId, name, about, textField val "picture", event.createdAt⟩

end Reading

/-- A channel with the fields of an edit, unless its name is blank. -/
def MetaUpdate.apply (update : MetaUpdate) (channel : ChannelMeta) : ChannelMeta :=
  { channel with
    name := (update.name.filter fun name => !isBlank name).getD channel.name
    description := update.about.getD channel.description
    picture := update.picture.getD channel.picture }

/-- The first channel of an id is changed. -/
def editFirst (id : String) (edit : ChannelMeta → ChannelMeta) : List ChannelMeta → List ChannelMeta
  | [] => []
  | channel :: channels =>
      if channel.id = id then edit channel :: channels
      else channel :: editFirst id edit channels

namespace MetaStore

/-- The store when the client starts. -/
def empty : MetaStore :=
  ⟨[], fun _ => none, fun _ => none⟩

def find (store : MetaStore) (id : String) : Option ChannelMeta :=
  store.channels.find? fun channel => channel.id == id

/-- An edit is folded into its channel, unless it is older than the edit before or the
channel. -/
def foldMetaInto (store : MetaStore) (update : MetaUpdate) : Option MetaStore :=
  match store.find update.channelId with
  | none => none
  | some channel =>
      if update.createdAt < (store.metaUpdatedAt update.channelId).getD channel.createdAt then none
      else
        some { store with
          channels := editFirst update.channelId update.apply store.channels
          metaUpdatedAt :=
            Function.update store.metaUpdatedAt update.channelId (some update.createdAt) }

def bufferPendingMeta (store : MetaStore) (update : MetaUpdate) : MetaStore :=
  let buffered :=
    { store with
      pendingMeta := Function.update store.pendingMeta update.channelId (some update) }
  match store.pendingMeta update.channelId with
  | some existing => if existing.createdAt ≥ update.createdAt then store else buffered
  | none => buffered

/-- A new channel is listed, and the edit that waited for it waits no longer. -/
def insertChannel (store : MetaStore) (channel : ChannelMeta) : MetaStore where
  channels := store.channels ++ [channel]
  metaUpdatedAt := store.metaUpdatedAt
  pendingMeta := Function.update store.pendingMeta channel.id none

/-- A creation, unless the channel is known; an edit that outran it is folded. -/
def create (store : MetaStore) (channel : ChannelMeta) : MetaStore :=
  if store.channels.any fun known => known.id == channel.id then store
  else
    let inserted := store.insertChannel channel
    match store.pendingMeta channel.id with
    | some update => (inserted.foldMetaInto update).getD inserted
    | none => inserted

/-- An edit, which waits when it is not folded. -/
def edit (store : MetaStore) (update : MetaUpdate) : MetaStore :=
  (store.foldMetaInto update).getD (store.bufferPendingMeta update)

variable (json : JsonParser)

def onEvent (store : MetaStore) (event : NostrEvent) : MetaStore :=
  if event.kind = 40 then store.create (createdChannel json event)
  else if event.kind = 41 then
    match parseMetaUpdate json event with
    | some update => store.edit update
    | none => store
  else store

/-- The store after some events. -/
def after (order : List NostrEvent) : MetaStore :=
  order.foldl (onEvent json) empty

end MetaStore

/-! ## A channel of the store -/

/-- The fields of a channel that edits carry. -/
inductive MetaField
  | name
  | description
  | picture
deriving DecidableEq, Repr

def ChannelMeta.values (channel : ChannelMeta) : MetaField → String
  | .name => channel.name
  | .description => channel.description
  | .picture => channel.picture

def ChannelMeta.toBase (channel : ChannelMeta) : Base MetaField String :=
  ⟨channel.createdAt, channel.values⟩

/-- What an edit carries, a blank name counting as not carried. -/
def MetaUpdate.values (update : MetaUpdate) : MetaField → Option String
  | .name => update.name.filter fun name => !isBlank name
  | .description => update.about
  | .picture => update.picture

def MetaUpdate.toPatch (update : MetaUpdate) : Patch MetaField String :=
  ⟨update.createdAt, update.values⟩

/-- What an event is to a channel. -/
def part (json : JsonParser) (id : String) (event : NostrEvent) :
    Option (Part MetaField String) :=
  if event.kind = 40 then
    if event.id = id then some (.base (createdChannel json event).toBase) else none
  else if event.kind = 41 then
    ((parseMetaUpdate json event).filter fun update => update.channelId = id).map fun update =>
      .patch update.toPatch
  else none

/-- The name, description and picture that the store holds for a channel. -/
def MetaStore.held (store : MetaStore) (id : String) : Option (MetaField → String) :=
  (store.find id).map ChannelMeta.values

/-- A channel of the store as a record that is created and patched. -/
def MetaStore.slot (store : MetaStore) (id : String) : Slot MetaField String where
  base := (store.find id).map ChannelMeta.toBase
  latest := store.metaUpdatedAt id
  pending := (store.pendingMeta id).map MetaUpdate.toPatch

/-- Edits wait under their channel. -/
def MetaStore.Filed (store : MetaStore) : Prop :=
  ∀ id update, store.pendingMeta id = some update → update.channelId = id

section Slots

variable {json : JsonParser} {store : MetaStore} {update : MetaUpdate} {channel : ChannelMeta}
  {id : String}

theorem toBase_apply
    (update : MetaUpdate)
    (channel : ChannelMeta) :
    (update.apply channel).toBase =
      { channel.toBase with values := update.toPatch.over channel.toBase } := by
  unfold ChannelMeta.toBase
  rw [Base.mk.injEq]
  refine ⟨rfl, funext fun field => ?_⟩
  cases field <;> rfl

theorem find_editFirst
    (edit : ChannelMeta → ChannelMeta)
    (keepsId : ∀ channel, (edit channel).id = channel.id)
    (channels : List ChannelMeta)
    (id other : String) :
    (editFirst id edit channels).find? (fun channel => channel.id == other) =
      if other = id then (channels.find? fun channel => channel.id == other).map edit
      else channels.find? fun channel => channel.id == other := by
  induction channels with
  | nil => simp [editFirst]
  | cons channel channels inductionHypothesis =>
      unfold editFirst
      by_cases isEdited : channel.id = id
      · rw [if_pos isEdited, List.find?_cons, List.find?_cons, keepsId, isEdited]
        by_cases isOther : other = id
        · rw [isOther, beq_self_eq_true, if_pos rfl]
          rfl
        · rw [if_neg isOther, beq_false_of_ne (Ne.symm isOther)]
      · rw [if_neg isEdited, List.find?_cons, List.find?_cons, inductionHypothesis]
        by_cases isFound : channel.id = other
        · have notEdited : ¬other = id := fun isOther => isEdited (isFound.trans isOther)
          rw [isFound, beq_self_eq_true, if_neg notEdited, if_neg notEdited]
        · rw [beq_false_of_ne isFound]

/-- An edit of another channel leaves a channel as it is. -/
theorem slot_foldMetaInto_of_ne
    {taken : MetaStore}
    (isTaken : store.foldMetaInto update = some taken)
    (isOther : update.channelId ≠ id) :
    taken.slot id = store.slot id := by
  unfold MetaStore.foldMetaInto at isTaken
  cases isFound : store.find update.channelId with
  | none => rw [isFound] at isTaken; cases isTaken
  | some channel =>
      rw [isFound] at isTaken
      dsimp only at isTaken
      split at isTaken
      · cases isTaken
      · cases isTaken
        unfold MetaStore.slot MetaStore.find
        dsimp only
        rw [find_editFirst update.apply (fun channel => rfl), if_neg isOther.symm,
          Function.update_of_ne isOther.symm]

/-- An edit is folded into the record of its channel. -/
theorem slot_foldMetaInto
    (store : MetaStore)
    (update : MetaUpdate) :
    (store.foldMetaInto update).map (fun taken => taken.slot update.channelId) =
      (store.slot update.channelId).fold update.toPatch := by
  unfold MetaStore.foldMetaInto Slot.fold
  cases isFound : store.find update.channelId with
  | none =>
      unfold MetaStore.slot
      rw [isFound]
      rfl
  | some channel =>
      have isBase : (store.slot update.channelId).base = some channel.toBase := by
        unfold MetaStore.slot
        rw [isFound, Option.map_some]
      rw [isBase]
      dsimp only
      change Option.map _ (if update.createdAt < _ then none else _) =
        if update.createdAt < _ then none else _
      have sameBaseline : (store.slot update.channelId).latest.getD channel.toBase.stamp =
          (store.metaUpdatedAt update.channelId).getD channel.createdAt := rfl
      rw [sameBaseline]
      split
      · rfl
      · rw [Option.map_some, Option.some.injEq]
        have isEdited : (editFirst update.channelId update.apply store.channels).find?
            (fun channel => channel.id == update.channelId) = some (update.apply channel) := by
          rw [find_editFirst update.apply (fun channel => rfl), if_pos rfl]
          exact congrArg (Option.map update.apply) isFound
        unfold MetaStore.slot MetaStore.find
        dsimp only
        rw [isEdited, Function.update_self, Option.map_some, toBase_apply]
        rfl

theorem find_eq_none_iff
    (store : MetaStore)
    (id : String) :
    store.find id = none ↔ store.channels.any (fun channel => channel.id == id) = false := by
  unfold MetaStore.find
  rw [List.find?_eq_none, List.any_eq_false]

theorem slot_bufferPendingMeta
    (store : MetaStore)
    (update : MetaUpdate) :
    (store.bufferPendingMeta update).slot update.channelId =
      (store.slot update.channelId).buffer update.toPatch := by
  unfold MetaStore.bufferPendingMeta Slot.buffer
  cases isPending : store.pendingMeta update.channelId with
  | none =>
      unfold MetaStore.slot MetaStore.find
      dsimp only
      rw [isPending, Function.update_self]
      rfl
  | some existing =>
      have slotPending : (store.slot update.channelId).pending = some existing.toPatch := by
        unfold MetaStore.slot
        rw [isPending, Option.map_some]
      rw [slotPending]
      dsimp only
      change MetaStore.slot (if existing.createdAt ≥ update.createdAt then _ else _) _ =
        if existing.createdAt ≥ update.createdAt then _ else _
      split
      · rfl
      · unfold MetaStore.slot MetaStore.find
        dsimp only
        rw [Function.update_self]
        rfl

theorem slot_bufferPendingMeta_of_ne
    (isOther : update.channelId ≠ id) :
    (store.bufferPendingMeta update).slot id = store.slot id := by
  have keeps : MetaStore.slot { store with
      pendingMeta := Function.update store.pendingMeta update.channelId (some update) } id =
      store.slot id := by
    unfold MetaStore.slot MetaStore.find
    dsimp only
    rw [Function.update_of_ne isOther.symm]
  unfold MetaStore.bufferPendingMeta
  split
  · split
    · rfl
    · exact keeps
  · exact keeps

/-- An edit that comes is taken or kept by the record of its channel, and by no other. -/
theorem slot_edit
    (store : MetaStore)
    (update : MetaUpdate)
    (id : String) :
    (store.edit update).slot id =
      if update.channelId = id then (store.slot id).next (.patch update.toPatch)
      else store.slot id := by
  unfold MetaStore.edit
  by_cases isChannel : update.channelId = id
  · rw [if_pos isChannel, ← isChannel]
    change _ = ((store.slot update.channelId).fold update.toPatch).getD _
    rw [← slot_foldMetaInto, ← slot_bufferPendingMeta]
    cases store.foldMetaInto update <;> rfl
  · rw [if_neg isChannel]
    cases isTaken : store.foldMetaInto update with
    | none => exact slot_bufferPendingMeta_of_ne isChannel
    | some taken => exact slot_foldMetaInto_of_ne isTaken isChannel

theorem slot_insertChannel
    (isNew : store.find channel.id = none) :
    (store.insertChannel channel).slot channel.id =
      { store.slot channel.id with base := some channel.toBase, pending := none } := by
  have isFound : (store.insertChannel channel).find channel.id = some channel := by
    unfold MetaStore.find at isNew
    unfold MetaStore.find MetaStore.insertChannel
    rw [List.find?_append, isNew, Option.none_or, List.find?_singleton, if_pos (beq_self_eq_true _)]
  unfold MetaStore.slot
  rw [isFound]
  unfold MetaStore.insertChannel
  dsimp only
  rw [Function.update_self]
  rfl

theorem slot_insertChannel_of_ne
    (isOther : channel.id ≠ id) :
    (store.insertChannel channel).slot id = store.slot id := by
  unfold MetaStore.slot MetaStore.find MetaStore.insertChannel
  dsimp only
  rw [Function.update_of_ne isOther.symm, List.find?_append, List.find?_singleton,
    beq_false_of_ne isOther, if_neg Bool.false_ne_true, Option.or_none]

/-- A creation makes the record of its channel, and no other. -/
theorem slot_create
    (filed : store.Filed)
    (channel : ChannelMeta)
    (id : String) :
    (store.create channel).slot id =
      if channel.id = id then (store.slot id).next (.base channel.toBase) else store.slot id := by
  unfold MetaStore.create
  cases isFound : store.find channel.id with
  | some known =>
      have isKnown : (store.channels.any fun known => known.id == channel.id) = true := by
        rw [← Bool.not_eq_false, ← find_eq_none_iff, isFound]
        exact Option.some_ne_none known
      have isHeld : (store.slot channel.id).base = some known.toBase := by
        unfold MetaStore.slot
        rw [isFound, Option.map_some]
      rw [if_pos isKnown]
      split
      · rename_i isChannel
        rw [← isChannel, @Lib.next_of_created _ _ channel.toBase _ known.toBase isHeld]
      · rfl
  | none =>
      rw [(find_eq_none_iff store channel.id).mp isFound, if_neg Bool.false_ne_true]
      have isBorn : (store.insertChannel channel).slot channel.id =
          { store.slot channel.id with base := some channel.toBase, pending := none } :=
        slot_insertChannel isFound
      have unborn : (store.slot channel.id).base = none := by
        unfold MetaStore.slot
        rw [isFound, Option.map_none]
      cases isPending : store.pendingMeta channel.id with
      | none =>
          have noneWaits : (store.slot channel.id).pending = none := by
            unfold MetaStore.slot
            rw [isPending, Option.map_none]
          dsimp only
          split
          · rename_i isChannel
            rw [← isChannel, isBorn]
            unfold Slot.next
            rw [unborn, noneWaits]
          · rename_i isOther
            exact slot_insertChannel_of_ne isOther
      | some update =>
          have waits : (store.slot channel.id).pending = some update.toPatch := by
            unfold MetaStore.slot
            rw [isPending, Option.map_some]
          have isFiled : update.channelId = channel.id := filed channel.id update isPending
          dsimp only
          split
          · rename_i isChannel
            have isFolded := slot_foldMetaInto (store.insertChannel channel) update
            rw [isFiled, isBorn] at isFolded
            rw [← isChannel]
            unfold Slot.next
            rw [unborn, waits]
            dsimp only
            rw [← isFolded, ← isBorn]
            cases (store.insertChannel channel).foldMetaInto update <;> rfl
          · rename_i isOther
            have otherPatch : update.channelId ≠ id := fun same => isOther (isFiled.symm.trans same)
            cases isTaken : (store.insertChannel channel).foldMetaInto update with
            | none => exact slot_insertChannel_of_ne isOther
            | some taken =>
                exact (slot_foldMetaInto_of_ne isTaken otherPatch).trans
                  (slot_insertChannel_of_ne isOther)

/-- An event acts on the record of each channel by what it is to that channel. -/
theorem slot_onEvent
    (filed : store.Filed)
    (event : NostrEvent)
    (id : String) :
    (store.onEvent json event).slot id = (store.slot id).step (part json id) event := by
  unfold MetaStore.onEvent Slot.step part
  split
  · rw [slot_create filed]
    change (if event.id = id then _ else _) = _
    split <;> rfl
  · split
    · cases parseMetaUpdate json event with
      | none => rfl
      | some update =>
          dsimp only
          rw [slot_edit]
          split
          · rename_i isChannel
            rw [Option.filter_some, if_pos (decide_eq_true isChannel)]
            rfl
          · rename_i isOther
            rw [Option.filter_some, if_neg (mt of_decide_eq_true isOther)]
            rfl
    · rfl

/-! ## Where edits wait -/

theorem foldMetaInto_pendingMeta
    {taken : MetaStore}
    (isTaken : store.foldMetaInto update = some taken) :
    taken.pendingMeta = store.pendingMeta := by
  unfold MetaStore.foldMetaInto at isTaken
  split at isTaken
  · cases isTaken
  · split at isTaken
    · cases isTaken
    · cases isTaken
      rfl

theorem filed_getD
    {otherwise : MetaStore}
    (filed : store.Filed)
    (otherwiseFiled : otherwise.Filed) :
    ((store.foldMetaInto update).getD otherwise).Filed := by
  cases isTaken : store.foldMetaInto update with
  | none => exact otherwiseFiled
  | some taken =>
      rw [Option.getD_some]
      unfold MetaStore.Filed
      rw [foldMetaInto_pendingMeta isTaken]
      exact filed

theorem filed_update
    (filed : store.Filed)
    (waiting : Option MetaUpdate)
    (isFiled : ∀ update, waiting = some update → update.channelId = id)
    (channels : List ChannelMeta) :
    MetaStore.Filed ⟨channels, store.metaUpdatedAt,
      Function.update store.pendingMeta id waiting⟩ := by
  intro other update waits
  dsimp only at waits
  by_cases isSame : other = id
  · rw [isSame, Function.update_self] at waits
    exact (isFiled update waits).trans isSame.symm
  · rw [Function.update_of_ne isSame] at waits
    exact filed other update waits

theorem filed_onEvent
    (filed : store.Filed)
    (event : NostrEvent) :
    (store.onEvent json event).Filed := by
  unfold MetaStore.onEvent
  split
  · unfold MetaStore.create
    have inserted : (store.insertChannel (createdChannel json event)).Filed :=
      filed_update filed none (fun update isSome => by cases isSome) _
    split
    · exact filed
    · split
      · exact filed_getD inserted inserted
      · exact inserted
  · split
    · split
      · rename_i update isEdit
        refine filed_getD filed ?_
        have buffered := filed_update filed (some update)
          (fun other isUpdate => congrArg MetaUpdate.channelId (Option.some.inj isUpdate).symm)
          store.channels
        unfold MetaStore.bufferPendingMeta
        split
        · split
          · exact filed
          · exact buffered
        · exact buffered
      · exact filed
    · exact filed

theorem slot_after
    (json : JsonParser)
    (order : List NostrEvent)
    (id : String) :
    (MetaStore.after json order).slot id = Slot.after (part json id) order := by
  have run : ∀ store : MetaStore, store.Filed →
      (order.foldl (MetaStore.onEvent json) store).slot id =
        order.foldl (Slot.step (part json id)) (store.slot id) := by
    induction order with
    | nil => exact fun store filed => rfl
    | cons event order inductionHypothesis =>
        intro store filed
        rw [List.foldl_cons, List.foldl_cons, inductionHypothesis _ (filed_onEvent filed event),
          slot_onEvent filed]
  exact run MetaStore.empty fun id update waits => by cases waits

theorem held_after
    (json : JsonParser)
    (order : List NostrEvent)
    (id : String) :
    (MetaStore.after json order).held id = (Slot.after (part json id) order).values := by
  rw [← slot_after]
  unfold Slot.values MetaStore.slot MetaStore.held
  rw [Option.map_map]
  rfl

end Slots

/-! ## Metadata in any order -/

/-- In every order and with any repetition of the events each channel ends with the same name,
description and picture, each that of the newest edit that carries it, exactly when the newest
edits of each channel decide. -/
theorem metadata_settles_iff
    (json : JsonParser)
    (inputs : List NostrEvent) :
    (∀ id,
        (∀ order other, Lib.SameInputs order inputs → Lib.SameInputs other inputs →
          (MetaStore.after json order).held id = (MetaStore.after json other).held id) ∧
        ∀ order, Lib.SameInputs order inputs →
          ∀ base, Lib.HasBase (part json id) {event | event ∈ inputs} base →
            ∃ values, (MetaStore.after json order).held id = some values ∧
              ∀ field, Lib.Current (part json id) {event | event ∈ inputs} base field
                (values field)) ↔
      ∀ id, Lib.NewestDecide (part json id) {event | event ∈ inputs} := by
  refine forall_congr' fun id => ?_
  rw [← Lib.newestDecide_iff]
  simp only [held_after]

namespace Sample

def json : JsonParser where
  parse content :=
    if content = "\x7b\"name\":\"Den\"\x7d" then some (.object [("name", .string "Den")])
    else if content = "\x7b\"about\":\"Old\"\x7d" then some (.object [("about", .string "Old")])
    else none

/-- An event of the channel "c1". -/
def event (id : String) (kind createdAt : Nat) (content : String) : NostrEvent where
  id := id
  pubkey := "admin"
  createdAt := createdAt
  kind := kind
  tags := if kind = 40 then [] else [["e", "c1"]]
  content := content
  sig := ""

def creation : NostrEvent :=
  event "c1" 40 1 "\x7b\"name\":\"Den\"\x7d"

def describe : NostrEvent :=
  event "e1" 41 5 "\x7b\"about\":\"Old\"\x7d"

def rename : NostrEvent :=
  event "e2" 41 10 "\x7b\"name\":\"Den\"\x7d"

end Sample

/-- A description that comes after a later rename is not taken. -/
theorem description_lost :
    ((MetaStore.after Sample.json [Sample.creation, Sample.describe, Sample.rename]).held
        "c1").map (fun values => values .description) = some "Old" ∧
      ((MetaStore.after Sample.json [Sample.creation, Sample.rename, Sample.describe]).held
        "c1").map (fun values => values .description) = some "" := by
  decide

end Metadata
end Client
end NostrBbs
