import NostrBbs.Lib.Table
import NostrBbs.Relay.Event
import NostrBbs.ZoneMigrate.Envelope

/-!
# The migration's state file and plan

The state file has one entry for each plaintext original: its channel and zone, where it
stands and, once sealed, the envelope that was published for it.  The file's relay and
migrator are checked before a step begins and left out here.  A channel's messages are of
four kinds: envelopes, zone-encrypted posts, plaintext originals, and plaintext whose id
or signature does not verify, which is never sealed.
-/

namespace NostrBbs
namespace ZoneMigrate

/-! ## The migration's state file -/

section

/-- The step that produced a failed entry. -/
inductive Step where
  | seal | verify | purge
deriving DecidableEq, Repr

/-- Where an original stands. -/
inductive Status where
  | planned | sealed | verified | purged
  | failed (step : Step) (reason : String)
deriving DecidableEq, Repr

/-- Short label. -/
def Status.label : Status → String
  | planned => "planned"
  | sealed => "sealed"
  | verified => "verified"
  | purged => "purged"
  | failed .. => "failed"

/-- One original's record. -/
structure Entry where
  channel : String
  zone : String
  createdAt : Nat
  status : Status
  epoch : Option Nat
  outerId : Option String
  innerSha256 : Option String
deriving DecidableEq, Repr

/-- A fresh entry. -/
def Entry.planned (channel zone : String) (createdAt : Nat) : Entry where
  channel := channel
  zone := zone
  createdAt := createdAt
  status := .planned
  epoch := none
  outerId := none
  innerSha256 := none

/-- The entries by original id. -/
abbrev Entries := Lib.Table (String × Entry) Prod.fst

/-- The state file. -/
structure State where
  entries : Entries

namespace State

/-- A file without entries. -/
def new : State :=
  ⟨Lib.Table.empty⟩

/-- The entry of an original. -/
def entry (state : State) (id : String) : Option Entry :=
  (state.entries.find? id).map Prod.snd

/-- Counts by status. -/
structure Counts where
  total : Nat
  planned : Nat
  sealed : Nat
  verified : Nat
  purged : Nat
  failed : Nat
deriving DecidableEq, Repr

def counts (state : State) : Counts :=
  let labelled (label : String) := state.entries.countWhere fun row => row.2.status.label == label
  { total := state.entries.rows.length
    planned := labelled "planned"
    sealed := labelled "sealed"
    verified := labelled "verified"
    purged := labelled "purged"
    failed := labelled "failed" }

/-- The ids of the entries that a condition names, in the order of the file. -/
def idsWhere (state : State) (condition : Entry → Bool) : List String :=
  ((state.entries.rows.filter fun row => condition row.2).map Prod.fst).insertionSort (· ≤ ·)

/-- The entry of an original changed in place. -/
def modify (state : State) (id : String) (change : Entry → Entry) : State where
  entries := state.entries.updateWhere (fun row => row.1 == id)
    (fun row => (row.1, change row.2)) fun _ => rfl

/-- An entry recorded for an original that has none. -/
def record (state : State) (id : String) (entry : Entry) : State :=
  match state.entries.insert (id, entry) with
  | some entries => ⟨entries⟩
  | none => state

variable {state : State} {id other : String} {change : Entry → Entry} {condition : Entry → Bool}

theorem entry_modify
    (state : State)
    (id other : String)
    (change : Entry → Entry) :
    (state.modify id change).entry other =
      if other = id then (state.entry other).map change else state.entry other := by
  unfold entry modify
  rw [Lib.Table.find?_updateWhere]
  cases found : state.entries.find? other with
  | none => simp
  | some row =>
      have isOther := (Lib.Table.find?_eq_some_iff.mp found).2
      rw [Option.map_some, Option.map_some, beq_eq_decide, isOther]
      by_cases same : other = id <;> simp [same]

@[simp] theorem entry_modify_self
    (state : State)
    (id : String)
    (change : Entry → Entry) :
    (state.modify id change).entry id = (state.entry id).map change := by
  rw [entry_modify, if_pos rfl]

theorem entry_modify_ne
    (different : other ≠ id) :
    (state.modify id change).entry other = state.entry other := by
  rw [entry_modify, if_neg different]

/-- A new entry is recorded where there was none, and every other stays. -/
theorem entry_record
    (state : State)
    (id other : String)
    (entry : Entry) :
    (state.record id entry).entry other =
      if other = id ∧ state.entry id = none then some entry else state.entry other := by
  unfold record
  split
  · rename_i entries inserted
    have fresh := (Lib.Table.insert_eq_some inserted).1
    have absent : state.entry id = none := by
      unfold State.entry
      rw [Lib.Table.find?_eq_none_iff.mpr fresh, Option.map_none]
    unfold State.entry at absent ⊢
    rw [Lib.Table.find?_of_insert inserted]
    by_cases same : other = id
    · rw [if_pos same.symm, if_pos ⟨same, absent⟩]
      rfl
    · rw [if_neg (Ne.symm same), if_neg fun both => same both.1]
  · rename_i refused
    have held := Lib.Table.insert_eq_none_iff.mp refused
    have present : state.entry id ≠ none := by
      unfold State.entry
      rw [ne_eq, Option.map_eq_none_iff, Lib.Table.find?_eq_none_iff, not_not]
      exact held
    rw [if_neg fun both => present both.2]

theorem mem_idsWhere :
    id ∈ state.idsWhere condition ↔ ∃ entry, state.entry id = some entry ∧ condition entry := by
  unfold idsWhere State.entry
  simp only [List.mem_insertionSort, List.mem_map, List.mem_filter, Option.map_eq_some_iff,
    Lib.Table.find?_eq_some_iff]
  constructor
  · rintro ⟨row, ⟨held, named⟩, rfl⟩
    exact ⟨row.2, ⟨row, ⟨held, rfl⟩, rfl⟩, named⟩
  · rintro ⟨entry, ⟨row, ⟨held, isId⟩, rfl⟩, named⟩
    exact ⟨row, ⟨held, named⟩, isId⟩

theorem nodup_idsWhere (state : State) (condition : Entry → Bool) :
    (state.idsWhere condition).Nodup := by
  unfold idsWhere
  rw [(List.perm_insertionSort _ _).nodup_iff]
  exact state.entries.distinct.sublist (List.filter_sublist.map _)

end State

end

/-! ## What a channel holds -/

section

open Relay (NostrEvent)

/-- One channel to migrate and the zone whose key seals it. -/
structure ChannelSpec where
  id : String
  zone : String
deriving DecidableEq, Repr

/-- A plaintext original, with the envelopes that claim to wrap it. -/
structure Candidate where
  original : NostrEvent
  envelopes : List NostrEvent
deriving DecidableEq, Repr

structure ChannelPlan where
  channel : String
  zone : String
  sealEpoch : Option Nat
  plaintext : Nat
  alreadySealed : Nat
  wouldSeal : List String
  invalidSignature : List String
  encryptedPosts : Nat
  envelopes : Nat
deriving DecidableEq, Repr

/-- The planner's result for one channel; an envelope stands by the id in its
`sealed` tag. -/
structure ChannelScan where
  plan : ChannelPlan
  candidates : List Candidate
  envelopesByInner : List (String × NostrEvent)
deriving DecidableEq, Repr

/-- The envelopes of an original. -/
def ChannelScan.envelopesOf (scan : ChannelScan) (inner : String) : List NostrEvent :=
  (scan.envelopesByInner.filter fun entry => entry.1 == inner).map Prod.snd

/-- Oldest first, ties by id. -/
def older (first second : NostrEvent) : Prop :=
  first.createdAt < second.createdAt ∨
    first.createdAt = second.createdAt ∧ first.id ≤ second.id

instance : DecidableRel older :=
  fun _ _ => inferInstanceAs (Decidable (_ ∨ _))

/-- A message of the channel. -/
def ChannelSpec.holds (spec : ChannelSpec) (event : NostrEvent) : Bool :=
  event.kind == 42 && channelOf event == some spec.id

/-- The events of a channel, classified. -/
def Crypto.scanChannel (crypto : Crypto) (spec : ChannelSpec) (events : List NostrEvent)
    (keys : KeyRing) : ChannelScan :=
  let messages := events.filter spec.holds
  let envelopes := messages.filter fun event => Relay.hasSealedTag event.tags
  let unsealed := messages.filter fun event => !Relay.hasSealedTag event.tags
  let plaintext := unsealed.filter fun event => !Relay.hasZkTag event.tags
  let originals := (plaintext.filter crypto.verifyEvent).insertionSort older
  let byInner := envelopes.filterMap fun event =>
    (Relay.parseSealed event.tags).map fun ref => (ref.innerId, event)
  let candidates := originals.map fun original =>
    ⟨original, (byInner.filter fun entry => entry.1 == original.id).map Prod.snd⟩
  { plan :=
      { channel := spec.id
        zone := spec.zone
        sealEpoch := (keys.current spec.zone).map ZoneKey.epoch
        plaintext := candidates.length
        alreadySealed := candidates.countP fun candidate => !candidate.envelopes.isEmpty
        wouldSeal := (candidates.filter fun candidate => candidate.envelopes.isEmpty).map
          fun candidate => candidate.original.id
        invalidSignature := ((plaintext.filter fun event => !crypto.verifyEvent event).map
          NostrEvent.id).insertionSort (· ≤ ·)
        encryptedPosts := unsealed.countP fun event => Relay.hasZkTag event.tags
        envelopes := envelopes.length }
    candidates := candidates
    envelopesByInner := byInner }

section

variable {crypto : Crypto} {spec : ChannelSpec} {events : List NostrEvent} {keys : KeyRing}

/-- An envelope of an original is a message of the channel. -/
theorem envelope_of_scanChannel
    {inner : String}
    {outer : NostrEvent}
    (isEnvelope : outer ∈ (crypto.scanChannel spec events keys).envelopesOf inner) :
    outer ∈ events ∧ channelOf outer = some spec.id := by
  obtain ⟨entry, found, rfl⟩ := List.mem_map.mp isEnvelope
  obtain ⟨event, isMessage, isEntry⟩ := List.mem_filterMap.mp (List.mem_of_mem_filter found)
  obtain ⟨ref, -, rfl⟩ := Option.map_eq_some_iff.mp isEntry
  simp only [List.mem_filter, ChannelSpec.holds, Bool.and_eq_true, beq_iff_eq] at isMessage
  exact ⟨isMessage.1.1, isMessage.1.2.2⟩

end

end

end ZoneMigrate
end NostrBbs
