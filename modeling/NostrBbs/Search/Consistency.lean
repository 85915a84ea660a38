import NostrBbs.Search.Index

/-!
# Consistency of the search index

Whatever ingests run one after the other, each id has a label of its own with a vector of
its own under it, and a retracted vector is not found.  It stays so where ingests overlap,
as long as each writes over what it loaded.
-/

namespace NostrBbs
namespace Search

open Lib (Pool Program)

/-! ## Both objects together -/

section Sound

variable {Value : Type} {belongs : String → List Value → Prop} {mapping : Mapping}
  {loaded : Loaded Value}

/-- Labels are distinct and below the next one, and no other label is public. -/
structure Mapping.Sound (mapping : Mapping) : Prop where
  bounded : ∀ pair ∈ mapping.idToLabel.rows, pair.2 < mapping.next
  distinct : ∀ pair ∈ mapping.idToLabel.rows, ∀ other ∈ mapping.idToLabel.rows,
    pair.2 = other.2 → pair = other
  named : ∀ label ∈ mapping.publicLabels, ∃ pair ∈ mapping.idToLabel.rows, pair.2 = label

/-- Under the label of a pair is a vector that belongs to its id. -/
def Loaded.Holds (belongs : String → List Value → Prop) (loaded : Loaded Value)
    (pair : String × Nat) : Prop :=
  ∃ embedding, loaded.store.find? pair.2 = some (pair.2, embedding) ∧ belongs pair.1 embedding

/-- The mapping is sound, and every label has a vector of its id. -/
structure Loaded.Sound (belongs : String → List Value → Prop) (loaded : Loaded Value) :
    Prop where
  mapping : loaded.mapping.Sound
  vectors : ∀ pair ∈ loaded.mapping.idToLabel.rows, loaded.Holds belongs pair

/-- With a label for an id, a mapping holds the pairs it held and that of the id. -/
theorem Mapping.mem_withLabel
    {mapping : Mapping}
    {id : String}
    {pair : String × Nat} :
    pair ∈ (mapping.withLabel id).idToLabel.rows ↔
      pair ∈ mapping.idToLabel.rows ∨ pair = (id, mapping.labelFor id) := by
  unfold withLabel labelFor
  cases inserted : mapping.idToLabel.insert (id, mapping.next) with
  | some longer =>
      have fresh := (Lib.Table.insert_eq_some inserted).1
      rw [Lib.Table.find?_eq_none_iff.mpr fresh]
      exact Lib.Table.mem_of_insert inserted
  | none =>
      obtain ⟨held, isHeld, isId⟩ := List.mem_map.mp (Lib.Table.insert_eq_none_iff.mp inserted)
      dsimp only at isId ⊢
      rw [Lib.Table.find?_eq_some_iff.mpr ⟨isHeld, isId⟩]
      constructor
      · exact Or.inl
      · rintro (isPair | rfl)
        · exact isPair
        · rw [← isId]
          exact isHeld

theorem Mapping.next_withLabel_le
    (mapping : Mapping)
    (id : String) :
    mapping.next ≤ (mapping.withLabel id).next := by
  unfold withLabel
  split
  · exact Nat.le_succ _
  · exact Nat.le_refl _

@[simp] theorem Mapping.publicLabels_withLabel
    (mapping : Mapping)
    (id : String) :
    (mapping.withLabel id).publicLabels = mapping.publicLabels := by
  unfold withLabel
  split <;> rfl

@[simp] theorem Mapping.idToLabel_declare
    (mapping : Mapping)
    (label : Nat)
    (isPublic : Bool) :
    (mapping.declare label isPublic).idToLabel = mapping.idToLabel :=
  rfl

@[simp] theorem Mapping.next_declare
    (mapping : Mapping)
    (label : Nat)
    (isPublic : Bool) :
    (mapping.declare label isPublic).next = mapping.next :=
  rfl

theorem Mapping.mem_publicLabels_declare
    {mapping : Mapping}
    {label other : Nat}
    {isPublic : Bool} :
    other ∈ (mapping.declare label isPublic).publicLabels ↔
      if other = label then isPublic = true else other ∈ mapping.publicLabels := by
  unfold declare
  dsimp only
  cases isPublic
  · by_cases same : other = label <;> simp [same]
  · by_cases same : other = label <;> simp [same]

/-- The label of an id is below the next one once the id has it. -/
theorem Mapping.Sound.labelFor_lt
    (sound : mapping.Sound)
    (id : String) :
    mapping.labelFor id < (mapping.withLabel id).next := by
  unfold Mapping.labelFor Mapping.withLabel
  cases inserted : mapping.idToLabel.insert (id, mapping.next) with
  | some longer =>
      have fresh := (Lib.Table.insert_eq_some inserted).1
      rw [Lib.Table.find?_eq_none_iff.mpr fresh]
      exact Nat.lt_succ_self _
  | none =>
      obtain ⟨held, isHeld, isId⟩ := List.mem_map.mp (Lib.Table.insert_eq_none_iff.mp inserted)
      dsimp only at isId ⊢
      rw [Lib.Table.find?_eq_some_iff.mpr ⟨isHeld, isId⟩]
      exact sound.bounded held isHeld

/-- Only the pair of an id holds its label. -/
theorem Mapping.Sound.eq_of_label
    (sound : mapping.Sound)
    {id : String}
    {pair : String × Nat}
    (held : pair ∈ mapping.idToLabel.rows)
    (isLabel : pair.2 = mapping.labelFor id) :
    pair.1 = id := by
  unfold Mapping.labelFor at isLabel
  cases found : mapping.idToLabel.find? id with
  | none =>
      rw [found] at isLabel
      exact absurd isLabel (Nat.ne_of_lt (sound.bounded pair held))
  | some other =>
      rw [found] at isLabel
      obtain ⟨isHeld, isId⟩ := Lib.Table.find?_eq_some_iff.mp found
      rw [sound.distinct pair held other isHeld isLabel]
      exact isId

theorem Loaded.mem_accept
    {entry : IngestEntry Value}
    {pair : String × Nat} :
    pair ∈ (loaded.accept entry).mapping.idToLabel.rows ↔
      pair ∈ loaded.mapping.idToLabel.rows ∨ pair = (entry.id, loaded.mapping.labelFor entry.id) :=
  Mapping.mem_withLabel

/-- An entry keeps the mapping sound. -/
theorem Loaded.mapping_accept
    (sound : loaded.mapping.Sound)
    (entry : IngestEntry Value) :
    (loaded.accept entry).mapping.Sound := by
  constructor
  case bounded =>
    intro pair held
    rcases mem_accept.mp held with isOld | rfl
    · exact (sound.bounded pair isOld).trans_le (Mapping.next_withLabel_le _ _)
    · exact sound.labelFor_lt entry.id
  case distinct =>
    intro pair held other otherHeld sameLabel
    rcases mem_accept.mp held with isOld | rfl
    · rcases mem_accept.mp otherHeld with otherOld | rfl
      · exact sound.distinct pair isOld other otherOld sameLabel
      · exact Prod.ext (sound.eq_of_label isOld sameLabel) sameLabel
    · rcases mem_accept.mp otherHeld with otherOld | rfl
      · exact Prod.ext (sound.eq_of_label otherOld sameLabel.symm).symm sameLabel
      · rfl
  case named =>
    intro label isPublic
    by_cases isLabel : label = loaded.mapping.labelFor entry.id
    · exact ⟨_, mem_accept.mpr (.inr rfl), isLabel.symm⟩
    · have before := Mapping.mem_publicLabels_declare.mp isPublic
      rw [if_neg isLabel, Mapping.publicLabels_withLabel] at before
      obtain ⟨pair, held, isNamed⟩ := sound.named label before
      exact ⟨pair, mem_accept.mpr (.inl held), isNamed⟩

/-- Pairs that have a vector keep one, and that of an entry has one. -/
theorem Loaded.holds_accept
    (sound : loaded.mapping.Sound)
    {entry : IngestEntry Value}
    (isOwn : belongs entry.id entry.embedding)
    {pair : String × Nat}
    (held : pair ∈ (loaded.accept entry).mapping.idToLabel.rows)
    (before : pair ∈ loaded.mapping.idToLabel.rows → loaded.Holds belongs pair) :
    (loaded.accept entry).Holds belongs pair := by
  have stored : (loaded.accept entry).store.find? pair.2 =
      if pair.2 = loaded.mapping.labelFor entry.id
        then some (loaded.mapping.labelFor entry.id, entry.embedding)
        else loaded.store.find? pair.2 :=
    VectorStore.find?_insert _ _ _ _
  unfold Holds
  rw [stored]
  rcases mem_accept.mp held with isOld | rfl
  · by_cases isLabel : pair.2 = loaded.mapping.labelFor entry.id
    · rw [if_pos isLabel, sound.eq_of_label isOld isLabel, isLabel]
      exact ⟨entry.embedding, rfl, isOwn⟩
    · rw [if_neg isLabel]
      exact before isOld
  · rw [if_pos rfl]
    exact ⟨entry.embedding, rfl, isOwn⟩

/-- A batch keeps the mapping sound. -/
theorem Loaded.mapping_acceptAll
    (sound : loaded.mapping.Sound)
    (entries : List (IngestEntry Value)) :
    (loaded.acceptAll entries).mapping.Sound := by
  induction entries generalizing loaded with
  | nil => exact sound
  | cons entry entries inductionHypothesis =>
      exact inductionHypothesis (mapping_accept sound entry)

/-- After a batch, pairs that had a vector and those that are new have one. -/
theorem Loaded.holds_acceptAll
    (sound : loaded.mapping.Sound)
    {entries : List (IngestEntry Value)}
    (allOwn : ∀ entry ∈ entries, belongs entry.id entry.embedding)
    {pair : String × Nat}
    (held : pair ∈ (loaded.acceptAll entries).mapping.idToLabel.rows)
    (before : pair ∈ loaded.mapping.idToLabel.rows → loaded.Holds belongs pair) :
    (loaded.acceptAll entries).Holds belongs pair := by
  induction entries generalizing loaded with
  | nil => exact before held
  | cons entry entries inductionHypothesis =>
      apply inductionHypothesis (mapping_accept sound entry)
        (fun other member => allOwn other (List.mem_cons_of_mem _ member)) held
      intro accepted
      exact holds_accept sound (allOwn entry List.mem_cons_self) accepted before

/-- A batch keeps both objects sound. -/
theorem Loaded.Sound.acceptAll
    (sound : loaded.Sound belongs)
    {entries : List (IngestEntry Value)}
    (allOwn : ∀ entry ∈ entries, belongs entry.id entry.embedding) :
    (loaded.acceptAll entries).Sound belongs where
  mapping := mapping_acceptAll sound.mapping entries
  vectors pair held := holds_acceptAll sound.mapping allOwn held (sound.vectors pair)

/-- A batch keeps the pairs that there were. -/
theorem Loaded.mem_acceptAll
    {entries : List (IngestEntry Value)}
    {pair : String × Nat}
    (held : pair ∈ loaded.mapping.idToLabel.rows) :
    pair ∈ (loaded.acceptAll entries).mapping.idToLabel.rows := by
  induction entries generalizing loaded with
  | nil => exact held
  | cons entry entries inductionHypothesis =>
      exact inductionHypothesis (Mapping.mem_withLabel.mpr (.inl held))

/-- The vectors of a batch are sound under the mapping of before as well. -/
theorem Loaded.Sound.storeFirst
    (sound : loaded.Sound belongs)
    {entries : List (IngestEntry Value)}
    (allOwn : ∀ entry ∈ entries, belongs entry.id entry.embedding) :
    (Loaded.mk (loaded.acceptAll entries).store loaded.mapping).Sound belongs where
  mapping := sound.mapping
  vectors pair held := (sound.acceptAll allOwn).vectors pair (mem_acceptAll held)

/-- When the vectors of a batch are sound under the mapping of before, they are under the one
that the batch makes. -/
theorem Loaded.Sound.mappingSecond
    {entries : List (IngestEntry Value)}
    (sound : (Loaded.mk (loaded.acceptAll entries).store loaded.mapping).Sound belongs)
    (allOwn : ∀ entry ∈ entries, belongs entry.id entry.embedding) :
    (loaded.acceptAll entries).Sound belongs := by
  have mappingSound : loaded.mapping.Sound := sound.mapping
  refine ⟨mapping_acceptAll mappingSound entries, ?_⟩
  intro pair held
  by_cases isOld : pair ∈ loaded.mapping.idToLabel.rows
  · exact sound.vectors pair isOld
  · exact holds_acceptAll mappingSound allOwn held fun old => absurd old isOld

theorem Loaded.Sound.mono
    {wider : String → List Value → Prop}
    (sound : loaded.Sound belongs)
    (implies : ∀ id embedding, belongs id embedding → wider id embedding) :
    loaded.Sound wider where
  mapping := sound.mapping
  vectors pair held := by
    obtain ⟨embedding, found, isOwn⟩ := sound.vectors pair held
    exact ⟨embedding, found, implies _ _ isOwn⟩

end Sound

/-! ## Declarations -/

section Declares

variable {Value : Type} {loaded : Loaded Value} {completed : List (IngestEntry Value)}

/-- A mapping has a label for each id of the completed entries, and does not show those that
were last declared not to be public. -/
structure Declares (completed : List (IngestEntry Value)) (mapping : Mapping) : Prop where
  labelled : ∀ entry ∈ completed, ∃ label, (entry.id, label) ∈ mapping.idToLabel.rows
  hidden : ∀ pair ∈ mapping.idToLabel.rows, lastDeclared completed pair.1 = some false →
    pair.2 ∉ mapping.publicLabels

theorem Declares.accept
    (declares : Declares completed loaded.mapping)
    (sound : loaded.mapping.Sound)
    (entry : IngestEntry Value) :
    Declares (completed ++ [entry]) (loaded.accept entry).mapping := by
  constructor
  case labelled =>
    intro other member
    rcases List.mem_append.mp member with isOld | isNew
    · obtain ⟨label, held⟩ := declares.labelled other isOld
      exact ⟨label, Loaded.mem_accept.mpr (.inl held)⟩
    · rw [List.mem_singleton.mp isNew]
      exact ⟨_, Loaded.mem_accept.mpr (.inr rfl)⟩
  case hidden =>
    intro pair held isHidden isPublic
    have before := Mapping.mem_publicLabels_declare.mp isPublic
    rw [Mapping.publicLabels_withLabel] at before
    rw [lastDeclared_concat] at isHidden
    by_cases isLabel : pair.2 = loaded.mapping.labelFor entry.id
    · rw [if_pos isLabel] at before
      have isId : entry.id = pair.1 := by
        rcases Loaded.mem_accept.mp held with isOld | rfl
        · exact (sound.eq_of_label isOld isLabel).symm
        · rfl
      rw [if_pos isId, before] at isHidden
      cases isHidden
    · rw [if_neg isLabel] at before
      rcases Loaded.mem_accept.mp held with isOld | rfl
      · have isOther : entry.id ≠ pair.1 := by
          intro isId
          apply isLabel
          unfold Mapping.labelFor
          rw [isId, Lib.Table.find?_of_mem isOld]
          rfl
        rw [if_neg isOther] at isHidden
        exact declares.hidden pair isOld isHidden before
      · exact isLabel rfl

theorem Declares.acceptAll
    (declares : Declares completed loaded.mapping)
    (sound : loaded.mapping.Sound)
    (entries : List (IngestEntry Value)) :
    Declares (completed ++ entries) (loaded.acceptAll entries).mapping := by
  induction entries generalizing loaded completed with
  | nil =>
      rw [List.append_nil]
      exact declares
  | cons entry entries inductionHypothesis =>
      rw [List.append_cons]
      exact inductionHypothesis (declares.accept sound entry) (Loaded.mapping_accept sound entry)

end Declares

/-! ## Ingests that overlap -/

section Overlap

variable {Value : Type}

abbrev IndexEvent (Value : Type) := Lib.Event (IndexOp Value) Bool IndexOp.Answer

abbrev IndexPool (Value : Type) :=
  Pool (IndexState Value) (IngestRequest Value) (IndexOp Value) Bool IndexOp.Answer IngestResponse

/-- What a request wrote, once it has loaded both objects. -/
def changed (request : IngestRequest Value) (store : VectorStore Value) (mapping : Mapping) :
    Loaded Value :=
  (Loaded.mk store mapping).acceptAll request.valid

/-- An ingest writes what it makes of the objects that it loaded. -/
def WritesLoaded (request : IngestRequest Value) (past : List (IndexEvent Value)) :
    IndexOp Value → Prop
  | .loadStore => True
  | .loadMapping => True
  | .putStore store => ∃ loadedStore loadedMapping,
      (∃ choice, ⟨.loadStore, choice, some loadedStore⟩ ∈ past) ∧
      (∃ choice, ⟨.loadMapping, choice, some loadedMapping⟩ ∈ past) ∧
      store = (changed request loadedStore loadedMapping).store
  | .putMapping mapping entries => ∃ loadedStore loadedMapping model,
      (∃ choice, ⟨.loadMapping, choice, some loadedMapping⟩ ∈ past) ∧
      (∃ choice, ⟨.putStore (changed request loadedStore loadedMapping).store, choice, true⟩ ∈
        past) ∧
      mapping = { (changed request loadedStore loadedMapping).mapping with model := model } ∧
      entries = request.valid

theorem handleIngest_writesLoaded
    (activeModel : String)
    (request : IngestRequest Value) :
    (handleIngest activeModel request).Follows (WritesLoaded request) [] := by
  unfold handleIngest
  split
  · exact Program.follows_done _
  · refine Program.follows_call trivial ?_
    rintro storeChoice (_ | store)
    · exact Program.follows_done _
    · refine Program.follows_call trivial ?_
      rintro mappingChoice (_ | mapping)
      · exact Program.follows_done _
      · dsimp only
        split
        · exact Program.follows_done _
        · split
          · exact Program.follows_done _
          · refine Program.follows_call ?_ ?_
            · exact ⟨store, mapping, ⟨storeChoice, by simp⟩, ⟨mappingChoice, by simp⟩, rfl⟩
            · rintro writeChoice (_ | _)
              · exact Program.follows_done _
              · refine Program.follows_call ?_ ?_
                · exact ⟨store, mapping, _, ⟨mappingChoice, by simp⟩,
                    ⟨writeChoice, by simp [changed]⟩, rfl, rfl⟩
                · rintro lastChoice (_ | _)
                  · exact Program.follows_done _
                  · exact Program.follows_done _

/-- What a request loaded or wrote is what is stored. -/
def StillStored (state : IndexState Value) : IndexEvent Value → Prop
  | ⟨.loadStore, _, loaded⟩ => ∀ store ∈ loaded, store = state.storedStore
  | ⟨.loadMapping, _, loaded⟩ => ∀ mapping ∈ loaded, mapping = state.storedMapping
  | ⟨.putStore store, _, written⟩ => written = true → store = state.storedStore
  | ⟨.putMapping _ _, _, _⟩ => True

instance StillStored.decidable [DecidableEq Value] (state : IndexState Value) :
    ∀ event : IndexEvent Value, Decidable (StillStored state event)
  | ⟨.loadStore, _, loaded⟩ =>
      inferInstanceAs
        (Decidable (∀ store ∈ (loaded : Option (VectorStore Value)), store = state.storedStore))
  | ⟨.loadMapping, _, loaded⟩ =>
      inferInstanceAs
        (Decidable (∀ mapping ∈ (loaded : Option Mapping), mapping = state.storedMapping))
  | ⟨.putStore store, _, written⟩ =>
      inferInstanceAs (Decidable ((written : Bool) = true → store = state.storedStore))
  | ⟨.putMapping _ _, _, _⟩ => isTrue trivial

/-- An operation is the read of the vectors. -/
def IndexOp.isLoadStore : IndexOp Value → Bool
  | loadStore => true
  | _ => false

/-- A write goes over what the request has loaded: the vectors over those that it loaded, and
the mapping over the one that it loaded while the vectors are still its own. -/
def WritesOver (state : IndexState Value) (past : List (IndexEvent Value)) (_ : Bool) :
    IndexOp Value → Prop
  | .putStore _ => ∀ event ∈ past, StillStored state event
  | .putMapping _ _ => ∀ event ∈ past, event.op.isLoadStore = false → StillStored state event
  | _ => True

instance WritesOver.decidable [DecidableEq Value] (state : IndexState Value)
    (past : List (IndexEvent Value)) (fails : Bool) :
    ∀ op : IndexOp Value, Decidable (WritesOver state past fails op)
  | .loadStore => isTrue trivial
  | .loadMapping => isTrue trivial
  | .putStore _ => inferInstanceAs (Decidable (∀ event ∈ past, StillStored state event))
  | .putMapping _ _ =>
      inferInstanceAs (Decidable
        (∀ event ∈ past, event.op.isLoadStore = false → StillStored state event))

/-! ## Consistency -/

/-- A vector was sent for an id, in an ingest that was begun. -/
def IngestedFor (pool : IndexPool Value) (id : String) (embedding : List Value) : Prop :=
  ∃ request, pool.Requested request ∧
    ∃ entry ∈ request.valid, entry.id = id ∧ entry.embedding = embedding

/-- No ingest is running. -/
def Quiescent (pool : IndexPool Value) : Prop :=
  ∀ task ∈ pool.tasks, task.rest.isDone

/-- Each indexed id has one label, which names no other and has a vector of the id under it;
and a search shows no id that was last declared not to be public. -/
structure Consistent (pool : IndexPool Value) : Prop where
  labelled : ∀ entry ∈ pool.state.completed,
    ∃! label, (entry.id, label) ∈ pool.state.storedMapping.idToLabel.rows
  distinct : ∀ id other label, (id, label) ∈ pool.state.storedMapping.idToLabel.rows →
    (other, label) ∈ pool.state.storedMapping.idToLabel.rows → id = other
  vectors : ∀ id label, (id, label) ∈ pool.state.storedMapping.idToLabel.rows →
    ∃ embedding, pool.state.storedStore.find? label = some (label, embedding) ∧
      IngestedFor pool id embedding
  hidden : ∀ id, lastDeclared pool.state.completed id = some false →
    ∀ request, id ∉ (handleSearch pool.state request).ids

/-! ## Ingests that write over what they loaded -/

/-- What holds of the stored objects, whether or not an ingest is running. -/
structure Indexed (pool : IndexPool Value) : Prop where
  sound : (Loaded.mk pool.state.storedStore pool.state.storedMapping).Sound (IngestedFor pool)
  declares : Declares pool.state.completed pool.state.storedMapping

theorem Indexed.consistent
    {pool : IndexPool Value}
    (indexed : Indexed pool) :
    Consistent pool := by
  constructor
  case labelled =>
    intro entry isCompleted
    obtain ⟨label, held⟩ := indexed.declares.labelled entry isCompleted
    refine ⟨label, held, ?_⟩
    intro other otherHeld
    have same := pool.state.storedMapping.idToLabel.eq_of_key otherHeld held rfl
    exact congrArg Prod.snd same
  case distinct =>
    intro id other label held otherHeld
    exact congrArg Prod.fst (indexed.sound.mapping.distinct _ held _ otherHeld rfl)
  case vectors =>
    intro id label held
    exact indexed.sound.vectors _ held
  case hidden =>
    intro id isHidden request isShown
    obtain ⟨label, isPublic, isId⟩ := visible_of_mem_handleSearch isShown
    obtain ⟨pair, held, rfl⟩ := indexed.sound.mapping.named label isPublic
    have isPair := Mapping.labelToId_of_mem held
    rw [isId] at isPair
    exact indexed.declares.hidden _ isPair isHidden isPublic

theorem IngestedFor.started
    {pool : IndexPool Value}
    {id : String}
    {embedding : List Value}
    (ingested : IngestedFor pool id embedding)
    (task : Lib.Task (IngestRequest Value) (IndexOp Value) Bool IndexOp.Answer IngestResponse) :
    IngestedFor ⟨pool.state, pool.tasks ++ [task]⟩ id embedding := by
  obtain ⟨request, requested, isEntry⟩ := ingested
  exact ⟨request, requested.started task, isEntry⟩

/-- A write that goes over what its request loaded keeps the stored objects as they should
be. -/
theorem Indexed.answer
    {pool : IndexPool Value}
    {after : IndexPool Value}
    {request : IngestRequest Value}
    {past : List (IndexEvent Value)}
    {fails : Bool}
    {op : IndexOp Value}
    (indexed : Indexed pool)
    (requested : pool.Requested request)
    (kept : ∀ id embedding, IngestedFor pool id embedding → IngestedFor after id embedding)
    (writes : WritesLoaded request past op)
    (current : WritesOver pool.state past fails op)
    (isAfter : after.state = (answerIndex pool.state fails op).1) :
    Indexed after := by
  have own : ∀ entry ∈ request.valid, IngestedFor pool entry.id entry.embedding :=
    fun entry isEntry => ⟨request, requested, entry, isEntry, rfl, rfl⟩
  have unchanged : after.state = pool.state → Indexed after := by
    intro same
    constructor
    · rw [same]
      exact indexed.sound.mono kept
    · rw [same]
      exact indexed.declares
  cases op with
  | loadStore => exact unchanged isAfter
  | loadMapping => exact unchanged isAfter
  | putStore store =>
      cases fails with
      | true => exact unchanged isAfter
      | false =>
          obtain ⟨loadedStore, loadedMapping, ⟨_, isStore⟩, ⟨_, isMapping⟩, rfl⟩ := writes
          have sameStore : loadedStore = pool.state.storedStore := current _ isStore _ rfl
          have sameMapping : loadedMapping = pool.state.storedMapping := current _ isMapping _ rfl
          constructor
          · rw [isAfter, sameStore, sameMapping]
            exact (indexed.sound.storeFirst own).mono kept
          · rw [isAfter]
            exact indexed.declares
  | putMapping mapping entries =>
      cases fails with
      | true => exact unchanged isAfter
      | false =>
          obtain ⟨loadedStore, loadedMapping, model, ⟨_, isMapping⟩, ⟨_, isStore⟩, rfl, rfl⟩ :=
            writes
          have sameStore : (changed request loadedStore loadedMapping).store =
              pool.state.storedStore := current _ isStore rfl rfl
          have sameMapping : loadedMapping = pool.state.storedMapping :=
            current _ isMapping rfl _ rfl
          have sound := indexed.sound
          rw [← sameStore, ← sameMapping] at sound
          have declares := indexed.declares
          rw [← sameMapping] at declares
          have soundAfter := sound.mappingSecond own
          constructor
          · rw [isAfter]
            change (Loaded.mk pool.state.storedStore _).Sound _
            rw [← sameStore]
            exact ⟨⟨soundAfter.mapping.bounded, soundAfter.mapping.distinct,
              soundAfter.mapping.named⟩, (soundAfter.mono kept).vectors⟩
          · rw [isAfter]
            have mappingSound : (Loaded.mk loadedStore loadedMapping).mapping.Sound :=
              sound.mapping
            have declared : Declares (pool.state.completed ++ request.valid)
                ((Loaded.mk loadedStore loadedMapping).acceptAll request.valid).mapping :=
              Declares.acceptAll declares mappingSound request.valid
            exact ⟨declared.labelled, declared.hidden⟩

/-- Ingests keep the stored objects as they should be where they write over what they loaded. -/
theorem indexed_kept
    (activeModel : String) :
    Pool.KeptBy (handleIngest activeModel) answerIndex WritesLoaded WritesOver
      (Indexed : IndexPool Value → Prop) where
  started := by
    intro pool request indexed
    exact ⟨indexed.sound.mono fun _ _ ingested => ingested.started _, indexed.declares⟩
  performed := by
    intro pool index fails task op next indexed found isRest writes current
    refine indexed.answer ⟨task, List.mem_of_getElem? found, rfl⟩ ?_ writes current rfl
    rintro id embedding ⟨request, requested, isEntry⟩
    exact ⟨request, requested.performed found _ _ _, isEntry⟩

/-- On every run of ingests whose writes all go over what they loaded, the index is consistent
whenever no ingest is running. -/
theorem index_consistent
    (activeModel : String)
    (moves : List (Lib.Move (IngestRequest Value) Bool))
    (writesOver : Lib.Along (Pool.step (handleIngest activeModel) answerIndex)
      (Pool.PerformsAfter WritesOver) (Pool.idle (IndexState.new : IndexState Value)) moves) :
    Lib.Visits (Pool.step (handleIngest activeModel) answerIndex)
      (fun pool => Quiescent pool → Consistent pool)
      (Pool.idle (IndexState.new : IndexState Value)) moves := by
  have initially : Indexed (Pool.idle (IndexState.new : IndexState Value)) := by
    constructor
    · refine ⟨⟨?_, ?_, ?_⟩, ?_⟩
      all_goals simp [Pool.idle, IndexState.new, IndexState.storedMapping, Mapping.new,
        Lib.Table.empty]
    · refine ⟨?_, ?_⟩
      all_goals simp [Pool.idle, IndexState.new, IndexState.storedMapping, Mapping.new,
        Lib.Table.empty]
  have visits := (indexed_kept activeModel).visits (handleIngest_writesLoaded activeModel)
    initially writesOver
  exact visits.mono fun pool indexed _ => indexed.consistent

/-! ## Ingests in turn, and ingests that overlap -/

/-- A request of one entry. -/
def ingestOf (id : String) (component isPublic : Bool) : IngestRequest Bool where
  entries := [⟨id, List.replicate DIM component, isPublic⟩]
  model := none
  allowPrivate := true

/-- An ingest, and another once it is complete. -/
def inTurn : List (Lib.Move (IngestRequest Bool) Bool) :=
  .start (ingestOf "first" true true) :: List.replicate 4 (.advance 0 false) ++
    .start (ingestOf "second" false true) :: List.replicate 4 (.advance 1 false)

theorem index_consistent_inTurn :
    Lib.Visits (Pool.step (handleIngest modelUnknown) answerIndex)
      (fun pool => Quiescent pool → Consistent pool)
      (Pool.idle (IndexState.new : IndexState Bool)) inTurn :=
  index_consistent modelUnknown inTurn (by decide +kernel)

/-- Two ingests that load at once: the vectors of the second are written over those of the
first, and the mapping of the first over that of the second. -/
def atOnce : List (Lib.Move (IngestRequest Bool) Bool) :=
  [.start (ingestOf "first" true true), .start (ingestOf "second" false true),
    .advance 0 false, .advance 0 false, .advance 1 false, .advance 1 false,
    .advance 0 false, .advance 1 false, .advance 1 false, .advance 0 false]

/-- The id of one ingest ends with the vector of the other. -/
theorem index_mixes_vectors :
    ¬ ∀ moves : List (Lib.Move (IngestRequest Bool) Bool),
      Lib.Visits (Pool.step (handleIngest modelUnknown) answerIndex)
        (fun pool => Quiescent pool → Consistent pool)
        (Pool.idle (IndexState.new : IndexState Bool)) moves := by
  intro always
  have last := (Lib.visits_iff_prefixes _ _).mp (always atOnce) atOnce (List.prefix_refl _)
  have consistent := last (by unfold Quiescent; decide +kernel)
  have isFirst : ("first", 1) ∈ (Lib.run (Pool.step (handleIngest modelUnknown) answerIndex)
      (Pool.idle (IndexState.new : IndexState Bool))
      atOnce).state.storedMapping.idToLabel.rows := by
    decide +kernel
  obtain ⟨embedding, found, request, ⟨task, isTask, rfl⟩, entry, isEntry, isId, isVector⟩ :=
    consistent.vectors "first" 1 isFirst
  have isSecond : (Lib.run (Pool.step (handleIngest modelUnknown) answerIndex)
      (Pool.idle (IndexState.new : IndexState Bool)) atOnce).state.storedStore.find? 1 =
        some (1, List.replicate DIM false) := by
    decide +kernel
  rw [isSecond] at found
  cases found
  have others : ∀ task ∈ (Lib.run (Pool.step (handleIngest modelUnknown) answerIndex)
      (Pool.idle (IndexState.new : IndexState Bool)) atOnce).tasks,
        ∀ entry ∈ task.request.valid, entry.id = "first" →
          entry.embedding ≠ List.replicate DIM false := by
    decide +kernel
  exact others task isTask entry isEntry isId isVector

end Overlap

end Search
end NostrBbs
