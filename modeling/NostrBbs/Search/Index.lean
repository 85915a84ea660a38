import Mathlib.Data.Finset.Basic
import NostrBbs.Lib.Pool
import NostrBbs.Lib.Table

/-!
# The search index

Vectors are stored under labels in one object, and the mapping of ids to labels, with the
labels that anybody may see, in another.  An ingest loads both, changes both, and writes
both back whole.
-/

namespace NostrBbs
namespace Search

open Lib.Program (call)

/-! ## The vectors -/

/-- The length of a vector. -/
def DIM : Nat := 384

/-- Vectors of components of some type, each under a label. -/
abbrev VectorStore (Value : Type) := Lib.Table (Nat × List Value) Prod.fst

namespace VectorStore

variable {Value : Type}

def new : VectorStore Value := Lib.Table.empty

def count (store : VectorStore Value) : Nat :=
  store.rows.length

/-- A vector put under a label, in the place of one that is there. -/
def insert (store : VectorStore Value) (label : Nat) (embedding : List Value) :
    VectorStore Value :=
  match Lib.Table.insert store (label, embedding) with
  | some longer => longer
  | none =>
      store.updateWhere (fun entry => entry.1 = label) (fun entry => (entry.1, embedding))
        fun _ => rfl

theorem find?_insert
    (store : VectorStore Value)
    (label : Nat)
    (embedding : List Value)
    (wanted : Nat) :
    (store.insert label embedding).find? wanted =
      if wanted = label then some (label, embedding) else store.find? wanted := by
  unfold insert
  cases inserted : Lib.Table.insert store (label, embedding) with
  | some longer =>
      dsimp only
      rw [Lib.Table.find?_of_insert inserted]
      simp only [eq_comm]
  | none =>
      obtain ⟨entry, held, isLabel⟩ := List.mem_map.mp (Lib.Table.insert_eq_none_iff.mp inserted)
      dsimp only at isLabel ⊢
      rw [Lib.Table.find?_updateWhere]
      split
      · rename_i isWanted
        have found : store.find? wanted = some entry :=
          Lib.Table.find?_eq_some_iff.mpr ⟨held, isLabel.trans isWanted.symm⟩
        rw [found, Option.map_some, if_pos (decide_eq_true isLabel), isLabel]
      · rename_i isOther
        cases found : store.find? wanted with
        | none => rfl
        | some other =>
            obtain ⟨-, isWanted⟩ := Lib.Table.find?_eq_some_iff.mp found
            rw [Option.map_some, if_neg]
            rw [decide_eq_true_eq, isWanted]
            exact isOther

end VectorStore

/-! ## The mapping -/

def modelUnknown : String := "unknown"

/-- The ids with their labels, the next label, the model of the vectors, and the labels that
a search may show. -/
structure Mapping where
  idToLabel : Lib.Table (String × Nat) Prod.fst
  next : Nat
  model : String
  publicLabels : Finset Nat
deriving DecidableEq

namespace Mapping

def new : Mapping where
  idToLabel := Lib.Table.empty
  next := 1
  model := modelUnknown
  publicLabels := ∅

/-- The label of an id: its own, or else the next one. -/
def labelFor (mapping : Mapping) (id : String) : Nat :=
  (mapping.idToLabel.find? id).elim mapping.next Prod.snd

/-- A mapping in which an id has a label. -/
def withLabel (mapping : Mapping) (id : String) : Mapping :=
  match mapping.idToLabel.insert (id, mapping.next) with
  | some longer => { mapping with idToLabel := longer, next := mapping.next + 1 }
  | none => mapping

def declare (mapping : Mapping) (label : Nat) (isPublic : Bool) : Mapping :=
  { mapping with
    publicLabels :=
      if isPublic then insert label mapping.publicLabels else mapping.publicLabels.erase label }

end Mapping

/-- Two models that are known must be the same. -/
def checkModelMatch (indexed queried : String) : Bool :=
  indexed = modelUnknown || queried = modelUnknown || indexed = queried

/-! ## Ingest -/

structure IngestEntry (Value : Type) where
  id : String
  embedding : List Value
  isPublic : Bool
deriving DecidableEq

structure IngestRequest (Value : Type) where
  entries : List (IngestEntry Value)
  model : Option String
  allowPrivate : Bool
deriving DecidableEq

inductive IngestResponse where
  | failed
  | refused (status : Nat) (error : String)
  | ingested (accepted rejected isPublic totalVectors : Nat) (model : String)
deriving DecidableEq, Repr

section Ingest

variable {Value : Type}

def IngestEntry.isValid (entry : IngestEntry Value) : Bool :=
  entry.id ≠ "" && entry.embedding.length = DIM

/-- The entries of a request that are taken. -/
def IngestRequest.valid (request : IngestRequest Value) : List (IngestEntry Value) :=
  request.entries.filter IngestEntry.isValid

/-- A batch that no search could find. -/
def allPrivateIngestRejection (totalValid publicCount : Nat) (allowPrivate : Bool) : Bool :=
  !(allowPrivate || totalValid = 0 || decide (0 < publicCount))

/-- Both objects, as an ingest holds them. -/
structure Loaded (Value : Type) where
  store : VectorStore Value
  mapping : Mapping

/-- What one entry makes of them. -/
def Loaded.accept (loaded : Loaded Value) (entry : IngestEntry Value) : Loaded Value :=
  let label := loaded.mapping.labelFor entry.id
  { store := loaded.store.insert label entry.embedding
    mapping := (loaded.mapping.withLabel entry.id).declare label entry.isPublic }

/-- What a batch makes of them. -/
def Loaded.acceptAll (loaded : Loaded Value) (entries : List (IngestEntry Value)) :
    Loaded Value :=
  entries.foldl Loaded.accept loaded

/-- The reads and writes of the two objects.  The write of the mapping names the entries that
it completes. -/
inductive IndexOp (Value : Type) where
  | loadStore
  | loadMapping
  | putStore (store : VectorStore Value)
  | putMapping (mapping : Mapping) (entries : List (IngestEntry Value))

abbrev IndexOp.Answer : IndexOp Value → Type
  | loadStore => Option (VectorStore Value)
  | loadMapping => Option Mapping
  | putStore _ => Bool
  | putMapping _ _ => Bool

abbrev IngestProgram (Value : Type) := Lib.Program (IndexOp Value) IndexOp.Answer

/-- An ingest of an administrator.  A request that names no model is taken to be of the model
that the worker uses itself. -/
def handleIngest (activeModel : String) (request : IngestRequest Value) :
    IngestProgram Value IngestResponse :=
  if request.entries.isEmpty then .done (.refused 400 "Missing entries array")
  else do
    let loadedStore : Option (VectorStore Value) ← call IndexOp.loadStore
    match loadedStore with
    | none => return .failed
    | some store =>
        let loadedMapping : Option Mapping ← call IndexOp.loadMapping
        match loadedMapping with
        | none => return .failed
        | some mapping =>
            let ingestModel := request.model.getD activeModel
            let publicEntries := (request.valid.filter IngestEntry.isPublic).length
            if store.count ≠ 0 ∧ checkModelMatch mapping.model ingestModel = false then
              return .refused 409 "Embedding model mismatch between index and query"
            else if allPrivateIngestRejection request.valid.length publicEntries
                request.allowPrivate then
              return .refused 400 "Every entry in this batch is non-public"
            else
              let changed := (Loaded.mk store mapping).acceptAll request.valid
              let storeWritten : Bool ← call (IndexOp.putStore changed.store)
              if storeWritten then
                let mappingWritten : Bool ←
                  call (IndexOp.putMapping { changed.mapping with model := ingestModel }
                    request.valid)
                if mappingWritten then
                  return .ingested request.valid.length
                    (request.entries.length - request.valid.length) publicEntries
                    changed.store.count ingestModel
                else return .failed
              else return .failed

end Ingest

/-! ## The two objects -/

section Objects

variable {Value : Type}

/-- What was said last about whether an id is public. -/
def lastDeclared (entries : List (IngestEntry Value)) (id : String) : Option Bool :=
  ((entries.filter fun entry => entry.id = id).map IngestEntry.isPublic).getLast?

@[simp] theorem lastDeclared_concat
    (entries : List (IngestEntry Value))
    (entry : IngestEntry Value)
    (id : String) :
    lastDeclared (entries ++ [entry]) id =
      if entry.id = id then some entry.isPublic else lastDeclared entries id := by
  unfold lastDeclared
  rw [List.filter_append, List.map_append]
  by_cases isId : entry.id = id
  · simp [isId]
  · simp [isId]

/-- The objects as they are stored, if they are, and the entries of the ingests whose writes
are complete, in order. -/
structure IndexState (Value : Type) where
  store : Option (VectorStore Value)
  mapping : Option Mapping
  completed : List (IngestEntry Value)

namespace IndexState

def new : IndexState Value :=
  ⟨none, none, []⟩

/-- An object that is not there is loaded as an empty one. -/
def storedStore (state : IndexState Value) : VectorStore Value :=
  state.store.getD VectorStore.new

def storedMapping (state : IndexState Value) : Mapping :=
  state.mapping.getD Mapping.new

end IndexState

/-- One read or write of an object, which may fail. -/
def answerIndex (state : IndexState Value) (fails : Bool) :
    (op : IndexOp Value) → IndexState Value × op.Answer
  | .loadStore => (state, if fails then none else some state.storedStore)
  | .loadMapping => (state, if fails then none else some state.storedMapping)
  | .putStore store =>
      if fails then (state, false) else ({ state with store := some store }, true)
  | .putMapping mapping entries =>
      if fails then (state, false)
      else
        ({ state with mapping := some mapping, completed := state.completed ++ entries }, true)

end Objects

/-! ## Search -/

section Search

variable {Value : Type}

/-- What floating point decides about a query: the vectors that score high enough, and their
order. -/
structure Scoring (Value : Type) where
  meets : List Value → Bool
  order : List (Nat × List Value) → List (Nat × List Value)
  perm : ∀ entries, (order entries).Perm entries

structure SearchRequest (Value : Type) where
  embedding : List Value
  k : Nat
  model : String
  scoring : Scoring Value

inductive SearchResponse where
  | refused (status : Nat) (error : String)
  | found (ids : List String) (totalVectors : Nat)
deriving DecidableEq, Repr

def overfetchFactor : Nat := 4

def overfetchCap : Nat := 400

def overfetchK (k : Nat) : Nat :=
  max (min (k * overfetchFactor) overfetchCap) k

/-- The labels of the best vectors. -/
def VectorStore.search (store : VectorStore Value) (request : SearchRequest Value) (k : Nat) :
    List Nat :=
  if store.rows.isEmpty || request.embedding.length ≠ DIM then []
  else
    ((request.scoring.order
      (store.rows.filter fun entry => request.scoring.meets entry.2)).take k).map Prod.fst

def isSearchVisible (publicLabels : Finset Nat) (label : Nat) : Bool :=
  label ∈ publicLabels

def visibleTopK (candidates : List Nat) (publicLabels : Finset Nat) (k : Nat) : List Nat :=
  (candidates.filter (isSearchVisible publicLabels)).take k

/-- The id of a label, or the label itself. -/
def Mapping.labelToId (mapping : Mapping) (label : Nat) : String :=
  ((mapping.idToLabel.rows.reverse.find? fun pair => pair.2 = label).map Prod.fst).getD
    (toString label)

def handleSearch (state : IndexState Value) (request : SearchRequest Value) : SearchResponse :=
  if request.embedding.length ≠ DIM then .refused 400 "Expected 384-dim embedding"
  else if state.storedStore.count = 0 then .found [] 0
  else if checkModelMatch state.storedMapping.model request.model = false then
    .refused 409 "Embedding model mismatch between index and query"
  else
    let k := max 1 (min request.k 100)
    let candidates := state.storedStore.search request (overfetchK k)
    let results := visibleTopK candidates state.storedMapping.publicLabels k
    .found (results.map state.storedMapping.labelToId) state.storedStore.count

/-- The ids of a response. -/
def SearchResponse.ids : SearchResponse → List String
  | refused _ _ => []
  | found ids _ => ids

/-- What a search shows is the id of a label that may be seen. -/
theorem visible_of_mem_handleSearch
    {state : IndexState Value}
    {request : SearchRequest Value}
    {id : String}
    (isShown : id ∈ (handleSearch state request).ids) :
    ∃ label ∈ state.storedMapping.publicLabels, state.storedMapping.labelToId label = id := by
  unfold handleSearch at isShown
  split at isShown
  · cases isShown
  · split at isShown
    · cases isShown
    · split at isShown
      · cases isShown
      · obtain ⟨label, isResult, isId⟩ := List.mem_map.mp isShown
        have visible := List.of_mem_filter (List.mem_of_mem_take isResult)
        exact ⟨label, of_decide_eq_true visible, isId⟩

/-- A label that is some id's is shown as the id of a pair. -/
theorem Mapping.labelToId_of_mem
    {mapping : Mapping}
    {pair : String × Nat}
    (held : pair ∈ mapping.idToLabel.rows) :
    (mapping.labelToId pair.2, pair.2) ∈ mapping.idToLabel.rows := by
  unfold labelToId
  cases found : mapping.idToLabel.rows.reverse.find? fun other => other.2 = pair.2 with
  | none =>
      have missing := List.find?_eq_none.mp found pair (List.mem_reverse.mpr held)
      exact absurd (decide_eq_true rfl) missing
  | some other =>
      have named := List.find?_some found
      have isLabel : other.2 = pair.2 := of_decide_eq_true named
      have isHeld := List.mem_reverse.mp (List.mem_of_find?_eq_some found)
      rw [Option.map_some, Option.getD_some, ← isLabel]
      exact isHeld

end Search

end Search
end NostrBbs
