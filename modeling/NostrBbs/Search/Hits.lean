import NostrBbs.Lib.Page
import NostrBbs.Search.Index

/-!
# The hits of a search

A search takes several candidates for each hit that it is asked for, leaves out those that
may not be seen, and cuts what is left.  What it finds is the best of the candidates; it is
the best of all that may be seen when enough of the candidates may, or when nothing that may
be seen lies beyond them.  Scores are taken from any linear order.
-/

namespace NostrBbs
namespace Search

open Lib (NewestPage)

section Hits

variable {Value Score : Type} [LinearOrder Score]

/-- A scoring lets through the vectors of at least a score, and orders vectors by descending
scores. -/
structure ScoresBy
    (scoring : Scoring Value)
    (score : List Value → Score)
    (minScore : Score) : Prop where
  meets : ∀ embedding, scoring.meets embedding = decide (minScore ≤ score embedding)
  descending : ∀ entries, (scoring.order entries).Pairwise fun first second =>
    score second.2 ≤ score first.2

/-- The scoring by a score, in an order of vectors from the best one on. -/
def Scoring.byScore
    (score : List Value → Score)
    (minScore : Score)
    (order : Lib.NewestFirst fun entry : Nat × List Value => score entry.2) :
    Scoring Value where
  meets := fun embedding => decide (minScore ≤ score embedding)
  order := order.sort
  perm := order.perm

theorem scoresBy_byScore
    (score : List Value → Score)
    (minScore : Score)
    (order : Lib.NewestFirst fun entry : Nat × List Value => score entry.2) :
    ScoresBy (Scoring.byScore score minScore order) score minScore where
  meets := fun _ => rfl
  descending := order.newestFirst

/-- The vectors of at least a score. -/
def qualifying
    (store : VectorStore Value)
    (score : List Value → Score)
    (minScore : Score) : List (Nat × List Value) :=
  store.rows.filter fun entry => minScore ≤ score entry.2

/-- A vector whose label may be seen. -/
def isPublic (publicLabels : Finset Nat) (entry : Nat × List Value) : Bool :=
  isSearchVisible publicLabels entry.1

/-- The vectors that a search takes before it looks at their labels. -/
def VectorStore.candidates
    (store : VectorStore Value)
    (request : SearchRequest Value)
    (size : Nat) : List (Nat × List Value) :=
  (request.scoring.order
    (store.rows.filter fun entry => request.scoring.meets entry.2)).take size

/-- The vectors that a search finds. -/
def VectorStore.hits
    (store : VectorStore Value)
    (publicLabels : Finset Nat)
    (request : SearchRequest Value)
    (k : Nat) : List (Nat × List Value) :=
  ((store.candidates request (overfetchK k)).filter (isPublic publicLabels)).take k

variable {store : VectorStore Value} {publicLabels : Finset Nat} {request : SearchRequest Value}
  {score : List Value → Score} {minScore : Score}

/-- The labels that a search shows are those of its hits. -/
theorem visibleTopK_search
    (isQuery : request.embedding.length = DIM)
    (k : Nat) :
    visibleTopK (store.search request (overfetchK k)) publicLabels k =
      (store.hits publicLabels request k).map Prod.fst := by
  have searched : store.search request (overfetchK k) =
      (store.candidates request (overfetchK k)).map Prod.fst := by
    unfold VectorStore.search VectorStore.candidates
    cases noRows : store.rows.isEmpty with
    | true =>
        rw [Bool.true_or, if_pos rfl, List.isEmpty_iff.mp noRows]
        have none : request.scoring.order [] = [] :=
          List.Perm.eq_nil (request.scoring.perm [])
        simp [none]
    | false =>
        rw [Bool.false_or, if_neg (by simpa using isQuery)]
  unfold visibleTopK VectorStore.hits
  rw [searched, List.filter_map, List.map_take]
  rfl

theorem newestPage_candidates
    (scored : ScoresBy request.scoring score minScore)
    (size : Nat) :
    NewestPage (fun entry => score entry.2) size (qualifying store score minScore)
      (store.candidates request size) := by
  have meets : (store.rows.filter fun entry => request.scoring.meets entry.2) =
      qualifying store score minScore := by
    unfold qualifying
    simp only [scored.meets]
  unfold VectorStore.candidates
  rw [meets]
  exact Lib.newestPage_take (request.scoring.perm _) (scored.descending _) size

/-- A search that answers with hits shows the best `k` that may be seen of the best `4 * k`
vectors of at least the least score.  They are the best `k` of all such vectors that may be
seen exactly when at least `k` of the candidates may be seen, or all that may be seen are
among the candidates. -/
theorem handleSearch_best
    (state : IndexState Value)
    (request : SearchRequest Value)
    (score : List Value → Score)
    (minScore : Score)
    (scored : ScoresBy request.scoring score minScore)
    {ids : List String}
    {total : Nat}
    (found : handleSearch state request = .found ids total) :
    let k := max 1 (min request.k 100)
    let visible := isPublic state.storedMapping.publicLabels
    let all := qualifying state.storedStore score minScore
    let candidates := state.storedStore.candidates request (4 * k)
    let hits := state.storedStore.hits state.storedMapping.publicLabels request k
    ids = hits.map (fun entry => state.storedMapping.labelToId entry.1) ∧
      NewestPage (fun entry => score entry.2) (4 * k) all candidates ∧
      NewestPage (fun entry => score entry.2) k (candidates.filter visible) hits ∧
      (NewestPage (fun entry => score entry.2) k (all.filter visible) hits ↔
        k ≤ (candidates.filter visible).length ∨
          ∀ entry ∈ all, visible entry → entry ∈ candidates) := by
  intro k visible all candidates hits
  have fetched : overfetchK k = 4 * k := by
    unfold overfetchK overfetchFactor overfetchCap
    omega
  have isPage : NewestPage (fun entry => score entry.2) (4 * k) all candidates :=
    newestPage_candidates scored (4 * k)
  have areHits : hits = (candidates.filter visible).take k := by
    change ((state.storedStore.candidates request (overfetchK k)).filter _).take k = _
    rw [fetched]
  have distinct : all.Nodup :=
    (List.Nodup.of_map _ state.storedStore.distinct).filter _
  refine ⟨?_, isPage, ?_, ?_⟩
  · unfold handleSearch at found
    split at found
    · cases found
    · rename_i isQuery
      split at found
      · rename_i noVectors
        have noRows : state.storedStore.rows = [] := List.length_eq_zero_iff.mp noVectors
        have noHits : hits = [] := by
          refine List.eq_nil_of_subset_nil fun entry isHit => ?_
          have isCandidate := List.mem_of_mem_filter (List.mem_of_mem_take (areHits ▸ isHit))
          have qualifies := isPage.part.subset isCandidate
          rw [← noRows]
          exact List.mem_of_mem_filter qualifies
        obtain ⟨rfl, -⟩ := SearchResponse.found.inj found
        rw [noHits]
        rfl
      · split at found
        · cases found
        · obtain ⟨rfl, -⟩ := SearchResponse.found.inj found
          rw [visibleTopK_search (not_not.mp isQuery), List.map_map]
          rfl
  · rw [areHits]
    exact isPage.take_filter k
  · rw [areHits]
    exact isPage.take_filter_iff distinct k

end Hits

/-! ## Hidden vectors before a public one -/

/-- Vectors scored by their first component. -/
def byFirst (minScore : Nat) : Scoring Nat :=
  Scoring.byScore (fun embedding => embedding.headD 0) minScore default

/-- Four vectors that may not be seen, and a fifth one of a lower score that may. -/
def crowdedIndex : IndexState Nat where
  store := some
    { rows := [(1, List.replicate DIM 2), (2, List.replicate DIM 2), (3, List.replicate DIM 2),
        (4, List.replicate DIM 2), (5, List.replicate DIM 1)]
      distinct := by decide }
  mapping := some { Mapping.new with publicLabels := {5} }
  completed := []

def crowdedSearch : SearchRequest Nat where
  embedding := List.replicate DIM 1
  k := 1
  model := modelUnknown
  scoring := byFirst 1

theorem candidates_crowded :
    (crowdedIndex.storedStore.candidates crowdedSearch 4).map Prod.fst = [1, 2, 3, 4] := by
  have all : (crowdedIndex.storedStore.rows.filter fun entry =>
      crowdedSearch.scoring.meets entry.2) = crowdedIndex.storedStore.rows := by
    rfl
  have sorted : crowdedSearch.scoring.order crowdedIndex.storedStore.rows =
      crowdedIndex.storedStore.rows :=
    List.mergeSort_of_pairwise (by decide)
  unfold VectorStore.candidates
  rw [all, sorted]
  rfl

theorem hits_crowded :
    crowdedIndex.storedStore.hits crowdedIndex.storedMapping.publicLabels crowdedSearch 1 = [] := by
  have noneSeen : ((crowdedIndex.storedStore.candidates crowdedSearch 4).filter
      (isPublic crowdedIndex.storedMapping.publicLabels)) = [] := by
    rw [List.filter_eq_nil_iff]
    intro entry isCandidate
    have isLabel := List.mem_map_of_mem (f := Prod.fst) isCandidate
    rw [candidates_crowded] at isLabel
    intro seen
    have isFifth : entry.1 ∈ ({5} : Finset Nat) := of_decide_eq_true seen
    rw [Finset.mem_singleton] at isFifth
    rw [isFifth] at isLabel
    revert isLabel
    decide
  change ((crowdedIndex.storedStore.candidates crowdedSearch 4).filter _).take 1 = []
  rw [noneSeen]
  rfl

theorem handleSearch_crowded :
    handleSearch crowdedIndex crowdedSearch = .found [] 5 := by
  have shown : visibleTopK (crowdedIndex.storedStore.search crowdedSearch (overfetchK 1))
      crowdedIndex.storedMapping.publicLabels 1 =
      (crowdedIndex.storedStore.hits crowdedIndex.storedMapping.publicLabels crowdedSearch 1).map
        Prod.fst :=
    visibleTopK_search (List.length_replicate ..) 1
  rw [hits_crowded] at shown
  unfold handleSearch
  rw [if_neg (by simp [crowdedSearch]), if_neg (by decide), if_neg (by decide)]
  change SearchResponse.found ((visibleTopK (crowdedIndex.storedStore.search crowdedSearch
    (overfetchK 1)) crowdedIndex.storedMapping.publicLabels 1).map _) 5 = _
  rw [shown]
  rfl

/-- The search finds nothing, although one vector of the least score may be seen. -/
theorem hidden_crowd_out :
    let score := fun embedding : List Nat => embedding.headD 0
    let visible : Nat × List Nat → Bool := isPublic crowdedIndex.storedMapping.publicLabels
    let all := qualifying crowdedIndex.storedStore score 1
    handleSearch crowdedIndex crowdedSearch = .found [] 5 ∧
      (all.filter visible).length = 1 ∧
      ¬NewestPage (fun entry => score entry.2) 1 (all.filter visible)
        (crowdedIndex.storedStore.hits crowdedIndex.storedMapping.publicLabels
          crowdedSearch 1) := by
  intro score visible all
  have oneSeen : (all.filter visible).length = 1 := by
    decide
  refine ⟨handleSearch_crowded, oneSeen, ?_⟩
  rw [hits_crowded]
  intro isPage
  have length := isPage.length
  rw [oneSeen] at length
  cases length

/-- The candidates of that search are the four vectors that may not be seen. -/
theorem handleSearch_best_crowded :
    let candidates := crowdedIndex.storedStore.candidates crowdedSearch 4
    let hits := crowdedIndex.storedStore.hits crowdedIndex.storedMapping.publicLabels
      crowdedSearch 1
    ([] : List String) = hits.map (fun entry =>
        crowdedIndex.storedMapping.labelToId entry.1) ∧
      NewestPage (fun entry => entry.2.headD 0) 4
        (qualifying crowdedIndex.storedStore (fun embedding => embedding.headD 0) 1)
        candidates := by
  have best := handleSearch_best crowdedIndex crowdedSearch (fun embedding => embedding.headD 0) 1
    (scoresBy_byScore _ _ _) handleSearch_crowded
  exact ⟨best.1, best.2.1⟩

end Search
end NostrBbs
