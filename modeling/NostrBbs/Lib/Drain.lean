import Mathlib

/-!
# Deleting in pages within a budget

A store loses what some listings name, page by page: each round reads at most a
page of a listing and deletes the page.  A short page ends a listing, and a spent
budget ends everything.  What is deleted was listed, no more is deleted than the
budget allows, and a drain that is not cut short deletes all that was listed.
-/

namespace Lib

variable {Store Id : Type*}

/-- A listing of entries, each once: deleting some takes these out of it and leaves
the others. -/
structure Listing (delete : List Id → Store → Store) where
  ids : Store → List Id
  nodup : ∀ store, (ids store).Nodup
  mem_delete : ∀ page store id, id ∈ ids (delete page store) ↔ id ∈ ids store ∧ id ∉ page

/-- What a drain did: the entries that it deleted, the store and the budget that it
left, and whether the budget ended it. -/
structure Drained (Store Id : Type*) where
  taken : List Id
  store : Store
  left : Nat
  truncated : Bool

/-- A drain whose first page was another one. -/
def Drained.after (drained : Drained Store Id) (page : List Id) : Drained Store Id :=
  { drained with taken := page ++ drained.taken }

section Drain

variable {delete : List Id → Store → Store}

/-- A page of a listing. -/
def Listing.page (listing : Listing delete) (size : Nat) (store : Store) : List Id :=
  (listing.ids store).take size

theorem Listing.length_page_le
    (listing : Listing delete)
    (size : Nat)
    (store : Store) :
    (listing.page size store).length ≤ size :=
  List.length_take_le _ _

theorem Listing.mem_of_mem_page
    {listing : Listing delete}
    {size : Nat}
    {store : Store}
    {id : Id}
    (member : id ∈ listing.page size store) :
    id ∈ listing.ids store :=
  List.mem_of_mem_take member

/-- A short page is the whole listing. -/
theorem Listing.page_eq_of_short
    {listing : Listing delete}
    {size : Nat}
    {store : Store}
    (short : (listing.page size store).length < size) :
    listing.page size store = listing.ids store := by
  rw [Listing.page, List.length_take] at short
  exact List.take_of_length_le (by omega)

/-- Deleting what a listing names, in pages of a size, within a budget. -/
def drain
    (size : Nat)
    [NeZero size]
    (listing : Listing delete)
    (budget : Nat)
    (store : Store) : Drained Store Id :=
  if budget = 0 then ⟨[], store, 0, true⟩
  else
    let page := listing.page (min budget size) store
    if page.length < min budget size then
      ⟨page, delete page store, budget - page.length, false⟩
    else
      (drain size listing (budget - page.length) (delete page store)).after page
termination_by budget
decreasing_by
  have positive : 0 < size := NeZero.pos size
  change budget - page.length < budget
  omega

/-- Draining some listings one after the other, until one is cut short. -/
def drainAll
    (size : Nat)
    [NeZero size] : List (Listing delete) → Nat → Store → Drained Store Id
  | [], budget, store => ⟨[], store, budget, false⟩
  | listing :: listings, budget, store =>
      let drained := drain size listing budget store
      if drained.truncated then drained
      else (drainAll size listings drained.left drained.store).after drained.taken

/-! ## One listing -/

variable {size budget : Nat} [NeZero size] {listing : Listing delete} {store : Store}

theorem drain_taken_add_left :
    (drain size listing budget store).taken.length + (drain size listing budget store).left =
      budget := by
  fun_induction drain size listing budget store with
  | case1 store => rfl
  | case2 budget store spent page short =>
      have within : page.length ≤ min budget size := listing.length_page_le _ store
      dsimp only
      omega
  | case3 budget store spent page full inductionHypothesis =>
      have within : page.length ≤ min budget size := listing.length_page_le _ store
      rw [Drained.after, List.length_append, Nat.add_assoc, inductionHypothesis]
      omega

theorem drain_left_of_truncated
    (truncated : (drain size listing budget store).truncated) :
    (drain size listing budget store).left = 0 := by
  fun_induction drain size listing budget store with
  | case1 store => rfl
  | case2 budget store spent page short => cases truncated
  | case3 budget store spent page full inductionHypothesis => exact inductionHypothesis truncated

/-- What a drain deletes was listed. -/
theorem mem_ids_of_drain
    {id : Id}
    (taken : id ∈ (drain size listing budget store).taken) :
    id ∈ listing.ids store := by
  fun_induction drain size listing budget store with
  | case1 store => cases taken
  | case2 budget store spent page short => exact Listing.mem_of_mem_page taken
  | case3 budget store spent page full inductionHypothesis =>
      rcases List.mem_append.mp taken with here | there
      · exact Listing.mem_of_mem_page here
      · exact ((listing.mem_delete page store id).mp (inductionHypothesis there)).1

/-- A drain that its budget did not end deletes all that was listed. -/
theorem mem_drain_of_ids
    {id : Id}
    (complete : (drain size listing budget store).truncated = false)
    (listed : id ∈ listing.ids store) :
    id ∈ (drain size listing budget store).taken := by
  fun_induction drain size listing budget store with
  | case1 store => cases complete
  | case2 budget store spent page short =>
      have whole : page = listing.ids store := Listing.page_eq_of_short short
      rw [whole]
      exact listed
  | case3 budget store spent page full inductionHypothesis =>
      rw [Drained.after, List.mem_append]
      by_cases here : id ∈ page
      · exact .inl here
      · exact .inr (inductionHypothesis complete
          ((listing.mem_delete page store id).mpr ⟨listed, here⟩))

/-- A drain deletes no entry twice. -/
theorem nodup_drain : (drain size listing budget store).taken.Nodup := by
  fun_induction drain size listing budget store with
  | case1 store => exact List.nodup_nil
  | case2 budget store spent page short => exact (listing.nodup store).sublist (List.take_sublist _ _)
  | case3 budget store spent page full inductionHypothesis =>
      apply List.nodup_append.mpr
      refine ⟨(listing.nodup store).sublist (List.take_sublist _ _), inductionHypothesis, ?_⟩
      intro id here other there same
      rw [same] at here
      exact ((listing.mem_delete page store other).mp (mem_ids_of_drain there)).2 here

/-- Deletions may be made in pages: nothing is deleted by an empty page, and two
pages are as good as one. -/
structure DeletesInPages (delete : List Id → Store → Store) : Prop where
  nil : ∀ store, delete [] store = store
  append : ∀ first second store, delete (first ++ second) store = delete second (delete first store)

theorem store_drain
    (inPages : DeletesInPages delete) :
    (drain size listing budget store).store =
      delete (drain size listing budget store).taken store := by
  fun_induction drain size listing budget store with
  | case1 store => exact (inPages.nil store).symm
  | case2 budget store spent page short => rfl
  | case3 budget store spent page full inductionHypothesis =>
      exact inductionHypothesis.trans (inPages.append page _ store).symm

end Drain

/-! ## Several listings -/

section DrainAll

variable {delete : List Id → Store → Store} {size budget : Nat} [NeZero size]
  {listings : List (Listing delete)} {store : Store}

theorem drainAll_taken_add_left :
    (drainAll size listings budget store).taken.length +
        (drainAll size listings budget store).left =
      budget := by
  induction listings generalizing budget store with
  | nil => exact Nat.zero_add budget
  | cons listing listings inductionHypothesis =>
      have first :
          (drain size listing budget store).taken.length +
              (drain size listing budget store).left =
            budget :=
        drain_taken_add_left
      rw [drainAll]
      split
      · exact first
      · rw [Drained.after, List.length_append, Nat.add_assoc, inductionHypothesis]
        exact first

theorem drainAll_left_of_truncated
    (truncated : (drainAll size listings budget store).truncated) :
    (drainAll size listings budget store).left = 0 := by
  induction listings generalizing budget store with
  | nil => cases truncated
  | cons listing listings inductionHypothesis =>
      rw [drainAll] at truncated ⊢
      split at truncated
      · rename_i cutShort
        rw [if_pos cutShort]
        exact drain_left_of_truncated cutShort
      · rename_i complete
        rw [if_neg complete]
        exact inductionHypothesis truncated

theorem store_drainAll
    (inPages : DeletesInPages delete) :
    (drainAll size listings budget store).store =
      delete (drainAll size listings budget store).taken store := by
  induction listings generalizing budget store with
  | nil => exact (inPages.nil store).symm
  | cons listing listings inductionHypothesis =>
      rw [drainAll]
      split
      · exact store_drain inPages
      · rw [Drained.after, inPages.append, ← store_drain inPages]
        exact inductionHypothesis

/-- What draining some listings deletes, one of them listed. -/
theorem mem_ids_of_drainAll
    {id : Id}
    (inPages : DeletesInPages delete)
    (taken : id ∈ (drainAll size listings budget store).taken) :
    ∃ listing ∈ listings, id ∈ listing.ids store := by
  induction listings generalizing budget store with
  | nil => cases taken
  | cons listing listings inductionHypothesis =>
      rw [drainAll] at taken
      split at taken
      · exact ⟨listing, List.mem_cons_self .., mem_ids_of_drain taken⟩
      · rcases List.mem_append.mp taken with here | there
        · exact ⟨listing, List.mem_cons_self .., mem_ids_of_drain here⟩
        · obtain ⟨other, isOther, listed⟩ := inductionHypothesis there
          rw [store_drain inPages, other.mem_delete] at listed
          exact ⟨other, List.mem_cons_of_mem _ isOther, listed.1⟩

/-- Draining some listings deletes no entry twice. -/
theorem nodup_drainAll
    (inPages : DeletesInPages delete) :
    (drainAll size listings budget store).taken.Nodup := by
  induction listings generalizing budget store with
  | nil => exact List.nodup_nil
  | cons listing listings inductionHypothesis =>
      rw [drainAll]
      split
      · exact nodup_drain
      · apply List.nodup_append.mpr
        refine ⟨nodup_drain, inductionHypothesis, ?_⟩
        intro id here other there same
        obtain ⟨later, -, listed⟩ := mem_ids_of_drainAll inPages there
        rw [store_drain inPages, later.mem_delete] at listed
        rw [same] at here
        exact listed.2 here

/-- A drain of some listings that is not cut short deletes all that they listed. -/
theorem mem_drainAll_of_ids
    {id : Id}
    {listing : Listing delete}
    (inPages : DeletesInPages delete)
    (complete : (drainAll size listings budget store).truncated = false)
    (isListing : listing ∈ listings)
    (listed : id ∈ listing.ids store) :
    id ∈ (drainAll size listings budget store).taken := by
  induction listings generalizing budget store with
  | nil => cases isListing
  | cons first listings inductionHypothesis =>
      rw [drainAll] at complete ⊢
      split at complete
      · rename_i cutShort
        rw [cutShort] at complete
        cases complete
      · rename_i notCut
        rw [if_neg notCut, Drained.after, List.mem_append]
        have firstComplete := eq_false_of_ne_true notCut
        rcases List.mem_cons.mp isListing with rfl | later
        · exact .inl (mem_drain_of_ids firstComplete listed)
        · by_cases here : id ∈ (drain size first budget store).taken
          · exact .inl here
          · apply Or.inr
            apply inductionHypothesis complete later
            rw [store_drain inPages, listing.mem_delete]
            exact ⟨listed, here⟩

end DrainAll

end Lib
