import Mathlib
import Mathlib.Data.List.Perm.Subperm
import Mathlib.Data.List.Sort

/-!
# Pages of lists

A list cut into parts of one size.  The first items of a list whose keys go up are those
with few items before them.  A page of the newest items, cut before the items are sifted,
is the page of the newest sifted items only when the sifting takes nothing from the page,
or leaves nothing outside it.
-/

namespace Lib

/-! ## Lists in chunks -/

section

variable {Item : Type*} {size : Nat} {items : List Item} {item : Item} {chunk : List Item}

/-- The parts of a list, each of some number of items. -/
def chunks (size : Nat) (items : List Item) : List (List Item) :=
  (List.range ((items.length + size - 1) / size)).map fun index =>
    (items.drop (index * size)).take size

/-- A chunk is a part of the list. -/
theorem sublist_of_mem_chunks
    (isChunk : chunk ∈ chunks size items) :
    chunk.Sublist items := by
  obtain ⟨index, -, rfl⟩ := List.mem_map.mp isChunk
  exact (List.take_sublist _ _).trans (List.drop_sublist _ _)

/-- No item is left out. -/
theorem mem_chunk_of_mem
    (positive : 0 < size)
    (member : item ∈ items) :
    ∃ chunk ∈ chunks size items, item ∈ chunk := by
  obtain ⟨place, inside, rfl⟩ := List.mem_iff_getElem.mp member
  have bounds := Nat.div_add_mod place size
  have short := Nat.mod_lt place positive
  have numbered : place / size < (items.length + size - 1) / size := by
    rw [Nat.lt_iff_add_one_le, Nat.le_div_iff_mul_le positive, Nat.add_mul, Nat.one_mul,
      Nat.mul_comm]
    omega
  refine ⟨_, List.mem_map_of_mem (List.mem_range.mpr numbered), ?_⟩
  apply List.mem_iff_getElem.mpr
  refine ⟨place % size, ?_, ?_⟩
  · rw [List.length_take, List.length_drop, Nat.mul_comm]
    omega
  · rw [List.getElem_take, List.getElem_drop]
    congr 1
    rw [Nat.mul_comm]
    exact bounds

end

/-! ## First pages of lists -/

section

variable {Item Key : Type*} [LinearOrder Key]

/-- The items of a list whose keys come before a key. -/
def before
    (key : Item → Key)
    (items : List Item)
    (bound : Key) : List Item :=
  items.filter fun item => key item < bound

/-- An item of an ordered list is on its first page exactly when fewer items than fit on the
page come before it. -/
theorem mem_take_iff
    {key : Item → Key}
    {items : List Item}
    {item : Item}
    (sorted : (items.map key).Pairwise (· < ·))
    (isItem : item ∈ items)
    (size : Nat) :
    item ∈ items.take size ↔ (before key items (key item)).length < size := by
  unfold before
  induction items generalizing size with
  | nil => cases isItem
  | cons head rest inductionHypothesis =>
      rw [List.map_cons, List.pairwise_cons] at sorted
      obtain ⟨headFirst, restSorted⟩ := sorted
      cases size with
      | zero => simp
      | succ size =>
          rw [List.take_succ_cons]
          rcases List.mem_cons.mp isItem with rfl | isRest
          · have none : rest.filter (fun other => decide (key other < key item)) = [] := by
              rw [List.filter_eq_nil_iff]
              intro other isOther
              have later := headFirst (key other) (List.mem_map_of_mem isOther)
              simpa using le_of_lt later
            simp [none]
          · have earlier := headFirst (key item) (List.mem_map_of_mem isRest)
            have notHead : item ≠ head := by
              rintro rfl
              exact lt_irrefl _ earlier
            rw [List.mem_cons, or_iff_right notHead,
              List.filter_cons_of_pos (by simpa using earlier), List.length_cons,
              Nat.add_lt_add_iff_right]
            exact inductionHypothesis restSorted isRest size

/-! ## Newest items -/

/-- A page of at most so many items: the newest of a list, newest first. -/
structure NewestPage
    (time : Item → Key)
    (size : Nat)
    (items page : List Item) : Prop where
  part : page.Subperm items
  newestFirst : page.Pairwise fun first second => time second ≤ time first
  length : page.length = min size items.length
  newest : ∀ item ∈ items, item ∉ page → ∀ other ∈ page, time item ≤ time other

/-- The front of a list that is newest first is the page of its newest items. -/
theorem newestPage_take
    {time : Item → Key}
    {items ordered : List Item}
    (perm : ordered.Perm items)
    (newestFirst : ordered.Pairwise fun first second => time second ≤ time first)
    (size : Nat) :
    NewestPage time size items (ordered.take size) where
  part := (List.take_sublist size ordered).subperm.trans perm.subperm
  newestFirst := newestFirst.sublist (List.take_sublist size ordered)
  length := by rw [List.length_take, perm.length_eq]
  newest := by
    intro item isItem leftOut other onPage
    have isOrdered : item ∈ ordered := perm.mem_iff.mpr isItem
    rw [← List.take_append_drop size ordered] at isOrdered newestFirst
    exact (List.pairwise_append.mp newestFirst).2.2 other onPage item
      ((List.mem_append.mp isOrdered).resolve_left leftOut)

/-! ## Orders of tables -/

/-- What a sort by keys leaves. -/
theorem sorted_mergeSort
    (key : Item → Key)
    (items : List Item) :
    (items.mergeSort fun first second => decide (key first ≤ key second)).Pairwise
      fun first second => key first ≤ key second := by
  have sorted : (items.mergeSort fun first second => decide (key first ≤ key second)).Pairwise
      fun first second => decide (key first ≤ key second) = true := by
    refine List.pairwise_mergeSort ?_ ?_ items
    · intro first second third firstLe secondLe
      rw [decide_eq_true_eq] at firstLe secondLe ⊢
      exact firstLe.trans secondLe
    · intro first second
      rw [Bool.or_eq_true, decide_eq_true_eq, decide_eq_true_eq]
      exact le_total _ _
  exact sorted.imp fun ordered => of_decide_eq_true ordered

/-- An order in which a table gives its rows newest first; it is left open which of two rows of
one time comes first. -/
structure NewestFirst (time : Item → Key) where
  sort : List Item → List Item
  perm : ∀ items, (sort items).Perm items
  newestFirst : ∀ items, (sort items).Pairwise fun first second => time second ≤ time first

/-- The order that leaves the rows of one time as they are. -/
instance (time : Item → Key) : Inhabited (NewestFirst time) where
  default :=
    { sort := fun items => items.mergeSort fun first second =>
        decide (OrderDual.toDual (time first) ≤ OrderDual.toDual (time second))
      perm := fun items => List.mergeSort_perm items _
      newestFirst := fun items =>
        sorted_mergeSort (fun item => OrderDual.toDual (time item)) items }

/-- Items of distinct keys are sorted by them in one way. -/
theorem mergeSort_eq_of_perm
    {key : Item → Key}
    {items others : List Item}
    (distinct : (items.map key).Nodup)
    (isPerm : items.Perm others) :
    items.mergeSort (fun first second => decide (key first ≤ key second)) =
      others.mergeSort fun first second => decide (key first ≤ key second) := by
  refine List.Perm.eq_of_pairwise ?_ (sorted_mergeSort key items) (sorted_mergeSort key others)
    ((List.mergeSort_perm _ _).trans (isPerm.trans (List.mergeSort_perm _ _).symm))
  intro first second isFirst isSecond firstLe secondLe
  exact List.inj_on_of_nodup_map distinct ((List.mergeSort_perm _ _).mem_iff.mp isFirst)
    (isPerm.mem_iff.mpr ((List.mergeSort_perm _ _).mem_iff.mp isSecond))
    (le_antisymm firstLe secondLe)

section

variable {time : Item → Key} {size : Nat} {items page : List Item} {keep : Item → Bool}

/-- What a page leaves of a list. -/
theorem NewestPage.rest
    (isPage : NewestPage time size items page) :
    ∃ rest, items.Perm (page ++ rest) := by
  obtain ⟨front, samePage, fromItems⟩ := isPage.part
  obtain ⟨rest, split⟩ := fromItems.exists_perm_append
  exact ⟨rest, split.trans (samePage.append_right rest)⟩

/-- The items that are kept of a page are the page of the newest kept items exactly when
all of the page is kept, or nothing is kept outside it. -/
theorem NewestPage.filter_iff
    (isPage : NewestPage time size items page)
    (distinct : items.Nodup) :
    NewestPage time size (items.filter keep) (page.filter keep) ↔
      (∀ item ∈ page, keep item) ∨ ∀ item ∈ items, keep item → item ∈ page := by
  obtain ⟨rest, split⟩ := isPage.rest
  have total : items.length = page.length + rest.length := by
    rw [split.length_eq, List.length_append]
  have keptTotal : (items.filter keep).length =
      (page.filter keep).length + (rest.filter keep).length := by
    rw [(split.filter keep).length_eq, List.filter_append, List.length_append]
  have apart : ∀ item ∈ rest, item ∉ page := by
    have splitNodup : (page ++ rest).Nodup := split.nodup_iff.mp distinct
    intro item inRest onPage
    exact (List.nodup_append.mp splitNodup).2.2 item onPage item inRest rfl
  have length := isPage.length
  have fewerKept := List.length_filter_le keep page
  constructor
  · intro isKeptPage
    have keptLength := isKeptPage.length
    by_cases room : (items.filter keep).length ≤ size
    · right
      intro item isItem isKept
      have nothing : rest.filter keep = [] := List.length_eq_zero_iff.mp (by omega)
      rcases List.mem_append.mp (split.mem_iff.mp isItem) with onPage | inRest
      · exact onPage
      · exact absurd isKept (List.filter_eq_nil_iff.mp nothing item inRest)
    · left
      exact List.length_filter_eq_length_iff.mp (by omega)
  · intro either
    refine ⟨isPage.part.filter keep, isPage.newestFirst.sublist List.filter_sublist, ?_, ?_⟩
    · rcases either with allKept | noneOutside
      · rw [List.length_filter_eq_length_iff.mpr allKept] at keptTotal ⊢
        by_cases full : page.length = size
        · omega
        · have nothing : rest = [] := List.length_eq_zero_iff.mp (by omega)
          rw [nothing] at keptTotal
          simp only [List.filter_nil, List.length_nil] at keptTotal
          omega
      · have nothing : rest.filter keep = [] := by
          rw [List.filter_eq_nil_iff]
          intro item inRest isKept
          exact apart item inRest
            (noneOutside item (split.mem_iff.mpr (List.mem_append_right _ inRest)) isKept)
        rw [nothing, List.length_nil] at keptTotal
        omega
    · intro item isItem leftOut other onPage
      obtain ⟨held, isKept⟩ := List.mem_filter.mp isItem
      refine isPage.newest item held ?_ other (List.mem_filter.mp onPage).1
      exact fun onPage => leftOut (List.mem_filter.mpr ⟨onPage, isKept⟩)

/-- The first kept items of a page are a page of their own. -/
theorem NewestPage.take_filter
    (isPage : NewestPage time size items page)
    (kept : Nat) :
    NewestPage time kept (page.filter keep) ((page.filter keep).take kept) :=
  newestPage_take (List.Perm.refl _) (isPage.newestFirst.sublist List.filter_sublist) kept

/-- They are the page of the newest kept items exactly when the page keeps enough of them, or
nothing is kept outside it. -/
theorem NewestPage.take_filter_iff
    (isPage : NewestPage time size items page)
    (distinct : items.Nodup)
    (kept : Nat) :
    NewestPage time kept (items.filter keep) ((page.filter keep).take kept) ↔
      kept ≤ (page.filter keep).length ∨ ∀ item ∈ items, keep item → item ∈ page := by
  obtain ⟨rest, split⟩ := isPage.rest
  have keptTotal : (items.filter keep).length =
      (page.filter keep).length + (rest.filter keep).length := by
    rw [(split.filter keep).length_eq, List.filter_append, List.length_append]
  constructor
  · intro isKeptPage
    have keptLength := isKeptPage.length
    rw [List.length_take] at keptLength
    by_cases enough : kept ≤ (page.filter keep).length
    · exact .inl enough
    · right
      intro item isItem isKept
      have nothing : rest.filter keep = [] := List.length_eq_zero_iff.mp (by omega)
      rcases List.mem_append.mp (split.mem_iff.mp isItem) with onPage | inRest
      · exact onPage
      · exact absurd isKept (List.filter_eq_nil_iff.mp nothing item inRest)
  · rintro (enough | noneOutside)
    · refine ⟨?_, ?_, ?_, ?_⟩
      · exact (List.take_sublist kept _).subperm.trans (isPage.part.filter keep)
      · exact isPage.newestFirst.sublist ((List.take_sublist kept _).trans List.filter_sublist)
      · rw [List.length_take]
        omega
      · intro item isItem leftOut other onPage
        obtain ⟨held, isKept⟩ := List.mem_filter.mp isItem
        by_cases itemOnPage : item ∈ page
        · -- it is kept on the page, after the first ones
          have ordered := isPage.newestFirst.sublist (List.filter_sublist (p := keep))
          have later : item ∈ page.filter keep := List.mem_filter.mpr ⟨itemOnPage, isKept⟩
          rw [← List.take_append_drop kept (page.filter keep)] at ordered later
          exact (List.pairwise_append.mp ordered).2.2 other onPage item
            ((List.mem_append.mp later).resolve_left leftOut)
        · exact isPage.newest item held itemOnPage other
            (List.mem_filter.mp (List.mem_of_mem_take onPage)).1
    · have nothing : rest.filter keep = [] := by
        rw [List.filter_eq_nil_iff]
        intro item inRest isKept
        have onPage := noneOutside item (split.mem_iff.mpr (List.mem_append_right _ inRest)) isKept
        have splitNodup : (page ++ rest).Nodup := split.nodup_iff.mp distinct
        exact (List.nodup_append.mp splitNodup).2.2 item onPage item inRest rfl
      have sameKept : (page.filter keep).Perm (items.filter keep) := by
        have splitKept := split.filter keep
        rw [List.filter_append, nothing, List.append_nil] at splitKept
        exact splitKept.symm
      exact newestPage_take sameKept (isPage.newestFirst.sublist List.filter_sublist) kept

end

end

end Lib
