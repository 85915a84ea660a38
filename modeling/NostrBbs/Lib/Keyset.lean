import Mathlib.Data.List.Sort

/-!
# Pages after a key

A walk over rows by pages: each page holds the first rows whose keys come after the last one
visited.  The rows may change between two pages; the keys that stay are visited all the same.
-/

namespace Lib

variable {Row Key : Type*} [LinearOrder Key]

/-- A key comes after a cursor; every key comes after none. -/
def After (cursor : Option Key) (key : Key) : Prop :=
  ∀ last ∈ cursor, last < key

instance (cursor : Option Key) (key : Key) : Decidable (After cursor key) :=
  decidable_of_iff (cursor.all fun last => decide (last < key)) (by
    cases cursor <;> simp [After])

/-- The first rows after a cursor, in the order of their keys. -/
def keysetPage
    (key : Row → Key)
    (limit : Nat)
    (cursor : Option Key)
    (rows : List Row) : List Row :=
  ((rows.filter fun row => After cursor (key row)).mergeSort
    fun first second => key first ≤ key second).take limit

section Pages

variable {key : Row → Key} {limit : Nat} {cursor : Option Key} {rows : List Row} {row : Row}

theorem mem_following :
    row ∈ (rows.filter fun row => After cursor (key row)).mergeSort
        (fun first second => key first ≤ key second) ↔
      row ∈ rows ∧ After cursor (key row) := by
  rw [List.mem_mergeSort, List.mem_filter, decide_eq_true_iff]

theorem mem_of_keysetPage
    (inPage : row ∈ keysetPage key limit cursor rows) :
    row ∈ rows ∧ After cursor (key row) :=
  mem_following.mp (List.mem_of_mem_take inPage)

theorem following_sorted :
    ((rows.filter fun row => After cursor (key row)).mergeSort
      fun first second => key first ≤ key second).Pairwise fun first second =>
        key first ≤ key second := by
  apply List.Pairwise.imp of_decide_eq_true
  apply List.pairwise_mergeSort
  · intro first second third isFirst isSecond
    rw [decide_eq_true_iff] at isFirst isSecond ⊢
    exact isFirst.trans isSecond
  · intro first second
    rw [Bool.or_eq_true, decide_eq_true_iff, decide_eq_true_iff]
    exact le_total _ _

/-- The keys of a page ascend. -/
theorem keysetPage_ascends
    (distinct : (rows.map key).Nodup) :
    (keysetPage key limit cursor rows).Pairwise fun first second => key first < key second := by
  have apart : ((rows.filter fun row => After cursor (key row)).mergeSort
      fun first second => key first ≤ key second).Pairwise fun first second =>
        key first ≠ key second := by
    have kept : ((rows.filter fun row => After cursor (key row)).map key).Nodup :=
      distinct.sublist (List.filter_sublist.map key)
    rw [← List.pairwise_map (R := (· ≠ ·))]
    exact ((List.mergeSort_perm _ _).map key).nodup_iff.mpr kept
  exact ((following_sorted.and apart).imp fun both => lt_of_le_of_ne both.1 both.2).sublist
    (List.take_sublist _ _)

/-- A row that comes no later than one of a page is in the page. -/
theorem keysetPage_reaches
    (distinct : (rows.map key).Nodup)
    (isRow : row ∈ rows)
    (isAfter : After cursor (key row))
    {other : Row}
    (inPage : other ∈ keysetPage key limit cursor rows)
    (noLater : key row ≤ key other) :
    row ∈ keysetPage key limit cursor rows := by
  have following := mem_following.mpr ⟨isRow, isAfter⟩
  have sorted : ((rows.filter fun row => After cursor (key row)).mergeSort
      fun first second => key first ≤ key second).Pairwise fun first second =>
        key first ≤ key second := following_sorted
  rw [← List.take_append_drop limit ((rows.filter fun row => After cursor (key row)).mergeSort
    fun first second => key first ≤ key second)] at following sorted
  rcases List.mem_append.mp following with inTake | inDrop
  · exact inTake
  · have sameKey : key row = key other :=
      noLater.antisymm ((List.pairwise_append.mp sorted).2.2 other inPage row inDrop)
    rw [List.inj_on_of_nodup_map distinct isRow (mem_of_keysetPage inPage).1 sameKey]
    exact inPage

/-- A page that is not full holds every row after its cursor. -/
theorem keysetPage_short
    (short : (keysetPage key limit cursor rows).length < limit)
    (isRow : row ∈ rows)
    (isAfter : After cursor (key row)) :
    row ∈ keysetPage key limit cursor rows := by
  unfold keysetPage at short ⊢
  rw [List.length_take] at short
  rw [List.take_of_length_le (by omega)]
  exact mem_following.mpr ⟨isRow, isAfter⟩

end Pages

/-! ## Walks -/

/-- Of the keys that stay, those after the start of a walk and up to its cursor are visited. -/
def Covered (stays : Set Key) (start cursor : Option Key) (visited : List Key) : Prop :=
  ∀ key ∈ stays, After start key → (∃ last ∈ cursor, key ≤ last) → key ∈ visited

/-- What is left of a page: it ascends from the cursor, and skips no key that stays. -/
structure Remaining (stays : Set Key) (cursor : Option Key) (rest : List Key) : Prop where
  ascends : rest.Pairwise (· < ·)
  follows : ∀ key ∈ rest, After cursor key
  reaches : ∀ key ∈ stays, After cursor key → ∀ later ∈ rest, key ≤ later → key ∈ rest

variable {stays : Set Key} {start cursor : Option Key} {visited : List Key} {key : Key}
  {rest : List Key}

theorem covered_start :
    Covered stays start start [] := by
  rintro key - isAfter ⟨last, isLast, noLater⟩
  exact absurd (isAfter last isLast) noLater.not_gt

theorem remaining_keysetPage
    {keyOf : Row → Key}
    {rows : List Row}
    (limit : Nat)
    (distinct : (rows.map keyOf).Nodup)
    (held : ∀ key ∈ stays, ∃ row ∈ rows, keyOf row = key) :
    Remaining stays cursor ((keysetPage keyOf limit cursor rows).map keyOf) where
  ascends := List.pairwise_map.mpr (keysetPage_ascends distinct)
  follows := by
    intro key isKey
    obtain ⟨row, inPage, rfl⟩ := List.mem_map.mp isKey
    exact (mem_of_keysetPage inPage).2
  reaches := by
    intro key isStaying isAfter later isLater noLater
    obtain ⟨row, isRow, rfl⟩ := held key isStaying
    obtain ⟨other, inPage, rfl⟩ := List.mem_map.mp isLater
    exact List.mem_map_of_mem (keysetPage_reaches distinct isRow isAfter inPage noLater)

theorem Covered.mono
    {fewer : Set Key}
    {more : List Key}
    (covered : Covered stays start cursor visited)
    (fewerStay : fewer ⊆ stays)
    (visitedMore : visited ⊆ more) :
    Covered fewer start cursor more := by
  intro key isStaying isAfter upTo
  exact visitedMore (covered key (fewerStay isStaying) isAfter upTo)

/-- A walk goes on from where another one ended. -/
theorem Covered.append
    {middle : Option Key}
    {later : List Key}
    (first : Covered stays start middle visited)
    (second : Covered stays middle cursor later) :
    Covered stays start cursor (visited ++ later) := by
  intro key isStaying isAfter upTo
  rw [List.mem_append]
  by_cases isFurther : After middle key
  · exact .inr (second key isStaying isFurther upTo)
  · left
    unfold After at isFurther
    push Not at isFurther
    exact first key isStaying isAfter isFurther

/-- Visiting the next key of a page. -/
theorem Covered.visit
    (covered : Covered stays start cursor visited)
    (remaining : Remaining stays cursor (key :: rest)) :
    Covered stays start (some key) (visited ++ [key]) := by
  apply covered.append
  rintro other isStaying isFurther ⟨last, isLast, noLater⟩
  cases isLast
  have inPage := remaining.reaches other isStaying isFurther key List.mem_cons_self noLater
  rcases List.mem_cons.mp inPage with rfl | isLater
  · exact List.mem_singleton_self _
  · exact absurd ((List.pairwise_cons.mp remaining.ascends).1 other isLater) noLater.not_gt

theorem Remaining.visit
    (remaining : Remaining stays cursor (key :: rest)) :
    Remaining stays (some key) rest where
  ascends := (List.pairwise_cons.mp remaining.ascends).2
  follows := by
    rintro other isOther last ⟨⟩
    exact (List.pairwise_cons.mp remaining.ascends).1 other isOther
  reaches := by
    intro other isStaying isAfter later isLater noLater
    have isFurther : After cursor other := fun last isLast =>
      (remaining.follows key List.mem_cons_self last isLast).trans (isAfter key rfl)
    have inPage := remaining.reaches other isStaying isFurther later
      (List.mem_cons_of_mem _ isLater) noLater
    rcases List.mem_cons.mp inPage with isKey | inRest
    · exact absurd (isAfter key rfl) (isKey ▸ lt_irrefl _)
    · exact inRest

end Lib
