import Mathlib
import NostrBbs.Lib.Table

/-!
# Counts and sums

Amounts entered under keys and what they add up to, the sum of a value over the rows of a
table, how often an entry occurs in a list put together from others, and when two lists
drawn from one table are the same up to their order.
-/

namespace Lib

/-! ## Tallies -/

section

variable {Key : Type*} [DecidableEq Key]

/-- What the entries of a key add up to. -/
def tally (entries : List (Key × Nat)) (key : Key) : Nat :=
  ((entries.filter fun entry => entry.1 = key).map Prod.snd).sum

variable {entries others : List (Key × Nat)} {entry : Key × Nat} {key : Key}

@[simp] theorem tally_nil (key : Key) :
    tally [] key = 0 :=
  rfl

@[simp] theorem tally_cons
    (entry : Key × Nat)
    (entries : List (Key × Nat))
    (key : Key) :
    tally (entry :: entries) key = (if entry.1 = key then entry.2 else 0) + tally entries key := by
  unfold tally
  by_cases named : entry.1 = key
  · simp [named]
  · simp [named]

@[simp] theorem tally_append
    (entries others : List (Key × Nat))
    (key : Key) :
    tally (entries ++ others) key = tally entries key + tally others key := by
  unfold tally
  rw [List.filter_append, List.map_append, List.sum_append]

/-- Fewer entries add up to no more. -/
theorem tally_le_of_sublist
    (fewer : entries.Sublist others)
    (key : Key) :
    tally entries key ≤ tally others key :=
  List.Sublist.sum_le_sum ((fewer.filter _).map _) fun _ _ => Nat.zero_le _

/-- A positive tally has an entry. -/
theorem exists_of_tally_pos
    (positive : 0 < tally entries key) :
    ∃ entry ∈ entries, entry.1 = key := by
  by_contra none
  have nothing : entries.filter (fun entry => entry.1 = key) = [] := by
    apply List.filter_eq_nil_iff.mpr
    intro entry held named
    exact none ⟨entry, held, of_decide_eq_true named⟩
  unfold tally at positive
  rw [nothing] at positive
  exact Nat.lt_irrefl 0 positive

/-- The first entry that a condition names, taken out of the tallies. -/
theorem tally_eraseP
    {condition : Key × Nat → Bool}
    (found : entries.find? condition = some entry)
    (key : Key) :
    tally entries key =
      (if entry.1 = key then entry.2 else 0) + tally (entries.eraseP condition) key := by
  induction entries with
  | nil => cases found
  | cons head entries inductionHypothesis =>
      by_cases named : condition head
      · rw [List.find?_cons_of_pos named] at found
        obtain rfl := Option.some.inj found
        rw [List.eraseP_cons_of_pos named, tally_cons]
      · rw [List.find?_cons_of_neg named] at found
        rw [List.eraseP_cons_of_neg named, tally_cons, tally_cons, inductionHypothesis found]
        omega

end

/-! ## Sums over keyed tables -/

namespace Table

variable {Row Key Value : Type*} {key : Row → Key} [AddCommMonoid Value]

/-- The sum of a value over the rows. -/
def sum (table : Table Row key) (value : Row → Value) : Value :=
  (table.rows.map value).sum

section

variable {table after : Table Row key} {value other : Row → Value}

@[simp] theorem sum_empty :
    (empty : Table Row key).sum value = 0 :=
  rfl

/-- A change of the rows that keeps their values keeps the sum. -/
theorem sum_updateWhere
    {condition : Row → Bool}
    {change : Row → Row}
    {keeps : ∀ row, key (change row) = key row}
    (same : ∀ row ∈ table.rows, condition row → value (change row) = value row) :
    (table.updateWhere condition change keeps).sum value = table.sum value := by
  unfold sum updateWhere
  rw [List.map_map]
  congr 1
  apply List.map_congr_left
  intro row held
  rw [Function.comp_apply]
  split
  · rename_i named
    exact same row held named
  · rfl

variable [DecidableEq Key] {row : Row}

theorem sum_insert
    (inserted : table.insert row = some after) :
    after.sum value = table.sum value + value row := by
  unfold sum
  rw [(insert_eq_some inserted).2, List.map_append, List.sum_append]
  simp

end

end Table

/-! ## Counting occurrences -/

section

variable {Item Entry Form : Type*} [DecidableEq Entry] [DecidableEq Form]

/-- An entry occurs as often as there are lists that hold it, when none holds it
twice. -/
theorem count_flatMap_of_nodup
    {lists : Item → List Entry}
    {items : List Item}
    (entry : Entry)
    (distinct : ∀ item ∈ items, (lists item).Nodup) :
    (items.flatMap lists).count entry =
      items.countP fun item => decide (entry ∈ lists item) := by
  induction items with
  | nil => rfl
  | cons item items inductionHypothesis =>
      have here : (lists item).count entry = if entry ∈ lists item then 1 else 0 :=
        (distinct item (List.mem_cons_self ..)).count
      have there := inductionHypothesis fun other isOther =>
        distinct other (List.mem_cons_of_mem _ isOther)
      rw [List.flatMap_cons, List.count_append, here, there, List.countP_cons, Nat.add_comm]
      simp

/-- Items that each stand for one entry are counted as their entries. -/
theorem countP_flatMap_of_single
    {Part : Type*}
    {lists : Item → List Part}
    {holds : Part → Bool}
    {property : Item → Bool}
    {items : List Item}
    (single : ∀ item ∈ items, ∃ only, lists item = [only] ∧ holds only = property item) :
    (items.flatMap lists).countP holds = items.countP property := by
  induction items with
  | nil => rfl
  | cons item items inductionHypothesis =>
      obtain ⟨only, isOnly, same⟩ := single item (List.mem_cons_self ..)
      have rest := inductionHypothesis fun other isOther =>
        single other (List.mem_cons_of_mem _ isOther)
      rw [List.flatMap_cons, isOnly, List.countP_append, rest, List.countP_singleton,
        List.countP_cons, same, Nat.add_comm]

/-- Two lists that hold every entry equally often are equally long. -/
theorem length_eq_of_countP_eq
    {Other : Type*}
    {entry : Item → Entry}
    {otherEntry : Other → Entry}
    {items : List Item}
    {others : List Other}
    (same : ∀ wanted, items.countP (fun item => entry item == wanted) =
      others.countP fun other => otherEntry other == wanted) :
    items.length = others.length := by
  have perm : (items.map entry).Perm (others.map otherEntry) := by
    rw [List.perm_iff_count]
    intro wanted
    rw [List.count_eq_countP, List.countP_map, List.count_eq_countP, List.countP_map]
    exact same wanted
  simpa using perm.length_eq

/-- Items are as many as those of each of the keys that they have. -/
theorem sum_map_countP
    {key : Item → Entry}
    {keys : List Entry}
    {items : List Item}
    (distinct : keys.Nodup)
    (covered : ∀ item ∈ items, key item ∈ keys) :
    (keys.map fun wanted => items.countP fun item => key item = wanted).sum = items.length := by
  have amongKeys : ∀ entry ∈ (items.map key : Multiset Entry), entry ∈ keys.toFinset := by
    intro entry isEntry
    obtain ⟨item, isItem, rfl⟩ := List.mem_map.mp (Multiset.mem_coe.mp isEntry)
    exact List.mem_toFinset.mpr (covered item isItem)
  have all := Multiset.sum_count_eq_card amongKeys
  rw [List.sum_toFinset _ distinct, Multiset.coe_card, List.length_map] at all
  rw [← all]
  refine congrArg List.sum (List.map_congr_left fun wanted isWanted => ?_)
  rw [Multiset.coe_count, List.count_eq_countP, List.countP_map]
  rfl

/-- At most one item has a property exactly when no two of them do. -/
theorem countP_le_one_iff_pairwise
    {property : Item → Bool}
    {items : List Item} :
    items.countP property ≤ 1 ↔
      items.Pairwise fun first second => ¬(property first ∧ property second) := by
  induction items with
  | nil => simp
  | cons item items inductionHypothesis =>
      rw [List.pairwise_cons, ← inductionHypothesis, List.countP_cons]
      cases has : property item with
      | false => simp
      | true =>
          have single : items.countP property = 0 ↔ ∀ other ∈ items, ¬property other :=
            List.countP_eq_zero
          simp only [if_true, true_and]
          rw [← single]
          omega

/-- Two lists drawn from a table show the same forms as often when they hold each
entry that has a form equally often; no two entries share a form. -/
theorem filterMap_perm_iff
    {table rows others : List Entry}
    {form : Entry → Option Form}
    (rowsDrawn : rows ⊆ table)
    (othersDrawn : others ⊆ table)
    (ownForm : ∀ first ∈ table, ∀ second ∈ table, ∀ shown,
      form first = some shown → form second = some shown → first = second) :
    (rows.filterMap form).Perm (others.filterMap form) ↔
      ∀ entry ∈ table, (form entry).isSome → rows.count entry = others.count entry := by
  have counted : ∀ {drawn : List Entry}, drawn ⊆ table →
      ∀ {entry shown}, entry ∈ table → form entry = some shown →
        (drawn.filterMap form).count shown = drawn.count entry := by
    intro drawn isDrawn entry shown member isShown
    rw [List.count_filterMap, List.count_eq_countP]
    apply List.countP_congr
    intro other isOther
    rw [beq_iff_eq, beq_iff_eq]
    constructor
    · exact fun otherShown => ownForm other (isDrawn isOther) entry member shown otherShown isShown
    · rintro rfl
      exact isShown
  rw [List.perm_iff_count]
  constructor
  · intro sameForms entry member hasForm
    obtain ⟨shown, isShown⟩ := Option.isSome_iff_exists.mp hasForm
    rw [← counted rowsDrawn member isShown, ← counted othersDrawn member isShown]
    exact sameForms shown
  · intro sameEntries shown
    by_cases held : ∃ entry ∈ table, form entry = some shown
    · obtain ⟨entry, member, isShown⟩ := held
      rw [counted rowsDrawn member isShown, counted othersDrawn member isShown]
      exact sameEntries entry member (by rw [isShown]; rfl)
    · have absent : ∀ {drawn : List Entry}, drawn ⊆ table →
          (drawn.filterMap form).count shown = 0 := by
        intro drawn isDrawn
        apply List.count_eq_zero.mpr
        intro isShown
        obtain ⟨entry, isEntry, sameForm⟩ := List.mem_filterMap.mp isShown
        exact held ⟨entry, isDrawn isEntry, sameForm⟩
      rw [absent rowsDrawn, absent othersDrawn]

end

end Lib
