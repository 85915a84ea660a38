import Mathlib

/-!
# Updating one element of a list

What a change at one index does to membership, to a sum and to a count, and the
greatest element of a list of numbers.
-/

namespace Lib

variable {α : Type*}

/-- An element of an updated list is the changed one or an old one. -/
theorem mem_modify
    {items : List α}
    {index : Nat}
    {change : α → α}
    {item : α}
    (member : item ∈ items.modify index change) :
    (∃ old ∈ items, items[index]? = some old ∧ item = change old) ∨ item ∈ items := by
  obtain ⟨position, found⟩ := List.mem_iff_getElem?.mp member
  rw [List.getElem?_modify] at found
  by_cases here : index = position
  · subst here
    cases old : items[index]? with
    | none => simp [old] at found
    | some value =>
        refine .inl ⟨value, List.mem_of_getElem? old, rfl, ?_⟩
        simpa [old] using found.symm
  · refine .inr (List.mem_of_getElem? (i := position) ?_)
    simpa [here] using found

/-- What holds of all elements holds after an update whose new element keeps
it. -/
theorem forall_modify
    {items : List α}
    {index : Nat}
    {change : α → α}
    {before after : α → Prop}
    (all : ∀ item ∈ items, before item)
    (changed : ∀ item, items[index]? = some item → before item → after (change item))
    (others : ∀ item, before item → after item) :
    ∀ item ∈ items.modify index change, after item := by
  intro item member
  rcases mem_modify member with ⟨old, oldMember, found, rfl⟩ | oldMember
  · exact changed old found (all old oldMember)
  · exact others item (all item oldMember)

/-- A sum changes by the new value for the old one. -/
theorem sum_modify
    (items : List α)
    (index : Nat)
    (change : α → α)
    (value : α → Nat)
    (bound : index < items.length) :
    ((items.modify index change).map value).sum + value items[index] =
      (items.map value).sum + value (change items[index]) := by
  induction items generalizing index with
  | nil => simp at bound
  | cons item items inductionHypothesis =>
      cases index with
      | zero =>
          simp
          omega
      | succ index =>
          have shorter : index < items.length := by simpa using bound
          have tail := inductionHypothesis index shorter
          simp only [List.modify_succ_cons, List.map_cons, List.sum_cons,
            List.getElem_cons_succ]
          omega

/-- The values that an update does not touch. -/
theorem map_modify_of_eq
    {β : Type*}
    (items : List α)
    (index : Nat)
    (change : α → α)
    (value : α → β)
    (same : ∀ item, value (change item) = value item) :
    (items.modify index change).map value = items.map value := by
  induction items generalizing index with
  | nil => simp
  | cons item items inductionHypothesis =>
      cases index with
      | zero => simp [same]
      | succ index => simp [inductionHypothesis index]

/-- The values that an indexed map does not touch. -/
theorem map_mapIdx_of_eq
    {β : Type*}
    (items : List α)
    (change : Nat → α → α)
    (value : α → β)
    (same : ∀ index item, value (change index item) = value item) :
    (items.mapIdx change).map value = items.map value := by
  induction items generalizing change with
  | nil => simp
  | cons item items inductionHypothesis =>
      rw [List.mapIdx_cons, List.map_cons, List.map_cons, same,
        inductionHypothesis _ fun index item => same (index + 1) item]

/-- A map passes through an update of one element. -/
theorem map_modify_comm
    {β : Type*}
    (items : List α)
    (index : Nat)
    {change : α → α}
    {mapped : β → β}
    (value : α → β)
    (comm : ∀ item, value (change item) = mapped (value item)) :
    (items.modify index change).map value = (items.map value).modify index mapped := by
  induction items generalizing index with
  | nil => simp
  | cons item items inductionHypothesis =>
      cases index with
      | zero => simp [comm]
      | succ index => simp [inductionHypothesis index]

/-- A map passes through an indexed update. -/
theorem map_mapIdx_comm
    {β : Type*}
    (items : List α)
    {change : Nat → α → α}
    {mapped : Nat → β → β}
    (value : α → β)
    (comm : ∀ index item, value (change index item) = mapped index (value item)) :
    (items.mapIdx change).map value = (items.map value).mapIdx mapped := by
  apply List.ext_getElem?
  intro index
  rw [List.getElem?_map, List.getElem?_mapIdx, List.getElem?_mapIdx, List.getElem?_map]
  cases items[index]? with
  | none => rfl
  | some item => exact congrArg some (comm index item)

/-- A count depends on the tested values only. -/
theorem countP_eq_of_map_eq
    {first second : List α}
    {holds : α → Bool}
    (same : first.map holds = second.map holds) :
    first.countP holds = second.countP holds := by
  have counted : ∀ items : List α, items.countP holds = (items.map holds).countP id := by
    intro items
    rw [List.countP_map]
    rfl
  rw [counted, counted, same]

/-- One change lowers a count by at most one. -/
theorem countP_le_modify
    (items : List α)
    (index : Nat)
    (change : α → α)
    (holds : α → Bool) :
    items.countP holds ≤ (items.modify index change).countP holds + 1 := by
  induction items generalizing index with
  | nil => simp
  | cons item items inductionHypothesis =>
      cases index with
      | zero =>
          simp only [List.modify_zero_cons, List.countP_cons]
          split <;> split <;> omega
      | succ index =>
          have tail := inductionHypothesis index
          simp only [List.modify_succ_cons, List.countP_cons]
          omega

/-- An entry that contributes one item more adds that item to the whole. -/
theorem flatMap_modify_perm
    {α β : Type*}
    (values : List α)
    {index : Nat}
    (change : α → α)
    (items : α → List β)
    (item : β)
    (bound : index < values.length)
    (adds : ∀ value, items (change value) = items value ++ [item]) :
    ((values.modify index change).flatMap items).Perm (values.flatMap items ++ [item]) := by
  induction values generalizing index with
  | nil => simp at bound
  | cons value values inductionHypothesis =>
      cases index with
      | zero =>
          simp only [List.modify_zero_cons, List.flatMap_cons, adds, List.append_assoc]
          exact List.Perm.append_left _ List.perm_append_comm
      | succ index =>
          simp only [List.modify_succ_cons, List.flatMap_cons, List.append_assoc]
          refine List.Perm.append_left _ (inductionHypothesis ?_)
          simpa using bound

/-! ## The greatest element -/

theorem foldl_max_le_iff
    (values : List Nat)
    (start bound : Nat) :
    values.foldl max start ≤ bound ↔ start ≤ bound ∧ ∀ value ∈ values, value ≤ bound := by
  induction values generalizing start with
  | nil => simp
  | cons value values inductionHypothesis =>
      simp only [List.foldl_cons, inductionHypothesis, List.forall_mem_cons, Nat.max_le]
      tauto

theorem le_foldl_max
    {values : List Nat}
    {start value : Nat}
    (member : value ∈ values) :
    value ≤ values.foldl max start :=
  ((foldl_max_le_iff values start _).mp le_rfl).2 value member

/-- The greatest of some numbers is one of them. -/
theorem foldl_max_mem
    {values : List Nat}
    (nonempty : values ≠ []) :
    values.foldl max 0 ∈ values := by
  have attained : ∀ start, values.foldl max start ∈ values ∨
      (values.foldl max start = start ∧ ∀ value ∈ values, value ≤ start) := by
    clear nonempty
    induction values with
    | nil => simp
    | cons value values inductionHypothesis =>
        intro start
        rw [List.foldl_cons]
        rcases inductionHypothesis (max start value) with found | ⟨same, below⟩
        · exact .inl (List.mem_cons_of_mem _ found)
        · rcases Nat.le_total start value with ascending | descending
          · rw [Nat.max_eq_right ascending] at same ⊢
            exact .inl (by simp [same])
          · rw [Nat.max_eq_left descending] at same below ⊢
            refine .inr ⟨same, ?_⟩
            simpa [descending] using below
  rcases attained 0 with found | ⟨same, below⟩
  · exact found
  · obtain ⟨value, member⟩ := List.exists_mem_of_ne_nil values nonempty
    have isZero : value = 0 := Nat.le_zero.mp (below value member)
    rw [same]
    exact isZero ▸ member

end Lib
