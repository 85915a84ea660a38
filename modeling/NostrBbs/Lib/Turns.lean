import Mathlib.Data.List.Perm.Subperm
import Mathlib.Data.List.Rotate
import Mathlib.Data.Nat.ModEq

/-!
# Turns round a table

The places of a table going round from one of them, and whose turn it is: as long
as the places with something pending come before the others, the next place that
is active is pending, and passing the turn to it keeps them first.
-/

namespace Lib

/-- Every place of a table once, going round from one. -/
def around (size start : Nat) : List Nat :=
  (List.range size).map fun offset => (start + offset) % size

@[simp] theorem length_around (size start : Nat) : (around size start).length = size := by
  simp [around]

theorem lt_of_mem_around
    {size start place : Nat}
    (member : place ∈ around size start) :
    place < size := by
  obtain ⟨offset, offsetIn, rfl⟩ := List.mem_map.mp member
  rw [List.mem_range] at offsetIn
  exact Nat.mod_lt _ (by omega)

theorem nodup_around (size start : Nat) : (around size start).Nodup := by
  refine List.Nodup.map_on ?_ List.nodup_range
  intro first firstIn second secondIn same
  rw [List.mem_range] at firstIn secondIn
  have congruent : Nat.ModEq size first second := Nat.ModEq.add_left_cancel' start same
  rwa [Nat.ModEq, Nat.mod_eq_of_lt firstIn, Nat.mod_eq_of_lt secondIn] at congruent

/-- Going round meets every place once. -/
theorem around_perm
    (size start : Nat) :
    (around size start).Perm (List.range size) := by
  have atTable : around size start ⊆ List.range size :=
    fun place member => List.mem_range.mpr (lt_of_mem_around member)
  exact (List.subperm_of_subset (nodup_around size start) atTable).perm_of_length_le (by simp)

theorem mem_around
    (size start place : Nat) :
    place ∈ around size start ↔ place < size := by
  rw [(around_perm size start).mem_iff, List.mem_range]

/-- Starting further on is a rotation. -/
theorem around_add
    (size start offset : Nat) :
    around size (start + offset) = (around size start).rotate offset := by
  apply List.ext_getElem
  · simp
  · intro position _ _
    simp [around, List.getElem_rotate, Nat.add_comm, Nat.add_left_comm]

/-- Going round from a place met on the way. -/
theorem around_of_append
    {size start place : Nat}
    {front back : List Nat}
    (split : around size start = front ++ place :: back) :
    around size place = place :: back ++ front := by
  have bound : front.length < (around size start).length := by
    rw [split]
    simp
  have isPlace : (start + front.length) % size = place := by
    have here : (around size start)[front.length] = place := by simp [split]
    simpa [around] using here
  have sameRound : around size place = around size (start + front.length) := by
    rw [← isPlace]
    simp [around]
  rw [sameRound, around_add, split, List.rotate_append_length_eq]

/-- A place is met first from itself. -/
theorem around_self
    {size place : Nat}
    (bound : place < size) :
    ∃ rest, around size place = place :: rest ∧ around size (place + 1) = rest ++ [place] := by
  obtain ⟨front, back, split⟩ := List.append_of_mem ((mem_around size place place).mpr bound)
  have fromPlace := around_of_append split
  refine ⟨back ++ front, fromPlace, ?_⟩
  rw [around_add, fromPlace]
  simp

/-! ## The pending places -/

/-- The pending places come before the other active ones. -/
def PendingFirst (active : Nat → Bool) (pending : Nat → Prop) (places : List Nat) : Prop :=
  places.Pairwise fun earlier later =>
    active earlier → active later → pending later → pending earlier

theorem pendingFirst_of_all
    {active : Nat → Bool}
    {pending : Nat → Prop}
    {places : List Nat}
    (all : ∀ place ∈ places, active place → pending place) :
    PendingFirst active pending places := by
  refine List.pairwise_of_forall_mem_list ?_
  intro earlier earlierIn _ _ isActive _ _
  exact all earlier earlierIn isActive

/-- A place that has had its turn goes to the end. -/
theorem PendingFirst.passed
    {size place : Nat}
    {active after : Nat → Bool}
    {pending still : Nat → Prop}
    (bound : place < size)
    (ordered : PendingFirst active pending (around size place))
    (remaining : ∀ other, other ≠ place → after other → active other)
    (changed : (∀ other, other ≠ place → after other → (still other ↔ pending other)) ∨
      ∀ other, other ≠ place → after other → still other)
    (done : after place → ¬still place) :
    PendingFirst after still (around size (place + 1)) := by
  obtain ⟨rest, fromPlace, fromNext⟩ := around_self bound
  have distinct := nodup_around size place
  rw [fromPlace] at ordered distinct
  have others : ∀ other ∈ rest, other ≠ place :=
    fun other member same => (List.nodup_cons.mp distinct).1 (same ▸ member)
  rw [PendingFirst, fromNext, List.pairwise_append]
  refine ⟨?_, List.pairwise_singleton _ _, ?_⟩
  · rcases changed with same | all
    · refine (List.pairwise_cons.mp ordered).2.imp_of_mem ?_
      intro earlier later earlierIn laterIn first earlierAfter laterAfter laterStill
      have earlierActive := remaining earlier (others earlier earlierIn) earlierAfter
      have laterActive := remaining later (others later laterIn) laterAfter
      have laterPending := (same later (others later laterIn) laterAfter).mp laterStill
      exact (same earlier (others earlier earlierIn) earlierAfter).mpr
        (first earlierActive laterActive laterPending)
    · exact pendingFirst_of_all fun other member => all other (others other member)
  · intro earlier _ later isLast _ laterAfter laterStill
    obtain rfl := List.mem_singleton.mp isLast
    exact absurd laterStill (done laterAfter)

/-- The next active place is pending when any is, and the turn may pass to it. -/
theorem PendingFirst.next
    {size start next : Nat}
    {active : Nat → Bool}
    {pending : Nat → Prop}
    (ordered : PendingFirst active pending (around size start))
    (found : (around size start).find? active = some next)
    (waiting : ∃ place < size, active place ∧ pending place) :
    pending next ∧ PendingFirst active pending (around size next) := by
  obtain ⟨nextActive, front, back, split, inactive⟩ := List.find?_eq_some_iff_append.mp found
  have frontInactive : ∀ place ∈ front, active place = false := by
    intro place member
    simpa using inactive place member
  rw [PendingFirst, split, List.pairwise_append] at ordered
  obtain ⟨_, fromNext, _⟩ := ordered
  refine ⟨?_, ?_⟩
  · obtain ⟨place, bound, isActive, isPending⟩ := waiting
    have met : place ∈ front ++ next :: back := by
      rw [← split]
      exact (mem_around size start place).mpr bound
    rcases List.mem_append.mp met with before | after
    · rw [frontInactive place before] at isActive
      cases isActive
    · rcases List.mem_cons.mp after with rfl | behind
      · exact isPending
      · exact (List.pairwise_cons.mp fromNext).1 place behind nextActive isActive isPending
  · rw [PendingFirst, around_of_append split, List.pairwise_append]
    refine ⟨fromNext, ?_, ?_⟩
    · refine List.pairwise_of_forall_mem_list ?_
      intro earlier earlierIn _ _ isActive
      rw [frontInactive earlier earlierIn] at isActive
      cases isActive
    · intro _ _ later laterIn _ isActive
      rw [frontInactive later laterIn] at isActive
      cases isActive

end Lib
