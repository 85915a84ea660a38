import NostrBbs.Poker.Steps

/-!
# Side pots and shares

The pots cut from the commitments add up to every chip committed, each is
contested by live seats, and the shares of a pot, odd chips included, add up to
the pot.
-/

namespace NostrBbs
namespace Poker

/-- The chips of some slices. -/
def sliceTotal (cut : List Slice) : Nat :=
  (cut.map Prod.fst).sum

@[simp] theorem sliceTotal_nil : sliceTotal [] = 0 :=
  rfl

@[simp] theorem sliceTotal_cons (first : Slice) (rest : List Slice) :
    sliceTotal (first :: rest) = first.1 + sliceTotal rest := by
  simp [sliceTotal]

/-- A slice is contested by the live seats that reached a level, each of which
put at least one chip into it. -/
def Contested (hand : Hand) (live : List Nat) (slice : Slice) : Prop :=
  slice.2 ≠ [] ∧ slice.2.length ≤ slice.1 ∧
    ∃ level, 0 < level ∧ slice.2 = live.filter fun index => level ≤ (hand.seat index).handCommit

theorem Contested.sublist
    {hand : Hand}
    {live : List Nat}
    {slice : Slice}
    (contested : Contested hand live slice) :
    slice.2.Sublist live := by
  obtain ⟨_, _, level, _, isFiltered⟩ := contested
  rw [isFiltered]
  exact List.filter_sublist

/-! ## Cutting -/

/-- The seats that reached a level put at least a chip each above any lower
one. -/
theorem Hand.length_le_layer
    (hand : Hand)
    {previous level : Nat}
    (above : previous < level) :
    (hand.liveSeats.filter fun index => level ≤ (hand.seat index).handCommit).length ≤
      layer hand previous level := by
  have within : (hand.liveSeats.filter fun index =>
      level ≤ (hand.seat index).handCommit).Sublist
        ((List.range hand.seats.length).filter fun index =>
          level ≤ (hand.seat index).handCommit) :=
    List.filter_sublist.filter _
  refine Nat.le_trans within.length_le ?_
  rw [layer, ← hand.map_seat_range, List.map_map, List.length_map, List.length_range]
  generalize List.range hand.seats.length = indices
  induction indices with
  | nil => simp
  | cons index indices inductionHypothesis =>
      rw [List.filter_cons, List.map_cons, List.sum_cons]
      simp only [Function.comp, decide_eq_true_eq]
      split
      · rw [List.length_cons]
        omega
      · omega

theorem slices_contested
    (hand : Hand)
    (levels : List Nat)
    (previous : Nat)
    (ascending : (previous :: levels).Pairwise (· < ·)) :
    ∀ slice ∈ slices hand hand.liveSeats levels previous,
      Contested hand hand.liveSeats slice := by
  induction levels generalizing previous with
  | nil => simp [slices]
  | cons level levels inductionHypothesis =>
      have above : previous < level :=
        List.rel_of_pairwise_cons ascending List.mem_cons_self
      simp only [slices]
      split
      · rename_i kept
        rw [List.forall_mem_cons]
        exact ⟨⟨kept.1, hand.length_le_layer above, level, Nat.zero_lt_of_lt above, rfl⟩,
          inductionHypothesis level ascending.of_cons⟩
      · exact inductionHypothesis level ascending.of_cons

/-- The layers between ascending levels never count a chip twice. -/
theorem sliceTotal_slices_le
    (hand : Hand)
    (live levels : List Nat)
    (previous : Nat)
    (ascending : (previous :: levels).Pairwise (· ≤ ·)) :
    sliceTotal (slices hand live levels previous) ≤
      (hand.seats.map fun seat => seat.handCommit - previous).sum := by
  induction levels generalizing previous with
  | nil => simp [slices]
  | cons level levels inductionHypothesis =>
      have later := inductionHypothesis level ascending.of_cons
      have above : previous ≤ level :=
        List.rel_of_pairwise_cons ascending List.mem_cons_self
      have telescopes : layer hand previous level +
          (hand.seats.map fun seat => seat.handCommit - level).sum =
            (hand.seats.map fun seat => seat.handCommit - previous).sum := by
        rw [layer, ← List.sum_map_add]
        congr 1
        apply List.map_congr_left
        intro seat _
        omega
      simp only [slices]
      split
      · simp only [sliceTotal_cons]
        omega
      · omega

theorem mem_potLevels
    (hand : Hand)
    (live : List Nat)
    (level : Nat) :
    level ∈ potLevels hand live ↔
      0 < level ∧ ∃ index ∈ live, (hand.seat index).handCommit = level := by
  simp only [potLevels, List.mem_dedup, List.mem_insertionSort, List.mem_filter,
    List.mem_map, decide_eq_true_eq]
  exact and_comm

/-- The levels ascend from zero. -/
theorem pairwise_potLevels
    (hand : Hand)
    (live : List Nat) :
    (0 :: potLevels hand live).Pairwise (· < ·) := by
  rw [List.pairwise_cons]
  refine ⟨fun level member => ((mem_potLevels hand live level).mp member).1, ?_⟩
  have sorted : (potLevels hand live).Pairwise (· ≤ ·) :=
    (List.pairwise_insertionSort _ _).sublist (List.dedup_sublist _)
  have distinct : (potLevels hand live).Nodup := List.nodup_dedup _
  exact (sorted.and distinct).imp fun both => Nat.lt_of_le_of_ne both.1 both.2

/-- A live seat with chips in makes the first slice a real one. -/
theorem slices_ne_nil
    (hand : Hand)
    {index : Nat}
    (isLive : hand.inHand index)
    (paidIn : 0 < (hand.seat index).handCommit) :
    slices hand hand.liveSeats (potLevels hand hand.liveSeats) 0 ≠ [] := by
  cases levelsEq : potLevels hand hand.liveSeats with
  | nil =>
      have member := (mem_potLevels hand hand.liveSeats _).mpr
        ⟨paidIn, index, (hand.mem_liveSeats index).mpr isLive, rfl⟩
      rw [levelsEq] at member
      cases member
  | cons level levels =>
      obtain ⟨positive, owner, ownerLive, owned⟩ :=
        (mem_potLevels hand hand.liveSeats level).mp (by simp [levelsEq])
      have ownerIn := (hand.mem_liveSeats owner).mp ownerLive
      have contested : (hand.liveSeats.filter fun index =>
          level ≤ (hand.seat index).handCommit) ≠ [] := by
        apply List.ne_nil_of_mem (a := owner)
        rw [List.mem_filter]
        exact ⟨ownerLive, by simp [owned]⟩
      have paid : 0 < layer hand 0 level := by
        have counted : min (hand.seat owner).handCommit level - 0 ∈
            hand.seats.map fun seat => min seat.handCommit level - 0 :=
          List.mem_map_of_mem (hand.seat_mem (Hand.lt_of_inHand ownerIn))
        calc 0 < min (hand.seat owner).handCommit level - 0 := by omega
          _ ≤ layer hand 0 level :=
            List.single_le_sum (fun _ _ => Nat.zero_le _) _ counted
      simp [slices, contested, paid]

theorem sliceTotal_addToLast
    (leftover : Nat)
    {cut : List Slice}
    (nonempty : cut ≠ []) :
    sliceTotal (addToLast leftover cut) = sliceTotal cut + leftover := by
  induction cut with
  | nil => exact absurd rfl nonempty
  | cons first rest inductionHypothesis =>
      cases rest with
      | nil => simp [addToLast]
      | cons second rest =>
          have tail := inductionHypothesis (by simp)
          simp only [addToLast, sliceTotal_cons] at tail ⊢
          omega

section Growing

variable {property : Slice → Prop}

/-- What holds of every slice, and of a slice with chips added, holds after
chips are added to the last one. -/
theorem forall_addToLast
    (grows : ∀ slice more, property slice → property (slice.1 + more, slice.2))
    (leftover : Nat)
    {cut : List Slice}
    (holds : ∀ slice ∈ cut, property slice) :
    ∀ slice ∈ addToLast leftover cut, property slice := by
  induction cut with
  | nil => simp [addToLast]
  | cons first rest inductionHypothesis =>
      rw [List.forall_mem_cons] at holds
      cases rest with
      | nil => simpa [addToLast] using grows first leftover holds.1
      | cons second rest =>
          rw [addToLast, List.forall_mem_cons]
          exact ⟨holds.1, inductionHypothesis holds.2⟩

theorem forall_mergeInto
    (grows : ∀ slice more, property slice → property (slice.1 + more, slice.2))
    {current : Slice}
    {rest : List Slice}
    (first : property current)
    (holds : ∀ slice ∈ rest, property slice) :
    ∀ slice ∈ mergeInto current rest, property slice := by
  induction rest generalizing current with
  | nil => simpa [mergeInto] using first
  | cons next rest inductionHypothesis =>
      rw [List.forall_mem_cons] at holds
      unfold mergeInto
      split
      · exact inductionHypothesis (grows current next.1 first) holds.2
      · rw [List.forall_mem_cons]
        exact ⟨first, inductionHypothesis holds.1 holds.2⟩

theorem forall_mergeSlices
    (grows : ∀ slice more, property slice → property (slice.1 + more, slice.2))
    {cut : List Slice}
    (holds : ∀ slice ∈ cut, property slice) :
    ∀ slice ∈ mergeSlices cut, property slice := by
  cases cut with
  | nil => simp [mergeSlices]
  | cons first rest =>
      rw [List.forall_mem_cons] at holds
      exact forall_mergeInto grows holds.1 holds.2

/-- What holds of every slice cut, and of a slice with chips added, holds of
every pot. -/
theorem forall_sidePots
    (grows : ∀ slice more, property slice → property (slice.1 + more, slice.2))
    {hand : Hand}
    {live : List Nat}
    (holds : ∀ slice ∈ slices hand live (potLevels hand live) 0, property slice) :
    ∀ slice ∈ sidePots hand live, property slice := by
  unfold sidePots
  dsimp only
  apply forall_mergeSlices grows
  split
  · exact forall_addToLast grows _ holds
  · exact holds

end Growing

theorem sliceTotal_mergeInto
    (current : Slice)
    (rest : List Slice) :
    sliceTotal (mergeInto current rest) = current.1 + sliceTotal rest := by
  induction rest generalizing current with
  | nil => simp [mergeInto]
  | cons next rest inductionHypothesis =>
      unfold mergeInto
      split
      · rw [inductionHypothesis, sliceTotal_cons]
        omega
      · rw [sliceTotal_cons, inductionHypothesis, sliceTotal_cons]

/-- Some live seat has chips in, unless nobody has. -/
def Hand.PotContested (hand : Hand) : Prop :=
  hand.committed = 0 ∨ ∃ index, hand.inHand index ∧ 0 < (hand.seat index).handCommit

/-- The pots hold every chip committed. -/
theorem sliceTotal_sidePots
    {hand : Hand}
    (potContested : hand.PotContested) :
    sliceTotal (sidePots hand hand.liveSeats) = hand.committed := by
  have bounded := sliceTotal_slices_le hand hand.liveSeats
    (potLevels hand hand.liveSeats) 0
    ((pairwise_potLevels hand hand.liveSeats).imp Nat.le_of_lt)
  simp only [Nat.sub_zero] at bounded
  change _ ≤ hand.committed at bounded
  have merged : ∀ cut, sliceTotal (mergeSlices cut) = sliceTotal cut := by
    intro cut
    cases cut with
    | nil => rfl
    | cons first rest => rw [mergeSlices, sliceTotal_mergeInto, sliceTotal_cons]
  unfold sidePots
  dsimp only
  rw [merged]
  change sliceTotal (if 0 < hand.committed - sliceTotal _ then _ else _) = _
  split
  · rename_i leftover
    have nonempty : slices hand hand.liveSeats (potLevels hand hand.liveSeats) 0 ≠ [] := by
      rcases potContested with nothing | ⟨index, isLive, paidIn⟩
      · omega
      · exact slices_ne_nil hand isLive paidIn
    rw [sliceTotal_addToLast _ nonempty]
    change _ + (hand.committed - sliceTotal _) = _
    omega
  · omega

theorem sidePots_contested
    (hand : Hand) :
    ∀ slice ∈ sidePots hand hand.liveSeats, Contested hand hand.liveSeats slice := by
  apply forall_sidePots
  · rintro slice more ⟨nonempty, funded, eligible⟩
    exact ⟨nonempty, Nat.le_trans funded (Nat.le_add_right _ _), eligible⟩
  · exact slices_contested hand _ 0 (pairwise_potLevels hand hand.liveSeats)

/-! ## Sharing -/

theorem sum_dealShares
    (share remainder : Nat)
    (indices : List Nat) :
    ((dealShares share remainder indices).map Winner.amount).sum =
      share * indices.length + min remainder indices.length := by
  induction indices generalizing remainder with
  | nil => simp [dealShares]
  | cons index rest inductionHypothesis =>
      simp only [dealShares, List.map_cons, List.sum_cons, List.length_cons,
        inductionHypothesis, Nat.mul_add, Nat.mul_one]
      split <;> omega

theorem map_seat_dealShares
    (share remainder : Nat)
    (indices : List Nat) :
    (dealShares share remainder indices).map Winner.seat = indices := by
  induction indices generalizing remainder with
  | nil => rfl
  | cons index rest inductionHypothesis =>
      simp [dealShares, inductionHypothesis]

/-- A pot is paid to its winners, each once. -/
theorem map_seat_potShares
    {hand : Hand}
    {pot : Pot}
    (distinct : pot.winners.Nodup)
    (atTable : ∀ index ∈ pot.winners, index < hand.n) :
    ((potShares hand pot).map Winner.seat).Perm pot.winners := by
  rw [potShares, map_seat_dealShares]
  have ordered := (hand.order_perm (hand.button + 1)).nodup_iff.mpr List.nodup_range
  refine (List.perm_ext_iff_of_nodup (ordered.filter _) distinct).mpr ?_
  intro index
  rw [List.mem_filter, hand.mem_order, List.contains_iff_mem]
  exact ⟨fun both => both.2, fun member => ⟨atTable index member, member⟩⟩

/-- The shares of a pot, odd chips included, add up to the pot. -/
theorem sum_potShares
    {hand : Hand}
    {pot : Pot}
    (won : pot.winners ≠ [])
    (distinct : pot.winners.Nodup)
    (atTable : ∀ index ∈ pot.winners, index < hand.n) :
    ((potShares hand pot).map Winner.amount).sum = pot.amount := by
  have counted := (map_seat_potShares distinct atTable).length_eq
  rw [potShares, map_seat_dealShares] at counted
  rw [potShares, sum_dealShares, counted]
  have positive : 0 < pot.winners.length := List.length_pos_iff.mpr won
  have divides : pot.winners.length * (pot.amount / pot.winners.length) +
      pot.amount % pot.winners.length = pot.amount :=
    Nat.div_add_mod _ _
  have small : pot.amount % pot.winners.length < pot.winners.length :=
    Nat.mod_lt _ positive
  rw [Nat.mul_comm] at divides
  omega

/-- A contested pot is won by contenders, each once. -/
theorem awardPot_won
    (hand : Hand)
    {live : List Nat}
    {slice : Slice}
    (contested : Contested hand live slice)
    (distinct : live.Nodup) :
    (awardPot hand slice).winners ≠ [] ∧ (awardPot hand slice).winners.Nodup ∧
      ∀ index ∈ (awardPot hand slice).winners, index ∈ live := by
  have within := contested.sublist
  refine ⟨?_, (distinct.sublist within).filter _, ?_⟩
  · have scored : (slice.2.map fun index => (shownEval hand index).score) ≠ [] := by
      simpa using contested.1
    have attained := Lib.foldl_max_mem scored
    obtain ⟨index, member, best⟩ := List.mem_map.mp attained
    apply List.ne_nil_of_mem (a := index)
    exact List.mem_filter.mpr ⟨member, by simp [best]⟩
  · intro index member
    exact within.subset (List.mem_filter.mp member).1

end Poker
end NostrBbs
