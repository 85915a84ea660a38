import NostrBbs.Poker.Showdown

/-!
# What a seat may win

Pots are cut at the commitments of the live seats: each layer holds what every seat put in
between two of them, and the last pot holds besides what folded seats put in above all of
them.  A seat collects from the layers that it paid in full, so it collects at most what
each seat put in up to its own commitment, and the chips above it only when no live seat
committed more.
-/

namespace NostrBbs
namespace Poker

/-! ## Layers -/

/-- The chips above a level, over all seats. -/
def chipsAbove (hand : Hand) (level : Nat) : Nat :=
  (hand.seats.map fun seat => seat.handCommit - level).sum

/-- The live seats that paid up to a level. -/
def paidUpTo (hand : Hand) (live : List Nat) (level : Nat) : List Nat :=
  live.filter fun index => level ≤ (hand.seat index).handCommit

/-- Slices are layers between ascending levels, each contested by the live seats that paid
it in full; no live seat committed more than the last level, and the chips above it are
in the last layer. -/
def Layers (hand : Hand) (live : List Nat) : Nat → List Slice → Prop
  | _, [] => True
  | previous, first :: rest => ∃ level, previous < level ∧
      first.2 = paidUpTo hand live level ∧
      first.1 = layer hand previous level + (if rest = [] then chipsAbove hand level else 0) ∧
      (rest = [] → ∀ index ∈ live, (hand.seat index).handCommit ≤ level) ∧
      Layers hand live level rest

/-- The smaller of each seat's commitment and a seat's own, over all seats. -/
def Hand.reach (hand : Hand) (index : Nat) : Nat :=
  (hand.seats.map fun seat => min seat.handCommit (hand.seat index).handCommit).sum

/-- The chips above a seat's commitment, when no live seat committed more. -/
def Hand.deadAbove (hand : Hand) (index : Nat) : Nat :=
  if ∀ other ∈ hand.liveSeats, (hand.seat other).handCommit ≤ (hand.seat index).handCommit then
    chipsAbove hand (hand.seat index).handCommit
  else 0

section Cutting

variable {hand : Hand} {live levels : List Nat} {previous middle level : Nat}

/-- A layer is cut in two at a level between. -/
theorem layer_add_layer
    (below : previous ≤ middle)
    (above : middle ≤ level) :
    layer hand previous middle + layer hand middle level = layer hand previous level := by
  unfold layer
  rw [← List.sum_map_add]
  congr 1
  apply List.map_congr_left
  intro seat _
  omega

/-- A layer and the chips above it are the chips above its lower level. -/
theorem layer_add_chipsAbove
    (below : previous ≤ level) :
    layer hand previous level + chipsAbove hand level = chipsAbove hand previous := by
  unfold layer chipsAbove
  rw [← List.sum_map_add]
  congr 1
  apply List.map_congr_left
  intro seat _
  omega

/-- Every level of a live seat cuts a slice. -/
theorem slices_cons
    (hand : Hand)
    {index : Nat}
    (isLive : hand.inHand index)
    (owned : (hand.seat index).handCommit = level)
    (above : previous < level)
    (levels : List Nat) :
    slices hand hand.liveSeats (level :: levels) previous =
      (layer hand previous level, paidUpTo hand hand.liveSeats level) ::
        slices hand hand.liveSeats levels level := by
  have paid : index ∈ paidUpTo hand hand.liveSeats level := by
    rw [paidUpTo, List.mem_filter, decide_eq_true_eq]
    exact ⟨(hand.mem_liveSeats index).mpr isLive, owned.ge⟩
  have contested : paidUpTo hand hand.liveSeats level ≠ [] := List.ne_nil_of_mem paid
  have positive : 0 < layer hand previous level :=
    Nat.lt_of_lt_of_le (List.length_pos_iff.mpr contested) (hand.length_le_layer above)
  exact if_pos ⟨contested, positive⟩

theorem addToLast_zero (cut : List Slice) :
    addToLast 0 cut = cut := by
  induction cut with
  | nil => rfl
  | cons first rest inductionHypothesis =>
      cases rest with
      | nil => rfl
      | cons second rest => rw [addToLast, inductionHypothesis]

theorem addToLast_ne_nil
    (leftover : Nat)
    (first : Slice)
    (rest : List Slice) :
    addToLast leftover (first :: rest) ≠ [] := by
  cases rest with
  | nil => exact List.cons_ne_nil _ _
  | cons second rest => exact List.cons_ne_nil _ _

theorem mergeInto_ne_nil
    (current : Slice)
    (rest : List Slice) :
    mergeInto current rest ≠ [] := by
  induction rest generalizing current with
  | nil => exact List.cons_ne_nil _ _
  | cons next rest inductionHypothesis =>
      unfold mergeInto
      split
      · exact inductionHypothesis _
      · exact List.cons_ne_nil _ _

/-- Slices at all the levels of the live seats, with the chips above put to the last, are
layers. -/
theorem layers_addToLast
    {leftover : Nat}
    (ascending : (previous :: levels).Pairwise (· < ·))
    (owned : ∀ level ∈ levels, ∃ index, hand.inHand index ∧
      (hand.seat index).handCommit = level)
    (covered : ∀ index ∈ hand.liveSeats,
      (hand.seat index).handCommit ≤ previous ∨ (hand.seat index).handCommit ∈ levels)
    (total : sliceTotal (slices hand hand.liveSeats levels previous) + leftover =
      chipsAbove hand previous) :
    Layers hand hand.liveSeats previous
      (addToLast leftover (slices hand hand.liveSeats levels previous)) := by
  induction levels generalizing previous with
  | nil => trivial
  | cons level levels inductionHypothesis =>
      have above : previous < level := List.rel_of_pairwise_cons ascending List.mem_cons_self
      obtain ⟨owner, isLive, owns⟩ := owned level List.mem_cons_self
      rw [slices_cons hand isLive owns above levels] at total ⊢
      rw [sliceTotal_cons] at total
      have whole : layer hand previous level + chipsAbove hand level = chipsAbove hand previous :=
        layer_add_chipsAbove above.le
      have nextCovered : ∀ index ∈ hand.liveSeats,
          (hand.seat index).handCommit ≤ level ∨ (hand.seat index).handCommit ∈ levels := by
        intro index member
        rcases covered index member with below | isLevel
        · exact .inl (below.trans above.le)
        · exact (List.mem_cons.mp isLevel).imp_left Eq.le
      have rest := inductionHypothesis ascending.of_cons
        (fun other isLevel => owned other (List.mem_cons_of_mem _ isLevel)) nextCovered (by omega)
      cases levels with
      | nil =>
          have dead : leftover = chipsAbove hand level := by
            rw [slices, sliceTotal_nil] at total
            omega
          refine ⟨level, above, rfl, ?_, ?_, trivial⟩
          · rw [if_pos rfl, ← dead]
          · intro _ index member
            exact (nextCovered index member).resolve_right List.not_mem_nil
      | cons next levels =>
          obtain ⟨nextOwner, nextLive, nextOwns⟩ := owned next (by simp)
          have nextAbove : level < next :=
            List.rel_of_pairwise_cons ascending.of_cons List.mem_cons_self
          rw [slices_cons hand nextLive nextOwns nextAbove levels] at rest ⊢
          have nonempty := addToLast_ne_nil leftover
            (layer hand level next, paidUpTo hand hand.liveSeats next)
            (slices hand hand.liveSeats levels next)
          refine ⟨level, above, rfl, ?_, fun none => absurd none nonempty, rest⟩
          rw [if_neg nonempty, Nat.add_zero]

/-- Merging neighbours with the same contenders leaves layers. -/
theorem layers_mergeInto
    {current : Slice}
    {rest : List Slice}
    (layers : Layers hand live previous (current :: rest)) :
    Layers hand live previous (mergeInto current rest) := by
  induction rest generalizing current previous with
  | nil => exact layers
  | cons next rest inductionHypothesis =>
      obtain ⟨level, above, contenders, amount, -, later⟩ := layers
      rw [if_neg (List.cons_ne_nil _ _), Nat.add_zero] at amount
      unfold mergeInto
      split
      · rename_i same
        obtain ⟨last, beyond, nextContenders, nextAmount, covers, tail⟩ := later
        apply inductionHypothesis
        refine ⟨last, above.trans beyond, same.trans nextContenders, ?_, covers, tail⟩
        rw [amount, nextAmount, ← layer_add_layer above.le beyond.le, Nat.add_assoc]
      · have nonempty := mergeInto_ne_nil next rest
        refine ⟨level, above, contenders, ?_, fun none => absurd none nonempty,
          inductionHypothesis later⟩
        rw [if_neg nonempty, amount, Nat.add_zero]

/-- The pots are the slices with the chips above put to the last. -/
theorem sidePots_eq
    (hand : Hand)
    (live : List Nat) :
    sidePots hand live =
      mergeSlices (addToLast
        (hand.committed - sliceTotal (slices hand live (potLevels hand live) 0))
        (slices hand live (potLevels hand live) 0)) := by
  unfold sidePots
  dsimp only
  generalize slices hand live (potLevels hand live) 0 = cut
  rw [sliceTotal]
  split
  · rfl
  · rename_i none
    rw [Nat.eq_zero_of_not_pos none, addToLast_zero]

/-- The pots of the live seats are layers, from the first chip on. -/
theorem layers_sidePots (hand : Hand) :
    Layers hand hand.liveSeats 0 (sidePots hand hand.liveSeats) := by
  have ascending := pairwise_potLevels hand hand.liveSeats
  have owned : ∀ level ∈ potLevels hand hand.liveSeats, ∃ index, hand.inHand index ∧
      (hand.seat index).handCommit = level := by
    intro level isLevel
    obtain ⟨-, index, isLive, owns⟩ := (mem_potLevels hand hand.liveSeats level).mp isLevel
    exact ⟨index, (hand.mem_liveSeats index).mp isLive, owns⟩
  have covered : ∀ index ∈ hand.liveSeats, (hand.seat index).handCommit ≤ 0 ∨
      (hand.seat index).handCommit ∈ potLevels hand hand.liveSeats := by
    intro index isLive
    rcases Nat.eq_zero_or_pos (hand.seat index).handCommit with nothing | positive
    · exact .inl nothing.le
    · exact .inr ((mem_potLevels hand hand.liveSeats _).mpr ⟨positive, index, isLive, rfl⟩)
  have bounded := sliceTotal_slices_le hand hand.liveSeats (potLevels hand hand.liveSeats) 0
    (ascending.imp Nat.le_of_lt)
  have whole : hand.committed = chipsAbove hand 0 := by
    simp only [Hand.committed, chipsAbove, Nat.sub_zero]
  simp only [Nat.sub_zero] at bounded
  change _ ≤ hand.committed at bounded
  have cut : Layers hand hand.liveSeats 0 (addToLast (hand.committed - sliceTotal (slices hand
      hand.liveSeats (potLevels hand hand.liveSeats) 0))
        (slices hand hand.liveSeats (potLevels hand hand.liveSeats) 0)) :=
    layers_addToLast ascending owned covered (by omega)
  rw [sidePots_eq]
  cases pots : addToLast _ (slices hand hand.liveSeats (potLevels hand hand.liveSeats) 0) with
  | nil => trivial
  | cons first rest =>
      rw [pots] at cut
      exact layers_mergeInto cut

/-! ## What the layers hold -/

/-- The chips of the slices that a seat contests. -/
def contestedBy (cut : List Slice) (index : Nat) : Nat :=
  (cut.map fun slice => if index ∈ slice.2 then slice.1 else 0).sum

/-- A seat contests what every seat put in up to its commitment, and what is above only
when no live seat committed more. -/
theorem contestedBy_le
    {cut : List Slice}
    (layers : Layers hand hand.liveSeats previous cut)
    (index : Nat) :
    contestedBy cut index ≤
      layer hand previous (hand.seat index).handCommit + hand.deadAbove index := by
  induction cut generalizing previous with
  | nil => exact Nat.zero_le _
  | cons first rest inductionHypothesis =>
      obtain ⟨level, above, contenders, amount, covers, later⟩ := layers
      have tail := inductionHypothesis later
      have added : contestedBy (first :: rest) index =
          (if index ∈ first.2 then first.1 else 0) + contestedBy rest index := by
        rw [contestedBy, List.map_cons, List.sum_cons, contestedBy]
      rw [added]
      by_cases paid : index ∈ first.2
      · have reached : level ≤ (hand.seat index).handCommit := by
          rw [contenders, paidUpTo, List.mem_filter, decide_eq_true_eq] at paid
          exact paid.2
        have isLive : index ∈ hand.liveSeats := by
          rw [contenders, paidUpTo, List.mem_filter] at paid
          exact paid.1
        rw [if_pos paid, amount, ← layer_add_layer above.le reached]
        split
        · rename_i isLast
          have highest := covers isLast
          have same : (hand.seat index).handCommit = level :=
            Nat.le_antisymm (highest index isLive) reached
          have dead : hand.deadAbove index = chipsAbove hand level := by
            rw [Hand.deadAbove, if_pos (by rw [same]; exact highest), same]
          rw [isLast, dead, contestedBy, List.map_nil, List.sum_nil]
          omega
        · omega
      · rw [if_neg paid, Nat.zero_add]
        have less : layer hand level (hand.seat index).handCommit ≤
            layer hand previous (hand.seat index).handCommit := by
          apply List.sum_le_sum
          intro seat _
          omega
        omega

end Cutting

/-! ## What a seat collects -/

/-- The chips that a seat collected. -/
def wonBy (winners : List Winner) (index : Nat) : Nat :=
  ((winners.filter fun winner => winner.seat == index).map Winner.amount).sum

/-- A pot before it is won. -/
def Pot.slice (pot : Pot) : Slice :=
  (pot.amount, pot.contenders)

theorem wonBy_append
    (first second : List Winner)
    (index : Nat) :
    wonBy (first ++ second) index = wonBy first index + wonBy second index := by
  unfold wonBy
  rw [List.filter_append, List.map_append, List.sum_append]

theorem wonBy_le_sum
    (winners : List Winner)
    (index : Nat) :
    wonBy winners index ≤ (winners.map Winner.amount).sum := by
  have kept : ((winners.filter fun winner => winner.seat == index).map Winner.amount).Sublist
      (winners.map Winner.amount) :=
    List.filter_sublist.map _
  exact kept.sum_le_sum fun _ _ => Nat.zero_le _

theorem wonBy_eq_zero
    {winners : List Winner}
    {index : Nat}
    (absent : index ∉ winners.map Winner.seat) :
    wonBy winners index = 0 := by
  have none : (winners.filter fun winner => winner.seat == index) = [] := by
    rw [List.filter_eq_nil_iff]
    intro winner member same
    exact absent (List.mem_map.mpr ⟨winner, member, beq_iff_eq.mp same⟩)
  rw [wonBy, none]
  rfl

/-- What is reported of a seat is what was paid to it. -/
theorem wonBy_collected_le
    (hand : Hand)
    (payments : List Winner)
    (index : Nat) :
    wonBy (hand.collected payments) index ≤ wonBy payments index := by
  have own : ∀ seats : List Nat, seats.Nodup →
      wonBy (seats.map fun seat => ⟨seat, wonBy payments seat⟩) index ≤ wonBy payments index := by
    intro seats distinct
    induction seats with
    | nil => exact Nat.zero_le _
    | cons seat seats inductionHypothesis =>
        rw [List.nodup_cons] at distinct
        have split : wonBy ((seat :: seats).map fun seat => ⟨seat, wonBy payments seat⟩) index =
            wonBy [⟨seat, wonBy payments seat⟩] index +
              wonBy (seats.map fun seat => ⟨seat, wonBy payments seat⟩) index :=
          wonBy_append [_] _ index
        rw [split]
        by_cases same : seat = index
        · subst same
          have others : wonBy (seats.map fun seat => ⟨seat, wonBy payments seat⟩) seat = 0 := by
            apply wonBy_eq_zero
            rw [List.map_map]
            intro member
            obtain ⟨other, isOther, isSeat⟩ := List.mem_map.mp member
            exact distinct.1 (isSeat ▸ isOther)
          rw [others]
          simp [wonBy]
        · have nothing : wonBy [⟨seat, wonBy payments seat⟩] index = 0 :=
            wonBy_eq_zero (by simpa using Ne.symm same)
          rw [nothing, Nat.zero_add]
          exact inductionHypothesis distinct.2
  exact own _ (List.nodup_range.filter _)

/-- The payments of the pots to a seat are at most the pots that it contests. -/
theorem wonBy_payments_le
    {hand : Hand}
    (cut : List Slice)
    (won : ∀ slice ∈ cut, hand.Won (awardPot hand slice))
    (index : Nat) :
    wonBy ((cut.map (awardPot hand)).flatMap (potShares hand)) index ≤ contestedBy cut index := by
  induction cut with
  | nil => exact Nat.zero_le _
  | cons slice cut inductionHypothesis =>
      rw [List.forall_mem_cons] at won
      obtain ⟨⟨nonempty, distinct, atTable⟩, later⟩ := won
      rw [List.map_cons, List.flatMap_cons, wonBy_append, contestedBy, List.map_cons,
        List.sum_cons]
      refine Nat.add_le_add ?_ (inductionHypothesis later)
      split
      · have total := sum_potShares nonempty distinct atTable
        exact (wonBy_le_sum _ index).trans total.le
      · rename_i notContender
        apply Nat.le_of_eq
        apply wonBy_eq_zero
        rw [(map_seat_potShares distinct atTable).mem_iff]
        intro isWinner
        exact notContender (List.mem_filter.mp isWinner).1

/-! ## The finished hand -/

/-- How a finished hand pays its seats: nothing to a folded seat; to a live one at most
what every seat put in up to its commitment, and what folded seats put in above only when
no live seat committed more; and at a showdown in pots that are layers. -/
structure Hand.PaysWithinReach (hand : Hand) (result : HandResult) : Prop where
  folded : ∀ index, hand.inHand index = false → wonBy result.winners index = 0
  entitled : ∀ index, wonBy result.winners index ≤ hand.reach index + hand.deadAbove index
  layers : result.showdown = true →
    Layers hand hand.liveSeats 0 (result.pots.map Pot.slice)

namespace Hand

/-- Two states with the same commitments and the same live seats. -/
structure SameCommits (first second : Hand) : Prop where
  commits : first.seats.map Seat.handCommit = second.seats.map Seat.handCommit
  liveSeats : first.liveSeats = second.liveSeats

namespace SameCommits

variable {first second : Hand}

theorem handCommit
    (same : SameCommits first second)
    (index : Nat) :
    (first.seat index).handCommit = (second.seat index).handCommit := by
  have entry := congrArg (fun commits => commits[index]?) same.commits
  simp only [List.getElem?_map] at entry
  simp only [Hand.seat, List.getD_eq_getElem?_getD]
  cases left : first.seats[index]? <;> cases right : second.seats[index]? <;>
    simp_all

theorem sum_eq
    (same : SameCommits first second)
    (amount : Nat → Nat) :
    (first.seats.map fun seat => amount seat.handCommit).sum =
      (second.seats.map fun seat => amount seat.handCommit).sum := by
  have mapped := congrArg (fun commits => (commits.map amount).sum) same.commits
  simpa only [List.map_map, Function.comp_def] using mapped

theorem inHand
    (same : SameCommits first second)
    (index : Nat) :
    first.inHand index = second.inHand index := by
  rw [Bool.eq_iff_iff, ← mem_liveSeats, ← mem_liveSeats, same.liveSeats]

theorem layers
    (same : SameCommits first second)
    {previous : Nat}
    {cut : List Slice}
    (isCut : Layers second second.liveSeats previous cut) :
    Layers first first.liveSeats previous cut := by
  induction cut generalizing previous with
  | nil => trivial
  | cons slice rest inductionHypothesis =>
      obtain ⟨level, above, contenders, amount, covers, later⟩ := isCut
      refine ⟨level, above, ?_, ?_, ?_, inductionHypothesis later⟩
      · simp only [contenders, paidUpTo, same.liveSeats, same.handCommit]
      · rw [amount, layer, layer, chipsAbove, chipsAbove, same.sum_eq fun commit =>
          min commit level - previous, same.sum_eq fun commit => commit - level]
      · rw [same.liveSeats]
        simpa only [same.handCommit] using covers

theorem paysWithinReach
    (same : SameCommits first second)
    {result : HandResult}
    (pays : second.PaysWithinReach result) :
    first.PaysWithinReach result := by
  obtain ⟨folded, entitled, isCut⟩ := pays
  refine ⟨?_, ?_, fun isShowdown => same.layers (isCut isShowdown)⟩
  · intro index isFolded
    exact folded index ((same.inHand index).symm.trans isFolded)
  · intro index
    have bound := entitled index
    have sameReach : first.reach index = second.reach index := by
      rw [reach, reach, same.handCommit]
      exact same.sum_eq fun commit => min commit _
    have sameDead : first.deadAbove index = second.deadAbove index := by
      unfold deadAbove chipsAbove
      simp only [same.liveSeats, same.handCommit]
      rw [same.sum_eq fun commit => commit - _]
    rw [sameReach, sameDead]
    exact bound

end SameCommits

theorem sameCommits_of_map
    {first second : Hand}
    (same : first.seats.map (fun seat => (seat.inHand, seat.handCommit)) =
      second.seats.map fun seat => (seat.inHand, seat.handCommit)) :
    SameCommits first second where
  commits := by
    have mapped := congrArg (List.map Prod.snd) same
    simpa only [List.map_map, Function.comp_def] using mapped
  liveSeats := by
    have sameLength : first.seats.length = second.seats.length := by
      have lengths := congrArg List.length same
      simpa only [List.length_map] using lengths
    unfold Hand.liveSeats
    rw [sameLength]
    apply List.filter_congr
    intro index _
    have entry := congrArg (fun entries => entries[index]?) same
    simp only [List.getElem?_map] at entry
    simp only [Hand.inHand, Hand.seat, List.getD_eq_getElem?_getD]
    cases left : first.seats[index]? <;> cases right : second.seats[index]? <;>
      simp_all

/-- Payments change no commitment and no live seat. -/
theorem payAll_same
    (hand : Hand)
    (payments : List Winner) :
    (hand.payAll payments).seats.map (fun seat => (seat.inHand, seat.handCommit)) =
      hand.seats.map fun seat => (seat.inHand, seat.handCommit) := by
  induction payments generalizing hand with
  | nil => rfl
  | cons payment payments inductionHypothesis =>
      exact (inductionHypothesis (hand.pay payment)).trans (Lib.map_modify_of_eq hand.seats
        payment.seat _ (fun seat => (seat.inHand, seat.handCommit)) fun _ => rfl)

/-- A lone live seat wins every chip. -/
theorem foldOut_paysWithinReach
    {hand : Hand}
    {winner : Nat}
    (alone : hand.liveSeats = [winner])
    {result : HandResult}
    (finished : (hand.foldOut winner).result = some result) :
    (hand.foldOut winner).PaysWithinReach result := by
  have same : SameCommits (hand.foldOut winner) hand :=
    sameCommits_of_map (hand.payAll_same [⟨winner, hand.committed⟩])
  obtain rfl := Option.some.inj finished
  apply same.paysWithinReach
  refine ⟨?_, ?_, fun isShowdown => by cases isShowdown⟩
  · intro index isFolded
    apply wonBy_eq_zero
    intro isWinner
    rw [List.map_singleton, List.mem_singleton] at isWinner
    have isLive : hand.inHand index = true := by
      rw [← mem_liveSeats, alone, isWinner]
      exact List.mem_singleton_self winner
    rw [isLive] at isFolded
    cases isFolded
  · intro index
    by_cases isWinner : index = winner
    · subst isWinner
      have whole : hand.reach index + chipsAbove hand (hand.seat index).handCommit =
          hand.committed := by
        rw [reach, chipsAbove, ← List.sum_map_add, committed]
        congr 1
        apply List.map_congr_left
        intro seat _
        omega
      have dead : hand.deadAbove index = chipsAbove hand (hand.seat index).handCommit := by
        rw [deadAbove, if_pos]
        intro other isLive
        rw [alone, List.mem_singleton] at isLive
        rw [isLive]
      rw [dead, whole]
      exact (wonBy_le_sum _ index).trans (by simp)
    · have nothing : wonBy [⟨winner, hand.committed⟩] index = 0 :=
        wonBy_eq_zero (by simpa using isWinner)
      exact nothing.le.trans (Nat.zero_le _)

/-- Compared hands win what is within their reach. -/
theorem showdown_paysWithinReach
    {hand : Hand}
    (seated : hand.Seated)
    {result : HandResult}
    (finished : (hand.showdown hand.liveSeats).result = some result) :
    (hand.showdown hand.liveSeats).PaysWithinReach result := by
  have same : SameCommits (hand.showdown hand.liveSeats) hand := by
    apply sameCommits_of_map
    rw [showdown_seats]
    exact hand.payAll_same _
  rw [showdown_result] at finished
  obtain rfl := Option.some.inj finished
  have isCut := layers_sidePots hand
  have won : ∀ slice ∈ sidePots hand hand.liveSeats, hand.Won (awardPot hand slice) :=
    fun slice isSlice => sidePots_won seated _ (List.mem_map_of_mem isSlice)
  have collects : ∀ index, wonBy (hand.collected (hand.showdownPayments hand.liveSeats)) index ≤
      contestedBy (sidePots hand hand.liveSeats) index :=
    fun index => (wonBy_collected_le hand _ index).trans (wonBy_payments_le _ won index)
  apply same.paysWithinReach
  refine ⟨?_, ?_, ?_⟩
  · intro index isFolded
    have notLive : ∀ slice ∈ sidePots hand hand.liveSeats, index ∉ slice.2 := by
      intro slice isSlice isContender
      have isLive := (sidePots_contested hand slice isSlice).sublist.subset isContender
      rw [mem_liveSeats, isFolded] at isLive
      cases isLive
    have nothing : contestedBy (sidePots hand hand.liveSeats) index = 0 := by
      apply List.sum_eq_zero
      intro amount isAmount
      obtain ⟨slice, isSlice, rfl⟩ := List.mem_map.mp isAmount
      exact if_neg (notLive slice isSlice)
    exact Nat.le_zero.mp ((collects index).trans nothing.le)
  · intro index
    have bound := (collects index).trans (contestedBy_le isCut index)
    have sameReach : layer hand 0 (hand.seat index).handCommit = hand.reach index := by
      simp only [layer, reach, Nat.sub_zero]
    rw [sameReach] at bound
    exact bound
  · intro _
    have slices : (hand.showdownPots hand.liveSeats).map Pot.slice =
        sidePots hand hand.liveSeats := by
      rw [showdownPots, List.map_map]
      exact List.map_id _
    change Layers hand hand.liveSeats 0 ((hand.showdownPots hand.liveSeats).map Pot.slice)
    rw [slices]
    exact isCut

/-- Finishing a hand pays its seats within their reach. -/
theorem finish_paysWithinReach
    {hand : Hand}
    (closing : hand.Closing)
    {result : HandResult}
    (finished : hand.finish.result = some result) :
    hand.finish.PaysWithinReach result := by
  have ready := refunded_close closing.seated closing.balanced
  unfold finish at finished ⊢
  dsimp only at finished ⊢
  split at finished
  · rename_i winner alone
    exact foldOut_paysWithinReach (ready.liveSeats.trans alone) finished
  · rw [← ready.liveSeats] at finished ⊢
    exact showdown_paysWithinReach ready.seated finished

end Hand

/-- Every reachable hand that is over pays its seats within their reach. -/
theorem side_pots_pay_within_reach
    (config : HandConfig)
    (dealt : Hand)
    (accepted : newHand config = .ok dealt)
    (actions : List Action)
    (isOver : (Lib.run step dealt actions).inPlay = false) :
    ∃ result, (Lib.run step dealt actions).result = some result ∧
      (Lib.run step dealt actions).PaysWithinReach result := by
  have conserving := Lib.invariant_run
    (fun hand action => conserving_step hand action) (conserving_newHand accepted) actions
  obtain ⟨result, finished⟩ := conserving.result_of_over isOver
  refine ⟨result, finished, ?_⟩
  cases conserving with
  | playing phase _ _ _ => simp [Hand.inPlay, phase] at isOver
  | finished closing isClosing isFinished _ =>
      rw [isFinished] at finished ⊢
      exact Hand.finish_paysWithinReach isClosing finished

/-- A table whose small blind is short, and whose button is shorter than the big blind. -/
def shortTable : HandConfig where
  seats := [⟨"Button", 30⟩, ⟨"Short", 20⟩, ⟨"Deep", 1000⟩]
  button := 0
  sb := 50
  bb := 100
  ante := 0
  seedHex := "cdcdcdcdcdcdcdcdcdcdcdcdcdcdcdcdcdcdcdcdcdcdcdcdcdcdcdcdcdcdcdcd"
  limit := false

theorem shortTable_deals : ∃ dealt, newHand shortTable = .ok dealt := by
  cases outcome : newHand shortTable with
  | ok dealt => exact ⟨dealt, rfl⟩
  | error refusal =>
      have deals : (newHand shortTable).isOk = true := by decide +kernel
      rw [outcome] at deals
      cases deals

theorem side_pots_pay_within_reach_short :
    ∃ dealt result, newHand shortTable = .ok dealt ∧
      (Lib.run step dealt [⟨0, .call, none⟩, ⟨2, .fold, none⟩]).result = some result ∧
      (Lib.run step dealt [⟨0, .call, none⟩, ⟨2, .fold, none⟩]).PaysWithinReach result := by
  have ended : ((newHand shortTable).map fun dealt =>
      (Lib.run step dealt [⟨0, .call, none⟩, ⟨2, .fold, none⟩]).inPlay).toOption = some false := by
    decide +kernel
  obtain ⟨dealt, accepted⟩ := shortTable_deals
  rw [accepted] at ended
  obtain ⟨result, finished, pays⟩ :=
    side_pots_pay_within_reach shortTable dealt accepted _ (Option.some.inj ended)
  exact ⟨dealt, result, accepted, finished, pays⟩

/-- The big blind folds to two shorter all-ins: the button wins its chips above theirs. -/
theorem dead_money_exceeds_reach :
    ¬∀ (config : HandConfig) (dealt : Hand), newHand config = .ok dealt →
      ∀ (actions : List Action) (result : HandResult),
        (Lib.run step dealt actions).result = some result →
        ∀ index, wonBy result.winners index ≤ (Lib.run step dealt actions).reach index := by
  intro always
  have exceeds : ((newHand shortTable).map fun dealt =>
      (Lib.run step dealt [⟨0, .call, none⟩, ⟨2, .fold, none⟩]).result.any fun result =>
        (Lib.run step dealt [⟨0, .call, none⟩, ⟨2, .fold, none⟩]).reach 0 <
          wonBy result.winners 0).toOption = some true := by
    decide +kernel
  obtain ⟨dealt, accepted⟩ := shortTable_deals
  rw [accepted] at exceeds
  have more := Option.some.inj exceeds
  dsimp only at more
  cases finished : (Lib.run step dealt [⟨0, .call, none⟩, ⟨2, .fold, none⟩]).result with
  | none =>
      rw [finished] at more
      cases more
  | some result =>
      rw [finished] at more
      have bound := always shortTable dealt accepted _ result finished 0
      exact Nat.not_lt_of_le bound (of_decide_eq_true more)

end Poker
end NostrBbs
