import NostrBbs.Poker.Pots

/-!
# Settling a finished hand

A hand whose seats each hold or have committed what they started with, closed
with somebody to collect, pays out every chip: the refund and the pots make up
the commitments and the stacks add up to the starting stacks.
-/

namespace NostrBbs
namespace Poker

namespace Hand

/-- Every seat holds or has committed what it started with. -/
def Balanced (hand : Hand) : Prop :=
  ∀ seat ∈ hand.seats, seat.stack + seat.handCommit = seat.startStack

/-- A hand that may be finished. -/
structure Closing (hand : Hand) : Prop where
  seated : hand.Seated
  balanced : hand.Balanced
  live : 1 ≤ hand.liveSeats.length
  potContested : hand.liveSeats.length ≠ 1 → hand.PotContested

/-- The uncalled chips that go back when the hand is finished. -/
def refunded (hand : Hand) : Nat :=
  hand.uncalled.elim 0 Prod.snd

theorem chips_of_balanced
    {hand : Hand}
    (balanced : hand.Balanced) :
    hand.chipsBehind + hand.committed = hand.startStacks := by
  rw [chipsBehind, committed, startStacks, ← List.sum_map_add]
  congr 1
  exact List.map_congr_left balanced

/-! ## Frames of the finish -/

theorem liveSeats_congr
    {first second : Hand}
    (same : first.seats = second.seats) :
    first.liveSeats = second.liveSeats := by
  unfold liveSeats inHand seat
  rw [same]

@[simp] theorem refundUncalled_phase (hand : Hand) :
    hand.refundUncalled.phase = hand.phase := by
  unfold refundUncalled
  split <;> rfl

@[simp] theorem payAll_phase (hand : Hand) (payments : List Winner) :
    (hand.payAll payments).phase = hand.phase := by
  induction payments generalizing hand with
  | nil => rfl
  | cons payment payments inductionHypothesis => exact inductionHypothesis (hand.pay payment)

/-! ## Paying -/

theorem payAll_chipsBehind
    (hand : Hand)
    (payments : List Winner)
    (atTable : ∀ payment ∈ payments, payment.seat < hand.seats.length) :
    (hand.payAll payments).chipsBehind =
      hand.chipsBehind + (payments.map Winner.amount).sum := by
  induction payments generalizing hand with
  | nil => simp [payAll]
  | cons payment payments inductionHypothesis =>
      rw [List.forall_mem_cons] at atTable
      have later := inductionHypothesis (hand.pay payment)
        (by simpa [pay] using atTable.2)
      have paid := Lib.sum_modify hand.seats payment.seat
        (fun seat => { seat with stack := seat.stack + payment.amount }) Seat.stack atTable.1
      simp only [List.map_cons, List.sum_cons]
      change ((hand.pay payment).payAll payments).chipsBehind = _
      rw [later]
      simp only [chipsBehind, pay, modifySeat_seats]
      dsimp only at paid
      omega

theorem payAll_committed
    (hand : Hand)
    (payments : List Winner) :
    (hand.payAll payments).committed = hand.committed := by
  induction payments generalizing hand with
  | nil => rfl
  | cons payment payments inductionHypothesis =>
      exact (inductionHypothesis (hand.pay payment)).trans (congrArg List.sum
        (Lib.map_modify_of_eq hand.seats _ _ Seat.handCommit fun _ => rfl))

/-! ## The uncalled tail -/

/-- What an uncalled tail says of the commitments: the top seat is live, the
rest of its commitment is the next highest, and no chips are left beside it when
there is no next. -/
theorem uncalled_spec
    {hand : Hand}
    {top refund : Nat}
    (found : hand.uncalled = some (top, refund)) :
    hand.inHand top ∧ ∃ called, (hand.seat top).handCommit = called + refund ∧
      0 < refund ∧ (called = 0 → hand.committed = refund) := by
  unfold uncalled at found
  dsimp only at found
  split at found
  · rename_i first second rest sorted
    split at found
    · rename_i tail
      obtain ⟨rfl, rfl⟩ := Prod.mk.inj (Option.some.inj found)
      have permuted : (first :: second :: rest).Perm (hand.seats.map Seat.handCommit) :=
        sorted ▸ List.perm_insertionSort _ _
      have ordered : (first :: second :: rest).Pairwise (· ≥ ·) :=
        sorted ▸ List.pairwise_insertionSort _ _
      have present : ∃ commit ∈ hand.seats.map Seat.handCommit, (commit == first) = true :=
        ⟨first, permuted.subset List.mem_cons_self, by simp⟩
      have bound := List.findIdx_lt_length_of_exists present
      have owned := List.findIdx_getElem (w := bound)
      rw [beq_iff_eq, List.getElem_map] at owned
      refine ⟨tail.2, second, ?_, by omega, ?_⟩
      · rw [hand.seat_eq_getElem (by simpa using bound), owned]
        omega
      · rintro rfl
        have nothing : rest.sum = 0 := by
          refine List.sum_eq_zero fun commit member => ?_
          exact Nat.le_zero.mp (List.rel_of_pairwise_cons ordered.of_cons member)
        rw [committed, ← permuted.sum_eq, List.sum_cons, List.sum_cons, nothing]
        omega
    · cases found
  · cases found

theorem refundUncalled_some
    {hand : Hand}
    {top refund : Nat}
    (found : hand.uncalled = some (top, refund)) :
    hand.refundUncalled.seats = hand.seats.modify top fun seat =>
      { seat with
        stack := seat.stack + refund
        handCommit := seat.handCommit - refund } := by
  simp [refundUncalled, found]

theorem refundUncalled_none
    {hand : Hand}
    (found : hand.uncalled = none) :
    hand.refundUncalled = hand := by
  simp [refundUncalled, found]

theorem refundUncalled_balanced
    {hand : Hand}
    (balanced : hand.Balanced) :
    hand.refundUncalled.Balanced := by
  cases found : hand.uncalled with
  | none => rwa [refundUncalled_none found]
  | some tail =>
      obtain ⟨top, refund⟩ := tail
      obtain ⟨isLive, called, owned, _, _⟩ := uncalled_spec found
      rw [Balanced, refundUncalled_some found]
      refine Lib.forall_modify balanced ?_ fun _ kept => kept
      intro seat here kept
      have isTop : hand.seat top = seat := by simp [Hand.seat, here]
      rw [isTop] at owned
      dsimp only
      omega

/-- The refund comes out of the commitments. -/
theorem refundUncalled_committed
    (hand : Hand) :
    hand.refundUncalled.committed + hand.refunded = hand.committed := by
  cases found : hand.uncalled with
  | none => simp [refundUncalled_none found, refunded, found]
  | some tail =>
      obtain ⟨top, refund⟩ := tail
      obtain ⟨isLive, called, owned, _, _⟩ := uncalled_spec found
      have bound := lt_of_inHand isLive
      have changed := Lib.sum_modify hand.seats top
        (fun seat => { seat with
          stack := seat.stack + refund
          handCommit := seat.handCommit - refund }) Seat.handCommit bound
      rw [hand.seat_eq_getElem bound] at owned
      simp only [committed, refundUncalled_some found, refunded, found, Option.elim_some]
      dsimp only at changed
      omega

theorem refundUncalled_inHand
    (hand : Hand)
    (index : Nat) :
    hand.refundUncalled.inHand index = hand.inHand index := by
  cases found : hand.uncalled with
  | none => rw [refundUncalled_none found]
  | some tail =>
      obtain ⟨top, refund⟩ := tail
      simp only [Hand.inHand, Hand.seat, refundUncalled_some found, List.getD_eq_getElem?_getD,
        List.getElem?_modify]
      cases hand.seats[index]? with
      | none => rfl
      | some seat => by_cases here : top = index <;> simp [here, Seat.inHand]

theorem refundUncalled_liveSeats
    (hand : Hand) :
    hand.refundUncalled.liveSeats = hand.liveSeats := by
  unfold liveSeats
  rw [hand.sameTable_refundUncalled.length_seats]
  apply List.filter_congr
  intro index _
  exact hand.refundUncalled_inHand index

theorem refundUncalled_potContested
    {hand : Hand}
    (potContested : hand.PotContested) :
    hand.refundUncalled.PotContested := by
  cases found : hand.uncalled with
  | none => rwa [refundUncalled_none found]
  | some tail =>
      obtain ⟨top, refund⟩ := tail
      obtain ⟨isLive, called, owned, _, alone⟩ := uncalled_spec found
      by_cases nobody : called = 0
      · left
        have total := hand.refundUncalled_committed
        rw [refunded, found, Option.elim_some, alone nobody] at total
        omega
      · right
        refine ⟨top, (hand.refundUncalled_inHand top).trans isLive, ?_⟩
        have bound := lt_of_inHand isLive
        rw [hand.seat_eq_getElem bound] at owned
        have lowered : (hand.refundUncalled.seat top).handCommit =
            hand.seats[top].handCommit - refund := by
          simp [Hand.seat, refundUncalled_some found, bound]
        omega

/-! ## The finish -/

/-- What settling a hand comes to: the pots hold the commitments less the
refund, their shares add up to them, and the stacks make up the table's
chips. -/
structure PaidOut (closing finished : Hand) (result : HandResult) : Prop where
  phase : finished.phase = .done
  result_eq : finished.result = some result
  sameTable : SameTable finished closing
  chipsBehind : finished.chipsBehind = closing.startStacks
  committed : (result.pots.map Pot.amount).sum = finished.committed
  refunded : (result.pots.map Pot.amount).sum + closing.refunded = closing.committed
  shares : ∀ pot ∈ result.pots,
    ((potShares finished pot).map Winner.amount).sum = pot.amount

theorem potShares_congr
    {first second : Hand}
    (same : first.setup = second.setup)
    (pot : Pot) :
    potShares first pot = potShares second pot := by
  have sameN : first.n = second.n := congrArg Setup.n same
  have sameButton : first.button = second.button := congrArg Setup.button same
  simp only [potShares, order, sameN, sameButton]

/-- A closed hand after the refund, ready to be paid out. -/
structure Refunded (closing hand : Hand) : Prop where
  phase : hand.phase = .done
  sameTable : SameTable hand closing
  seated : hand.Seated
  balanced : hand.Balanced
  liveSeats : hand.liveSeats = closing.liveSeats
  committed : hand.committed + closing.refunded = closing.committed

theorem refunded_close
    {hand : Hand}
    (seated : hand.Seated)
    (balanced : hand.Balanced) :
    Refunded hand hand.close.refundUncalled where
  phase := refundUncalled_phase _
  sameTable := hand.close.sameTable_refundUncalled.trans hand.sameTable_close
  seated := by
    have same := hand.close.sameTable_refundUncalled.trans hand.sameTable_close
    rw [Seated, same.n_eq, same.length_seats]
    exact seated
  balanced := refundUncalled_balanced balanced
  liveSeats := refundUncalled_liveSeats _
  committed := refundUncalled_committed _

/-- A pot has winners, each once and at the table. -/
def Won (hand : Hand) (pot : Pot) : Prop :=
  pot.winners ≠ [] ∧ pot.winners.Nodup ∧ ∀ index ∈ pot.winners, index < hand.n

/-- Payments of every committed chip, pot by pot, settle a refunded hand. -/
theorem paidOut_of_payments
    {closing hand finished : Hand}
    {result : HandResult}
    {payments : List Winner}
    (ready : Refunded closing hand)
    (paid : finished.seats = (hand.payAll payments).seats)
    (phase : finished.phase = .done)
    (setup : finished.setup = hand.setup)
    (resultEq : finished.result = some result)
    (atTable : ∀ payment ∈ payments, payment.seat < hand.seats.length)
    (paidTotal : (payments.map Winner.amount).sum = hand.committed)
    (potTotal : (result.pots.map Pot.amount).sum = hand.committed)
    (won : ∀ pot ∈ result.pots, hand.Won pot) :
    PaidOut closing finished result where
  phase := phase
  result_eq := resultEq
  sameTable := (sameTable_of_seats (setup.trans (hand.sameTable_payAll payments).setup.symm)
    paid).trans ((hand.sameTable_payAll payments).trans ready.sameTable)
  chipsBehind := by
    have total := hand.payAll_chipsBehind payments atTable
    rw [chipsBehind, paid, ← ready.sameTable.startStacks, ← chips_of_balanced ready.balanced, ← paidTotal]
    exact total
  committed := by
    rw [committed, paid, potTotal]
    exact (hand.payAll_committed payments).symm
  refunded := by
    rw [potTotal]
    exact ready.committed
  shares := by
    intro pot member
    obtain ⟨nonempty, distinct, bounded⟩ := won pot member
    rw [potShares_congr setup]
    exact sum_potShares nonempty distinct bounded

/-- A lone live seat collects every chip. -/
theorem foldOut_paidOut
    {closing hand : Hand}
    (ready : Refunded closing hand)
    {winner : Nat}
    (alone : hand.liveSeats = [winner]) :
    ∃ result, PaidOut closing (hand.foldOut winner) result := by
  have isLive : hand.inHand winner := by
    rw [← mem_liveSeats, alone]
    exact List.mem_singleton_self winner
  have bound := lt_of_inHand isLive
  have seats : (hand.foldOut winner).seats =
      (hand.payAll [⟨winner, hand.committed⟩]).seats :=
    rfl
  refine ⟨_, paidOut_of_payments ready seats ready.phase rfl rfl (by simpa using bound)
    (by simp) (by simp) ?_⟩
  intro pot member
  obtain rfl := List.mem_singleton.mp member
  refine ⟨by simp, by simp, ?_⟩
  rw [ready.seated]
  simpa using bound

theorem sidePots_won
    {hand : Hand}
    (seated : hand.Seated) :
    ∀ pot ∈ hand.showdownPots hand.liveSeats, hand.Won pot := by
  intro pot member
  obtain ⟨slice, sliceMember, rfl⟩ := List.mem_map.mp member
  obtain ⟨nonempty, distinct, within⟩ := awardPot_won hand
    (sidePots_contested hand slice sliceMember) hand.nodup_liveSeats
  refine ⟨nonempty, distinct, fun index indexMember => ?_⟩
  rw [seated]
  exact lt_of_inHand ((hand.mem_liveSeats index).mp (within index indexMember))

theorem showdown_phase (hand : Hand) (live : List Nat) :
    (hand.showdown live).phase = hand.phase := by
  rw [← hand.payAll_phase (hand.showdownPayments live)]
  simp only [showdown, record]

/-- Compared hands collect every pot. -/
theorem showdown_paidOut
    {closing hand : Hand}
    (ready : Refunded closing hand)
    (potContested : hand.PotContested) :
    ∃ result, PaidOut closing (hand.showdown hand.liveSeats) result := by
  have won := sidePots_won ready.seated
  have potTotal : ((hand.showdownPots hand.liveSeats).map Pot.amount).sum =
      hand.committed := by
    rw [showdownPots, List.map_map]
    exact sliceTotal_sidePots potContested
  have atTable : ∀ payment ∈ hand.showdownPayments hand.liveSeats,
      payment.seat < hand.seats.length := by
    intro payment member
    obtain ⟨pot, potMember, paid⟩ := List.mem_flatMap.mp member
    obtain ⟨_, distinct, bounded⟩ := won pot potMember
    rw [← ready.seated]
    exact bounded payment.seat
      ((map_seat_potShares distinct bounded).subset (List.mem_map_of_mem paid))
  have paidTotal : ((hand.showdownPayments hand.liveSeats).map Winner.amount).sum =
      hand.committed := by
    rw [← potTotal, showdownPayments, List.map_flatMap, List.flatMap_def, List.sum_flatten,
      List.map_map]
    congr 1
    apply List.map_congr_left
    intro pot potMember
    obtain ⟨nonempty, distinct, bounded⟩ := won pot potMember
    exact sum_potShares nonempty distinct bounded
  refine ⟨hand.showdownResult hand.liveSeats, ?_⟩
  exact paidOut_of_payments ready (hand.showdown_seats _)
    ((hand.showdown_phase _).trans ready.phase) (hand.showdown_setup _)
    (hand.showdown_result _) atTable paidTotal potTotal won

/-- Finishing a hand pays out every chip. -/
theorem finish_paidOut
    {hand : Hand}
    (closing : hand.Closing) :
    ∃ result, PaidOut hand hand.finish result := by
  have ready := refunded_close closing.seated closing.balanced
  cases liveEq : hand.liveSeats with
  | nil =>
      have some_ := closing.live
      simp [liveEq] at some_
  | cons winner rest =>
      cases rest with
      | nil =>
          simp only [finish, liveEq]
          exact foldOut_paidOut ready (ready.liveSeats.trans liveEq)
      | cons second rest =>
          have several : hand.liveSeats.length ≠ 1 := by simp [liveEq]
          have contested : hand.close.PotContested := closing.potContested several
          simp only [finish, liveEq]
          rw [← liveEq, ← ready.liveSeats]
          exact showdown_paidOut ready (refundUncalled_potContested contested)

end Hand

end Poker
end NostrBbs
