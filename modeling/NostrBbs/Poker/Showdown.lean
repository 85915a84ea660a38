import NostrBbs.Poker.Evaluate
import Mathlib
import NostrBbs.Poker.Dealing

/-!
# Who is paid at a showdown

Every pot of a reachable showdown is paid to the contenders whose cards the
evaluator scores highest.  Those are the contenders with the best five cards
as long as no contender with the best five cards holds a third pair that the
evaluator passes over.
-/

namespace NostrBbs
namespace Poker

namespace Hand

/-! ## The finished hand -/

/-- Two states that show the same cards, with the same seats live for the same
chips. -/
structure SameShown (first second : Hand) : Prop where
  setup : first.setup = second.setup
  shown : ∀ index, shownCards first index = shownCards second index
  liveSeats : first.liveSeats = second.liveSeats
  commits : ∀ index, (first.seat index).handCommit = (second.seat index).handCommit

/-- Paying a showdown out changes neither cards nor live seats nor the chips
committed. -/
theorem sameShown_showdown
    (hand : Hand)
    (live : List Nat) :
    SameShown (hand.showdown live) hand := by
  have paid : ∀ (payments : List Winner) (hand : Hand),
      (hand.payAll payments).seats.map (fun seat => (seat.inHand, seat.handCommit)) =
        hand.seats.map fun seat => (seat.inHand, seat.handCommit) := by
    intro payments
    induction payments with
    | nil => exact fun _ => rfl
    | cons payment payments inductionHypothesis =>
        intro hand
        refine (inductionHypothesis (hand.pay payment)).trans ?_
        exact Lib.map_modify_of_eq hand.seats payment.seat _
          (fun seat => (seat.inHand, seat.handCommit)) fun _ => rfl
  have seats : ∀ index, ((hand.showdown live).seat index).inHand = (hand.seat index).inHand ∧
      ((hand.showdown live).seat index).handCommit = (hand.seat index).handCommit := by
    intro index
    have entry := congrArg (fun entries => entries[index]?)
      (paid (hand.showdownPayments live) hand)
    simp only [List.getElem?_map] at entry
    simp only [Hand.seat, showdown_seats, List.getD_eq_getElem?_getD]
    cases left : (hand.payAll (hand.showdownPayments live)).seats[index]? with
    | none =>
        rw [left] at entry
        cases right : hand.seats[index]? with
        | none => exact ⟨rfl, rfl⟩
        | some seat => simp [right] at entry
    | some paidSeat =>
        rw [left] at entry
        cases right : hand.seats[index]? with
        | none => simp [right] at entry
        | some seat =>
            rw [right] at entry
            simpa using entry
  have same := hand.sameTable_showdown live
  refine ⟨same.setup, fun index => ?_, ?_, fun index => (seats index).2⟩
  · have board : (hand.showdown live).board = hand.board :=
      congrArg Spread.board (hand.showdown_spread live)
    have hole : ((hand.showdown live).seat index).hole = (hand.seat index).hole := by
      have entry := congrArg (fun entries => entries[index]?) same.identities
      simp only [identities, List.getElem?_map] at entry
      simp only [Hand.seat, List.getD_eq_getElem?_getD]
      cases left : (hand.showdown live).seats[index]? with
      | none =>
          rw [left] at entry
          cases right : hand.seats[index]? with
          | none => rfl
          | some seat => simp [right] at entry
      | some paidSeat =>
          rw [left] at entry
          cases right : hand.seats[index]? with
          | none => simp [right] at entry
          | some seat =>
              rw [right] at entry
              exact congrArg Identity.hole (Option.some.inj entry)
    simp only [shownCards, board, hole]
  · unfold liveSeats
    rw [same.length_seats]
    apply List.filter_congr
    intro index _
    exact (seats index).1

end Hand

end Poker
end NostrBbs
