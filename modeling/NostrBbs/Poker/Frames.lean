import NostrBbs.Poker.Engine
import NostrBbs.Lib.Update

/-!
# What the engine leaves alone

The setup of a hand and the identities of its seats are fixed at the deal; the
lemmas here carry them, and the few other fields that proofs need, through
every operation.
-/

namespace NostrBbs
namespace Poker

/-- What is fixed before the first card is dealt. -/
structure Setup where
  n : Nat
  button : Nat
  sb : Nat
  bb : Nat
  ante : Nat
  seedHex : String
  deck : Deck
  limit : Bool

/-- What a seat keeps from the deal on. -/
structure Identity where
  name : String
  startStack : Nat
  hole : Option (List Card)
  out : Bool

def Seat.identity (seat : Seat) : Identity where
  name := seat.name
  startStack := seat.startStack
  hole := seat.hole
  out := seat.out

namespace Hand

def setup (hand : Hand) : Setup where
  n := hand.n
  button := hand.button
  sb := hand.sb
  bb := hand.bb
  ante := hand.ante
  seedHex := hand.seedHex
  deck := hand.deck
  limit := hand.limit

/-- What every seat keeps from the deal on. -/
def identities (hand : Hand) : List Identity :=
  hand.seats.map Seat.identity

/-! ## Frames -/

@[simp] theorem record_seats (hand : Hand) (entry : LogEntry) :
    (hand.record entry).seats = hand.seats :=
  rfl

@[simp] theorem modifySeat_seats (hand : Hand) (index : Nat) (change : Seat → Seat) :
    (hand.modifySeat index change).seats = hand.seats.modify index change :=
  rfl

@[simp] theorem commit_seats (hand : Hand) (index amount : Nat) (why : Option Ev) :
    (hand.commit index amount why).seats =
      hand.seats.modify index fun seat => seat.commit amount := by
  cases why <;> rfl

@[simp] theorem commit_setup (hand : Hand) (index amount : Nat) (why : Option Ev) :
    (hand.commit index amount why).setup = hand.setup := by
  cases why <;> rfl

@[simp] theorem commit_currentBet (hand : Hand) (index amount : Nat) (why : Option Ev) :
    (hand.commit index amount why).currentBet = hand.currentBet := by
  cases why <;> rfl

@[simp] theorem commit_phase (hand : Hand) (index amount : Nat) (why : Option Ev) :
    (hand.commit index amount why).phase = hand.phase := by
  cases why <;> rfl

theorem reopen_seats (hand : Hand) (raiser raiseSize : Nat) :
    (hand.reopen raiser raiseSize).seats = hand.seats.mapIdx fun index seat =>
      if index ≠ raiser then { seat with canRaise := true, acted := false } else seat :=
  rfl

theorem closeRaising_seats (hand : Hand) (raiser : Nat) :
    (hand.closeRaising raiser).seats = hand.seats.mapIdx fun index seat =>
      if index ≠ raiser ∧ seat.acted then { seat with canRaise := false } else seat :=
  rfl

@[simp] theorem dealStreetCards_seats (hand : Hand) :
    hand.dealStreetCards.seats = hand.seats := by
  unfold dealStreetCards
  split <;> rfl

@[simp] theorem dealStreetCards_setup (hand : Hand) :
    hand.dealStreetCards.setup = hand.setup := by
  unfold dealStreetCards
  split <;> rfl

@[simp] theorem dealStreetCards_phase (hand : Hand) :
    hand.dealStreetCards.phase = hand.phase := by
  unfold dealStreetCards
  split <;> rfl

@[simp] theorem dealStreetCards_currentBet (hand : Hand) :
    hand.dealStreetCards.currentBet = hand.currentBet := by
  unfold dealStreetCards
  split <;> rfl

@[simp] theorem dealStreetCards_street (hand : Hand) :
    hand.dealStreetCards.street = hand.street := by
  unfold dealStreetCards
  split <;> rfl

@[simp] theorem dealOut_seats (hand : Hand) (remaining : Nat) :
    (dealOut remaining hand).seats = hand.seats := by
  induction remaining generalizing hand with
  | zero => rfl
  | succ remaining inductionHypothesis =>
      rw [dealOut, inductionHypothesis, dealNextStreet, dealStreetCards_seats]

@[simp] theorem dealOut_setup (hand : Hand) (remaining : Nat) :
    (dealOut remaining hand).setup = hand.setup := by
  induction remaining generalizing hand with
  | zero => rfl
  | succ remaining inductionHypothesis =>
      rw [dealOut, inductionHypothesis, dealNextStreet, dealStreetCards_setup]
      rfl

@[simp] theorem enterStreet_seats (hand : Hand) :
    hand.enterStreet.seats = hand.seats.map Seat.resetStreet := by
  simp [enterStreet, dealNextStreet]

@[simp] theorem enterStreet_setup (hand : Hand) :
    hand.enterStreet.setup = hand.setup :=
  dealStreetCards_setup _

@[simp] theorem enterStreet_currentBet (hand : Hand) :
    hand.enterStreet.currentBet = 0 :=
  dealStreetCards_currentBet _

@[simp] theorem enterStreet_phase (hand : Hand) :
    hand.enterStreet.phase = hand.phase :=
  dealStreetCards_phase _

@[simp] theorem openHand_seats (hand : Hand) (headsUp : Bool) (sbSeat bbSeat : Nat) :
    (hand.openHand headsUp sbSeat bbSeat).seats = hand.seats :=
  rfl

@[simp] theorem openHand_currentBet (hand : Hand) (headsUp : Bool) (sbSeat bbSeat : Nat) :
    (hand.openHand headsUp sbSeat bbSeat).currentBet = hand.currentBet :=
  rfl

/-! ## The table -/

/-- Two states of one dealt hand: same setup and same seats. -/
structure SameTable (first second : Hand) : Prop where
  setup : first.setup = second.setup
  identities : first.identities = second.identities

theorem SameTable.refl (hand : Hand) : SameTable hand hand :=
  ⟨rfl, rfl⟩

theorem SameTable.trans
    {first second third : Hand}
    (left : SameTable first second)
    (right : SameTable second third) :
    SameTable first third :=
  ⟨left.setup.trans right.setup, left.identities.trans right.identities⟩

theorem SameTable.n_eq
    {first second : Hand}
    (same : SameTable first second) :
    first.n = second.n :=
  congrArg Setup.n same.setup

theorem SameTable.length_seats
    {first second : Hand}
    (same : SameTable first second) :
    first.seats.length = second.seats.length := by
  simpa [Hand.identities] using congrArg List.length same.identities

theorem SameTable.startStacks
    {first second : Hand}
    (same : SameTable first second) :
    first.startStacks = second.startStacks := by
  have total : ∀ hand : Hand,
      hand.startStacks = (hand.identities.map Identity.startStack).sum := by
    intro hand
    rw [Hand.identities, List.map_map]
    rfl
  rw [total, total, same.identities]

/-- Changing other fields of one seat keeps the table. -/
theorem sameTable_modify
    {hand next : Hand}
    {index : Nat}
    {change : Seat → Seat}
    (setup : next.setup = hand.setup)
    (seats : next.seats = hand.seats.modify index change)
    (identity : ∀ seat, (change seat).identity = seat.identity) :
    SameTable next hand where
  setup := setup
  identities := by
    unfold Hand.identities
    rw [seats]
    exact Lib.map_modify_of_eq hand.seats index change Seat.identity identity

theorem sameTable_of_seats
    {hand next : Hand}
    (setup : next.setup = hand.setup)
    (seats : next.seats = hand.seats) :
    SameTable next hand :=
  ⟨setup, by unfold Hand.identities; rw [seats]⟩

theorem sameTable_commit
    (hand : Hand)
    (index amount : Nat)
    (why : Option Ev) :
    SameTable (hand.commit index amount why) hand :=
  sameTable_modify (commit_setup ..) (commit_seats ..) fun _ => rfl

theorem sameTable_mapIdx
    {hand next : Hand}
    {change : Nat → Seat → Seat}
    (setup : next.setup = hand.setup)
    (seats : next.seats = hand.seats.mapIdx change)
    (identity : ∀ index seat, (change index seat).identity = seat.identity) :
    SameTable next hand where
  setup := setup
  identities := by
    unfold Hand.identities
    rw [seats]
    exact Lib.map_mapIdx_of_eq hand.seats change Seat.identity identity

theorem sameTable_putIn
    (hand : Hand)
    (index amount : Nat) :
    SameTable (hand.putIn index amount) hand :=
  sameTable_modify rfl rfl fun _ => rfl

theorem sameTable_raiseTo
    (hand : Hand)
    (index amount : Nat) :
    SameTable (hand.raiseTo index amount) hand := by
  have reopened : SameTable
      ((hand.putIn index amount).reopen index (amount - hand.currentBet))
      (hand.putIn index amount) :=
    sameTable_mapIdx rfl rfl fun position seat => by split <;> rfl
  have closed : SameTable ((hand.putIn index amount).closeRaising index)
      (hand.putIn index amount) :=
    sameTable_mapIdx rfl rfl fun position seat => by split <;> rfl
  unfold raiseTo
  dsimp only
  split
  · exact reopened.trans (hand.sameTable_putIn index amount)
  · exact closed.trans (hand.sameTable_putIn index amount)

theorem sameTable_markActed
    (hand : Hand)
    (index : Nat) :
    SameTable (hand.markActed index) hand :=
  sameTable_modify rfl rfl fun _ => rfl

theorem sameTable_enterStreet (hand : Hand) : SameTable hand.enterStreet hand where
  setup := hand.enterStreet_setup
  identities := by
    unfold Hand.identities
    rw [enterStreet_seats, List.map_map]
    rfl

theorem sameTable_refundUncalled (hand : Hand) : SameTable hand.refundUncalled hand := by
  unfold refundUncalled
  split
  · exact sameTable_modify rfl rfl fun _ => rfl
  · exact .refl hand

theorem sameTable_payAll
    (hand : Hand)
    (payments : List Winner) :
    SameTable (hand.payAll payments) hand := by
  induction payments generalizing hand with
  | nil => exact .refl hand
  | cons payment payments inductionHypothesis =>
      exact (inductionHypothesis (hand.pay payment)).trans
        (sameTable_modify rfl rfl fun _ => rfl)

theorem showdown_seats (hand : Hand) (live : List Nat) :
    (hand.showdown live).seats = (hand.payAll (hand.showdownPayments live)).seats := by
  simp only [showdown, record]

theorem showdown_setup (hand : Hand) (live : List Nat) :
    (hand.showdown live).setup = hand.setup := by
  rw [← (hand.sameTable_payAll (hand.showdownPayments live)).setup]
  simp only [showdown, record, setup]

theorem showdown_result (hand : Hand) (live : List Nat) :
    (hand.showdown live).result = some (hand.showdownResult live) :=
  rfl

theorem sameTable_showdown
    (hand : Hand)
    (live : List Nat) :
    SameTable (hand.showdown live) hand where
  setup := hand.showdown_setup live
  identities := by
    unfold Hand.identities
    rw [showdown_seats]
    exact (hand.sameTable_payAll _).identities

theorem sameTable_close (hand : Hand) : SameTable hand.close hand :=
  ⟨rfl, rfl⟩

theorem sameTable_foldOut
    (hand : Hand)
    (winner : Nat) :
    SameTable (hand.foldOut winner) hand :=
  sameTable_modify rfl rfl fun _ => rfl

/-- Finishing a hand keeps the table. -/
theorem sameTable_finish (hand : Hand) : SameTable hand.finish hand := by
  have refunded : SameTable hand.close.refundUncalled hand :=
    hand.close.sameTable_refundUncalled.trans hand.sameTable_close
  unfold finish
  dsimp only
  split
  · exact (sameTable_foldOut _ _).trans refunded
  · exact (sameTable_showdown _ _).trans refunded

theorem sameTable_dealOut
    (hand : Hand)
    (remaining : Nat) :
    SameTable (dealOut remaining hand) hand :=
  sameTable_of_seats (hand.dealOut_setup remaining) (hand.dealOut_seats remaining)

theorem sameTable_record
    (hand : Hand)
    (entry : LogEntry) :
    SameTable (hand.record entry) hand :=
  sameTable_of_seats rfl rfl

theorem sameTable_turnTo
    (hand : Hand)
    (index : Nat) :
    SameTable (hand.turnTo index) hand :=
  sameTable_of_seats rfl rfl

theorem sameTable_runOut (hand : Hand) : SameTable hand.runOut hand :=
  (sameTable_finish _).trans
    ((sameTable_record _ _).trans (hand.sameTable_dealOut (3 - hand.street)))

/-- Advancing a hand keeps the table. -/
theorem sameTable_advance (hand : Hand) : SameTable hand.advance hand := by
  have nextStreet : SameTable hand.nextStreet hand := by
    unfold Hand.nextStreet
    dsimp only
    split
    · exact (sameTable_runOut _).trans hand.sameTable_enterStreet
    · exact (sameTable_turnTo _ _).trans hand.sameTable_enterStreet
  unfold advance
  split
  · exact hand.sameTable_finish
  · split
    · split
      · exact hand.sameTable_runOut
      · exact hand.sameTable_turnTo _
    · split
      · exact hand.sameTable_runOut
      · split
        · exact hand.sameTable_finish
        · exact nextStreet

end Hand

end Poker
end NostrBbs
