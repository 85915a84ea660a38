import NostrBbs.Poker.Chips

/-!
# The cards in play

The hole cards and the board are together the cards taken off the top of the
deck, every seat dealt in holds two, and the board grows with the street.  A
hand is therefore shown down with two hole cards and five board cards a seat,
no card of them twice.
-/

namespace NostrBbs
namespace Poker

/-- How far the cards of a hand have been dealt. -/
structure Spread where
  deckPos : Nat
  board : List Card
  street : Nat

namespace Hand

def spread (hand : Hand) : Spread where
  deckPos := hand.deckPos
  board := hand.board
  street := hand.street

/-! ## Frames -/

theorem commit_spread (hand : Hand) (index amount : Nat) (why : Option Ev) :
    (hand.commit index amount why).spread = hand.spread := by
  cases why <;> rfl

theorem commit_result (hand : Hand) (index amount : Nat) (why : Option Ev) :
    (hand.commit index amount why).result = hand.result := by
  cases why <;> rfl

theorem refundUncalled_spread (hand : Hand) :
    hand.refundUncalled.spread = hand.spread := by
  unfold refundUncalled
  split <;> rfl

theorem payAll_spread (hand : Hand) (payments : List Winner) :
    (hand.payAll payments).spread = hand.spread := by
  induction payments generalizing hand with
  | nil => rfl
  | cons payment payments inductionHypothesis =>
      exact inductionHypothesis (hand.pay payment)

theorem showdown_spread (hand : Hand) (live : List Nat) :
    (hand.showdown live).spread = hand.spread := by
  rw [← hand.payAll_spread (hand.showdownPayments live)]
  simp only [showdown, record, spread]

theorem foldOut_phase (hand : Hand) (winner : Nat) :
    (hand.foldOut winner).phase = hand.phase :=
  rfl

theorem foldOut_spread (hand : Hand) (winner : Nat) :
    (hand.foldOut winner).spread = hand.spread :=
  rfl

theorem finish_phase (hand : Hand) : hand.finish.phase = .done := by
  unfold finish
  dsimp only
  split
  · rw [foldOut_phase, refundUncalled_phase]
    rfl
  · rw [showdown_phase, refundUncalled_phase]
    rfl

/-- Finishing a hand deals no cards. -/
theorem finish_spread (hand : Hand) : hand.finish.spread = hand.spread := by
  unfold finish
  dsimp only
  split
  · rw [foldOut_spread, refundUncalled_spread]
    rfl
  · rw [showdown_spread, refundUncalled_spread]
    rfl

theorem putIn_spread (hand : Hand) (index amount : Nat) :
    (hand.putIn index amount).spread = hand.spread :=
  rfl

theorem reopen_spread (hand : Hand) (raiser raiseSize : Nat) :
    (hand.reopen raiser raiseSize).spread = hand.spread :=
  rfl

theorem closeRaising_spread (hand : Hand) (raiser : Nat) :
    (hand.closeRaising raiser).spread = hand.spread :=
  rfl

theorem raiseTo_spread (hand : Hand) (index amount : Nat) :
    (hand.raiseTo index amount).spread = hand.spread := by
  unfold raiseTo
  dsimp only
  split
  · rw [reopen_spread, putIn_spread]
  · rw [closeRaising_spread, putIn_spread]

theorem reopen_result (hand : Hand) (raiser raiseSize : Nat) :
    (hand.reopen raiser raiseSize).result = hand.result :=
  rfl

theorem closeRaising_result (hand : Hand) (raiser : Nat) :
    (hand.closeRaising raiser).result = hand.result :=
  rfl

theorem raiseTo_result (hand : Hand) (index amount : Nat) :
    (hand.raiseTo index amount).result = hand.result := by
  have raised : (hand.putIn index amount).result = hand.result := rfl
  unfold raiseTo
  dsimp only
  split
  · rw [reopen_result, raised]
  · rw [closeRaising_result, raised]

theorem dealStreetCards_result (hand : Hand) :
    hand.dealStreetCards.result = hand.result := by
  unfold dealStreetCards
  split <;> rfl

/-! ## Off the top of the deck -/

/-- The hole cards and the board. -/
def dealtCards (hand : Hand) : List Card :=
  (hand.seats.flatMap fun seat => seat.hole.getD []) ++ hand.board

/-- As long as the deck lasts, the cards dealt are its first ones. -/
def FromDeck (hand : Hand) : Prop :=
  hand.deckPos ≤ 52 → hand.dealtCards.Perm (hand.deck.cards.take hand.deckPos)

/-- One card more off the deck. -/
theorem FromDeck.next
    {hand next : Hand}
    (fromDeck : hand.FromDeck)
    (deck : next.deck = hand.deck)
    (deckPos : next.deckPos = hand.deckPos + 1)
    (dealt : next.dealtCards.Perm (hand.dealtCards ++ [hand.topCard])) :
    next.FromDeck := by
  intro lasts
  have bound : hand.deckPos < hand.deck.cards.length := by
    rw [hand.deck.length_cards]
    omega
  have isTop : hand.deck.cards[hand.deckPos] = hand.topCard := by
    rw [topCard, List.getD_eq_getElem _ _ bound]
  rw [deck, deckPos, List.take_succ_eq_append_getElem bound, isTop]
  exact dealt.trans ((fromDeck (by omega)).append_right _)

theorem FromDeck.dealTo
    {hand : Hand}
    (fromDeck : hand.FromDeck)
    {index : Nat}
    (bound : index < hand.seats.length) :
    (hand.dealTo index).FromDeck := by
  refine fromDeck.next rfl rfl ?_
  have received := Lib.flatMap_modify_perm hand.seats
    (fun seat => seat.receive hand.topCard) (fun seat => seat.hole.getD []) hand.topCard
    bound fun _ => rfl
  unfold dealtCards
  rw [List.append_assoc]
  refine (received.append_right hand.board).trans ?_
  rw [List.append_assoc]
  exact List.perm_append_comm.append_left _

theorem FromDeck.dealBoard
    {hand : Hand}
    (fromDeck : hand.FromDeck) :
    hand.dealBoard.FromDeck := by
  refine fromDeck.next rfl rfl ?_
  unfold dealtCards
  rw [List.append_assoc]
  exact List.Perm.refl _

/-- The same cards on the same table. -/
theorem FromDeck.congr
    {hand next : Hand}
    (fromDeck : hand.FromDeck)
    (same : SameTable next hand)
    (spread : next.spread = hand.spread) :
    next.FromDeck := by
  have holes : ∀ hand : Hand, (hand.seats.flatMap fun seat => seat.hole.getD []) =
      hand.identities.flatMap fun identity => identity.hole.getD [] := by
    intro hand
    rw [identities, List.flatMap_map]
    rfl
  have deck : next.deck = hand.deck := congrArg Setup.deck same.setup
  have deckPos : next.deckPos = hand.deckPos := congrArg Spread.deckPos spread
  have board : next.board = hand.board := congrArg Spread.board spread
  unfold FromDeck dealtCards
  rw [holes, same.identities, ← holes, deck, deckPos, board]
  exact fromDeck

/-! ## A street's cards -/

/-- The board cards on a street. -/
def boardSize : Nat → Nat
  | 0 => 0
  | street + 1 => street + 3

/-- The cards of a hand in order. -/
structure Dealing (hand : Hand) : Prop where
  fromDeck : hand.FromDeck
  holes : ∀ seat ∈ hand.seats, seat.out = false → (seat.hole.getD []).length = 2
  onStreet : hand.street ≤ 3
  boardLength : hand.board.length = boardSize hand.street

theorem Dealing.congr
    {hand next : Hand}
    (dealing : hand.Dealing)
    (same : SameTable next hand)
    (spread : next.spread = hand.spread) :
    next.Dealing where
  fromDeck := dealing.fromDeck.congr same spread
  holes := by
    have readOff : ∀ hand : Hand, (∀ identity ∈ hand.identities, identity.out = false →
        (identity.hole.getD []).length = 2) ↔
          ∀ seat ∈ hand.seats, seat.out = false → (seat.hole.getD []).length = 2 := by
      intro hand
      rw [identities, List.forall_mem_map]
      rfl
    rw [← readOff, same.identities, readOff]
    exact dealing.holes
  onStreet := by
    rw [show next.street = hand.street from congrArg Spread.street spread]
    exact dealing.onStreet
  boardLength := by
    rw [show next.street = hand.street from congrArg Spread.street spread,
      show next.board = hand.board from congrArg Spread.board spread]
    exact dealing.boardLength

/-- Every street after the first deals its board cards. -/
theorem Dealing.dealNextStreet
    {hand : Hand}
    (dealing : hand.Dealing)
    (before : hand.street < 3) :
    hand.dealNextStreet.Dealing where
  fromDeck := by
    have entered : { hand with street := hand.street + 1 }.FromDeck := dealing.fromDeck
    unfold Hand.dealNextStreet dealStreetCards
    split
    · exact entered.dealBoard.dealBoard.dealBoard
    · exact entered.dealBoard
  holes := by
    unfold Hand.dealNextStreet
    rw [dealStreetCards_seats]
    exact dealing.holes
  onStreet := by
    unfold Hand.dealNextStreet
    rw [dealStreetCards_street]
    exact before
  boardLength := by
    have size := dealing.boardLength
    unfold Hand.dealNextStreet
    rw [dealStreetCards_street]
    unfold dealStreetCards
    split
    · rename_i isFlop
      have preflop : hand.street = 0 := by simpa using isFlop
      simp only [Hand.dealBoard, List.length_append, List.length_singleton, size, preflop]
      rfl
    · rename_i notFlop
      cases streetEq : hand.street with
      | zero => simp [streetEq] at notFlop
      | succ street =>
          simp only [Hand.dealBoard, List.length_append, List.length_singleton, size, streetEq]
          rfl

theorem dealNextStreet_street (hand : Hand) :
    hand.dealNextStreet.street = hand.street + 1 := by
  unfold dealNextStreet
  rw [dealStreetCards_street]

theorem enterStreet_street (hand : Hand) : hand.enterStreet.street = hand.street + 1 :=
  dealNextStreet_street _

/-- Running the board out ends on the river. -/
theorem Dealing.dealOut
    {hand : Hand}
    (dealing : hand.Dealing)
    {remaining : Nat}
    (room : hand.street + remaining ≤ 3) :
    (dealOut remaining hand).Dealing ∧
      (Hand.dealOut remaining hand).street = hand.street + remaining := by
  induction remaining generalizing hand with
  | zero => exact ⟨dealing, rfl⟩
  | succ remaining inductionHypothesis =>
      have street := hand.dealNextStreet_street
      obtain ⟨dealt, reached⟩ :=
        inductionHypothesis (dealing.dealNextStreet (by omega)) (by omega)
      refine ⟨dealt, ?_⟩
      rw [Hand.dealOut, reached, street]
      omega

theorem Dealing.enterStreet
    {hand : Hand}
    (dealing : hand.Dealing)
    (before : hand.street < 3) :
    hand.enterStreet.Dealing := by
  let reset : Hand :=
    { hand with
      seats := hand.seats.map Seat.resetStreet
      currentBet := 0
      minRaiseSize := hand.bb
      streetRaises := 0 }
  have same : SameTable reset hand := by
    refine ⟨rfl, ?_⟩
    simp only [reset, identities, List.map_map]
    rfl
  have dealt : reset.dealNextStreet.Dealing := (dealing.congr same rfl).dealNextStreet before
  exact dealt.congr (sameTable_record _ _) rfl

/-! ## The deal -/

/-- How many cards a seat holds. -/
def holeSize (hand : Hand) (index : Nat) : Nat :=
  ((hand.seat index).hole.getD []).length

theorem dealTo_seat
    (hand : Hand)
    {index : Nat}
    (bound : index < hand.seats.length)
    (other : Nat) :
    (hand.dealTo index).seat other =
      if other = index then (hand.seat other).receive hand.topCard else hand.seat other := by
  unfold dealTo seat
  simp only [modifySeat_seats, List.getD_eq_getElem?_getD, List.getElem?_modify]
  by_cases here : index = other
  · subst here
    simp [bound]
  · simp [here, Ne.symm here]

/-- Cards dealt in turn to some seats: one to each that is not out. -/
theorem dealEach_spec
    {hand : Hand}
    {indices : List Nat}
    (distinct : indices.Nodup)
    (atTable : ∀ index ∈ indices, index < hand.seats.length)
    (fromDeck : hand.FromDeck) :
    let dealt := indices.foldl
      (fun hand index => if (hand.seat index).out then hand else hand.dealTo index) hand
    dealt.FromDeck ∧ dealt.seats.length = hand.seats.length ∧ dealt.setup = hand.setup ∧
      dealt.board = hand.board ∧ dealt.street = hand.street ∧ dealt.result = hand.result ∧
      ∀ other, (dealt.seat other).out = (hand.seat other).out ∧
        dealt.holeSize other = hand.holeSize other +
          if other ∈ indices ∧ (hand.seat other).out = false then 1 else 0 := by
  induction indices generalizing hand with
  | nil => exact ⟨fromDeck, rfl, rfl, rfl, rfl, rfl, by simp⟩
  | cons index indices inductionHypothesis =>
      obtain ⟨notLater, distinct⟩ := List.nodup_cons.mp distinct
      rw [List.forall_mem_cons] at atTable
      rw [List.foldl_cons]
      cases out : (hand.seat index).out with
      | true =>
          simp only [if_true]
          obtain ⟨deck, length, setup, board, street, result, sizes⟩ :=
            inductionHypothesis distinct atTable.2 fromDeck
          refine ⟨deck, length, setup, board, street, result, fun other => ?_⟩
          obtain ⟨sameOut, size⟩ := sizes other
          refine ⟨sameOut, size.trans ?_⟩
          by_cases here : other = index
          · simp [here, out, notLater]
          · simp [here]
      | false =>
          simp only [Bool.false_eq_true, if_false]
          have seats := hand.dealTo_seat atTable.1
          have sameLength : (hand.dealTo index).seats.length = hand.seats.length :=
            List.length_modify ..
          obtain ⟨deck, length, setup, board, street, result, sizes⟩ :=
            inductionHypothesis distinct (fun other member => sameLength ▸ atTable.2 other member)
              (fromDeck.dealTo atTable.1)
          refine ⟨deck, length.trans sameLength, setup, board, street, result, fun other => ?_⟩
          obtain ⟨sameOut, size⟩ := sizes other
          have kept : ((hand.dealTo index).seat other).out = (hand.seat other).out := by
            rw [seats]
            split <;> rfl
          refine ⟨sameOut.trans kept, size.trans ?_⟩
          rw [kept, holeSize, seats, holeSize]
          by_cases here : other = index
          · subst here
            simp [out, notLater, Seat.receive]
          · simp [here]

/-- A round deals one card to every seat that is not out. -/
theorem dealRound_spec
    {hand : Hand}
    (seated : hand.Seated)
    (fromDeck : hand.FromDeck) :
    hand.dealRound.FromDeck ∧ hand.dealRound.seats.length = hand.seats.length ∧
      hand.dealRound.setup = hand.setup ∧ hand.dealRound.board = hand.board ∧
      hand.dealRound.street = hand.street ∧ hand.dealRound.result = hand.result ∧
      ∀ other < hand.seats.length,
        (hand.dealRound.seat other).out = (hand.seat other).out ∧
          hand.dealRound.holeSize other =
            hand.holeSize other + if (hand.seat other).out = false then 1 else 0 := by
  have distinct : (hand.order (hand.button + 1)).Nodup :=
    (hand.order_perm _).nodup_iff.mpr List.nodup_range
  have atTable : ∀ index, index ∈ hand.order (hand.button + 1) ↔ index < hand.seats.length := by
    intro index
    rw [hand.mem_order, seated]
  obtain ⟨deck, length, setup, board, street, result, sizes⟩ :=
    dealEach_spec distinct (fun index member => (atTable index).mp member) fromDeck
  refine ⟨deck, length, setup, board, street, result, fun other bound => ?_⟩
  obtain ⟨sameOut, size⟩ := sizes other
  refine ⟨sameOut, size.trans ?_⟩
  simp only [(atTable other).mpr bound, true_and]

end Hand

theorem sameTable_posted
    (config : HandConfig)
    (deck : Deck) :
    Hand.SameTable (config.posted deck) (config.table deck) := by
  have anted : ∀ (live : List Nat) (hand : Hand), Hand.SameTable
      (live.foldl (fun hand index => hand.commit index hand.ante (some .ante)) hand) hand := by
    intro live
    induction live with
    | nil => exact Hand.SameTable.refl
    | cons index live inductionHypothesis =>
        intro hand
        exact (inductionHypothesis _).trans (hand.sameTable_commit index hand.ante _)
  unfold HandConfig.posted
  have antes : Hand.SameTable ((config.table deck).postAntes (config.table deck).dealtIn)
      (config.table deck) := by
    unfold Hand.postAntes
    split
    · exact anted _ _
    · exact .refl _
  have blinds : ∀ hand : Hand, ∀ sbSeat bbSeat,
      Hand.SameTable (hand.postBlinds sbSeat bbSeat) hand := by
    intro hand sbSeat bbSeat
    have committed := ((hand.commit sbSeat hand.sb (some .sb)).sameTable_commit bbSeat hand.bb
      (some .bb)).trans (hand.sameTable_commit sbSeat hand.sb (some .sb))
    exact ⟨committed.setup, committed.identities⟩
  exact (blinds _ _ _).trans antes

theorem posted_spread
    (config : HandConfig)
    (deck : Deck) :
    (config.posted deck).spread = (config.table deck).spread ∧
      (config.posted deck).result = none := by
  have anted : ∀ (live : List Nat) (hand : Hand),
      (live.foldl (fun hand index => hand.commit index hand.ante (some .ante)) hand).spread =
        hand.spread ∧
      (live.foldl (fun hand index => hand.commit index hand.ante (some .ante)) hand).result =
        hand.result := by
    intro live
    induction live with
    | nil => exact fun hand => ⟨rfl, rfl⟩
    | cons index live inductionHypothesis =>
        intro hand
        obtain ⟨spread, result⟩ := inductionHypothesis (hand.commit index hand.ante (some .ante))
        exact ⟨spread.trans (hand.commit_spread ..), result.trans (hand.commit_result ..)⟩
  have antes : ((config.table deck).postAntes (config.table deck).dealtIn).spread =
      (config.table deck).spread ∧
      ((config.table deck).postAntes (config.table deck).dealtIn).result = none := by
    unfold Hand.postAntes
    split
    · exact anted _ _
    · exact ⟨rfl, rfl⟩
  exact ⟨(Hand.commit_spread ..).trans ((Hand.commit_spread ..).trans antes.1),
    (Hand.commit_result ..).trans ((Hand.commit_result ..).trans antes.2)⟩

namespace Hand

/-- Two rounds give every seat dealt in its two cards. -/
theorem dealing_twoRounds
    {hand : Hand}
    (seated : hand.Seated)
    (fresh : hand.deckPos = 0 ∧ hand.board = [] ∧ hand.street = 0)
    (empty : ∀ seat ∈ hand.seats, seat.hole = none) :
    hand.dealRound.dealRound.Dealing ∧ hand.dealRound.dealRound.result = hand.result := by
  obtain ⟨deckPos, noBoard, preflop⟩ := fresh
  have fromDeck : hand.FromDeck := by
    intro _
    have noHoles : (hand.seats.flatMap fun seat => seat.hole.getD []) = [] := by
      rw [List.flatMap_eq_nil_iff]
      intro seat member
      rw [empty seat member]
      rfl
    rw [dealtCards, noHoles, noBoard, deckPos]
    exact List.Perm.refl _
  obtain ⟨firstDeck, firstLength, firstSetup, firstBoard, firstStreet, firstResult, firstSizes⟩ :=
    dealRound_spec seated fromDeck
  have reseated : hand.dealRound.Seated := by
    rw [Seated, firstLength, ← seated]
    exact congrArg Setup.n firstSetup
  obtain ⟨bothDeck, length, _, board, street, result, sizes⟩ := dealRound_spec reseated firstDeck
  have stillPreflop := (street.trans firstStreet).trans preflop
  refine ⟨⟨bothDeck, ?_, by omega, ?_⟩, result.trans firstResult⟩
  · intro seat member dealtIn
    obtain ⟨index, bound, rfl⟩ := List.getElem_of_mem member
    have here := seat_eq_getElem _ bound
    have atTable : index < hand.seats.length := by omega
    obtain ⟨firstOut, firstSize⟩ := firstSizes index atTable
    obtain ⟨secondOut, secondSize⟩ := sizes index (by omega)
    have noCards : hand.holeSize index = 0 := by
      rw [holeSize, empty _ (hand.seat_mem atTable)]
      rfl
    have isIn : (hand.dealRound.dealRound.seat index).out = false := by
      rw [here]
      exact dealtIn
    have counted : hand.dealRound.dealRound.holeSize index = 2 := by
      rw [secondSize, firstSize, noCards, ← firstOut, ← secondOut, isIn]
      rfl
    rw [holeSize, here] at counted
    exact counted
  · rw [stillPreflop, board, firstBoard, noBoard]
    rfl

theorem openHand_same
    (hand : Hand)
    (headsUp : Bool)
    (sbSeat bbSeat : Nat) :
    SameTable (hand.openHand headsUp sbSeat bbSeat) hand ∧
      (hand.openHand headsUp sbSeat bbSeat).spread = hand.spread ∧
      (hand.openHand headsUp sbSeat bbSeat).result = hand.result :=
  ⟨⟨rfl, rfl⟩, rfl, rfl⟩

/-- A dealt hand has its cards in order. -/
theorem dealing_dealt
    (config : HandConfig)
    (deck : Deck) :
    (config.dealt deck).Dealing ∧ (config.dealt deck).result = none := by
  have same := sameTable_posted config deck
  obtain ⟨spread, noResult⟩ := posted_spread config deck
  have empty : ∀ seat ∈ (config.posted deck).seats, seat.hole = none := by
    have identities : ∀ identity ∈ (config.posted deck).identities, identity.hole = none := by
      rw [same.identities]
      simp only [Hand.identities, HandConfig.table, List.forall_mem_map]
      intro _ _
      rfl
    rw [Hand.identities, List.forall_mem_map] at identities
    exact identities
  have seated : (config.posted deck).Seated := by
    rw [Seated, same.n_eq, same.length_seats]
    simp [HandConfig.table]
  have fresh : (config.posted deck).deckPos = 0 ∧ (config.posted deck).board = [] ∧
      (config.posted deck).street = 0 :=
    ⟨congrArg Spread.deckPos spread, congrArg Spread.board spread,
      congrArg Spread.street spread⟩
  obtain ⟨dealing, sameResult⟩ := dealing_twoRounds seated fresh empty
  unfold HandConfig.dealt
  obtain ⟨opened, sameSpread, openResult⟩ := (config.posted deck).dealRound.dealRound.openHand_same
    ((config.table deck).dealtIn.length = 2) (config.blinds deck).1 (config.blinds deck).2
  exact ⟨dealing.congr opened sameSpread, (openResult.trans sameResult).trans noResult⟩

/-! ## Runs -/

/-- A hand in play has its cards in order and no result; a finished one was
closed with its cards in order, on the river unless a single seat was left. -/
inductive InOrder (hand : Hand) : Prop where
  | playing :
      hand.phase = .act → hand.result = none → hand.Seated → hand.Dealing → InOrder hand
  | finished (closing : Hand) :
      closing.Seated → closing.Dealing →
      (closing.liveSeats.length = 1 ∨ closing.street = 3) →
      hand = closing.finish → InOrder hand

theorem Seated.congr
    {hand next : Hand}
    (seated : hand.Seated)
    (same : SameTable next hand) :
    next.Seated := by
  rw [Seated, same.n_eq, same.length_seats]
  exact seated

theorem Dealing.runOut
    {hand : Hand}
    (dealing : hand.Dealing)
    (seated : hand.Seated) :
    hand.runOut.InOrder := by
  have onStreet := dealing.onStreet
  have room : hand.street + (3 - hand.street) ≤ 3 := by omega
  obtain ⟨dealt, reached⟩ := dealing.dealOut room
  have same : SameTable ((Hand.dealOut (3 - hand.street) hand).record
      { ev := .runout, board := some (Hand.dealOut (3 - hand.street) hand).board }) hand :=
    (sameTable_record _ _).trans (hand.sameTable_dealOut _)
  refine .finished _ (seated.congr same) (dealt.congr (sameTable_record _ _) rfl)
    (.inr ?_) rfl
  change (Hand.dealOut (3 - hand.street) hand).street = 3
  omega

/-- Advancing a hand keeps its cards in order. -/
theorem Dealing.advance
    {hand : Hand}
    (dealing : hand.Dealing)
    (seated : hand.Seated)
    (phase : hand.phase = .act)
    (noResult : hand.result = none) :
    hand.advance.InOrder := by
  have outcome := advanced seated
  generalize hand.advance = next at outcome
  cases outcome with
  | foldOut alone => exact .finished hand seated dealing (.inl alone) rfl
  | next index _ _ =>
      exact .playing phase noResult seated (dealing.congr (hand.sameTable_turnTo index) rfl)
  | runOut _ _ _ => exact dealing.runOut seated
  | showdown _ _ _ onRiver => exact .finished hand seated dealing (.inr onRiver) rfl
  | street first _ _ _ notRiver _ =>
      have before : hand.street < 3 := Nat.lt_of_le_of_ne dealing.onStreet notRiver
      have same : SameTable (hand.enterStreet.turnTo first) hand :=
        (sameTable_turnTo _ _).trans hand.sameTable_enterStreet
      refine .playing (hand.enterStreet_phase.trans phase) ?_ (seated.congr same)
        ((dealing.enterStreet before).congr (sameTable_turnTo _ _) rfl)
      exact (dealStreetCards_result _).trans noResult

end Hand

theorem applied_spread
    {hand applied : Hand}
    {index : Nat}
    (isApplied : Applied hand index applied) :
    applied.spread = hand.spread ∧ applied.result = hand.result := by
  cases isApplied with
  | fold => exact ⟨rfl, rfl⟩
  | check => exact ⟨rfl, rfl⟩
  | call => exact ⟨rfl, rfl⟩
  | raise amount _ _ _ => exact ⟨hand.raiseTo_spread .., hand.raiseTo_result ..⟩

/-- The hand that a seat's action leaves before it advances has its cards where
they were. -/
theorem dealing_applied
    {hand applied : Hand}
    {index : Nat}
    (dealing : hand.Dealing)
    (isApplied : Applied hand index applied) :
    (applied.markActed index).Dealing :=
  dealing.congr ((applied.sameTable_markActed index).trans (sameTable_applied isApplied))
    (applied_spread isApplied).1

/-- One action keeps the cards in order. -/
theorem inOrder_step
    (hand : Hand)
    (action : Action)
    (inOrder : hand.InOrder) :
    (step hand action).InOrder := by
  unfold step
  split
  · rename_i next accepted
    obtain ⟨phase, _, allowed, applied, result, rfl⟩ := act_ok accepted
    cases inOrder with
    | finished closing seated dealing ended isFinished =>
        obtain rfl := isFinished
        rw [Hand.finish_phase] at phase
        cases phase
    | playing _ noResult seated dealing =>
        have isApplied := applied_of_applyAction allowed result
        have same : Hand.SameTable (applied.markActed action.seat) hand :=
          (applied.sameTable_markActed action.seat).trans (sameTable_applied isApplied)
        exact (dealing_applied dealing isApplied).advance (seated.congr same)
          ((applied_phase isApplied).trans phase) ((applied_spread isApplied).2.trans noResult)
  · exact inOrder

theorem inOrder_newHand
    {config : HandConfig}
    {hand : Hand}
    (accepted : newHand config = .ok hand) :
    hand.InOrder := by
  obtain ⟨deck, _, _, outcome⟩ := newHand_ok accepted
  obtain ⟨dealing, noResult⟩ := Hand.dealing_dealt config deck
  have seated := (Hand.betting_dealt config deck).seated
  rcases outcome with ⟨_, ranOut⟩ | ⟨_, isDealt⟩
  · rw [ranOut]
    exact dealing.runOut seated
  · rw [isDealt]
    exact .playing (Hand.posted_dealt config deck).phase noResult seated dealing

end Poker
end NostrBbs
