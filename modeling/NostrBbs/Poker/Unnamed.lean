import NostrBbs.Poker.Verify
import NostrBbs.Poker.Frames

/-!
# Hands without names

The names of the seats change nothing in the course of a hand: dealing, betting,
finishing and deciding commute with forgetting them.
-/

namespace NostrBbs
namespace Poker

/-- A seat without its name. -/
def Seat.unnamed (seat : Seat) : Seat :=
  { seat with name := "" }

namespace Hand

/-- A hand whose seats have no names. -/
def unnamed (hand : Hand) : Hand :=
  { hand with seats := hand.seats.map Seat.unnamed }

variable (hand : Hand)

/-! ## Reading -/

@[simp] theorem seat_unnamed (index : Nat) :
    hand.unnamed.seat index = (hand.seat index).unnamed := by
  unfold seat unnamed
  rw [List.getD_eq_getElem?_getD, List.getD_eq_getElem?_getD, List.getElem?_map]
  cases hand.seats[index]? with
  | none => rfl
  | some found => rfl

@[simp] theorem inPlay_unnamed : hand.unnamed.inPlay = hand.inPlay :=
  rfl

theorem canAct_unnamed : hand.unnamed.canAct = hand.canAct := by
  funext index
  unfold canAct
  rw [seat_unnamed]
  rfl

theorem inHand_unnamed : hand.unnamed.inHand = hand.inHand := by
  funext index
  unfold inHand
  rw [seat_unnamed]
  rfl

@[simp] theorem order_unnamed (start : Nat) : hand.unnamed.order start = hand.order start :=
  rfl

@[simp] theorem nextActor_unnamed (start : Nat) :
    hand.unnamed.nextActor start = hand.nextActor start := by
  unfold nextActor
  rw [canAct_unnamed, order_unnamed]

@[simp] theorem length_seats_unnamed : hand.unnamed.seats.length = hand.seats.length :=
  List.length_map _

@[simp] theorem liveSeats_unnamed : hand.unnamed.liveSeats = hand.liveSeats := by
  unfold liveSeats
  rw [inHand_unnamed, length_seats_unnamed]

@[simp] theorem actors_unnamed : hand.unnamed.actors = hand.actors := by
  unfold actors
  rw [canAct_unnamed, liveSeats_unnamed]

/-- A reader of seats that does not read the name. -/
theorem map_seats_unnamed
    {Value : Type}
    {read : Seat → Value}
    (nameless : ∀ seat : Seat, read seat.unnamed = read seat) :
    hand.unnamed.seats.map read = hand.seats.map read := by
  unfold unnamed
  rw [List.map_map]
  apply List.map_congr_left
  intro seat _
  exact nameless seat

@[simp] theorem committed_unnamed : hand.unnamed.committed = hand.committed :=
  congrArg List.sum (hand.map_seats_unnamed fun _ => rfl)

/-! ## Changing -/

/-- A change of one seat that does not read the name. -/
theorem modifySeat_unnamed
    (index : Nat)
    {change : Seat → Seat}
    (nameless : ∀ seat : Seat, change seat.unnamed = (change seat).unnamed) :
    hand.unnamed.modifySeat index change = (hand.modifySeat index change).unnamed := by
  have seats := Lib.map_modify_comm hand.seats index Seat.unnamed fun seat => (nameless seat).symm
  unfold modifySeat unnamed
  rw [seats]

/-- An indexed change of all seats that does not read the names. -/
theorem mapIdx_unnamed
    {change : Nat → Seat → Seat}
    (nameless : ∀ index (seat : Seat), change index seat.unnamed = (change index seat).unnamed) :
    (hand.seats.map Seat.unnamed).mapIdx change = (hand.seats.mapIdx change).map Seat.unnamed :=
  (Lib.map_mapIdx_comm hand.seats Seat.unnamed fun index seat => (nameless index seat).symm).symm

@[simp] theorem record_unnamed (entry : LogEntry) :
    hand.unnamed.record entry = (hand.record entry).unnamed :=
  rfl

@[simp] theorem commit_unnamed (index amount : Nat) (why : Option Ev) :
    hand.unnamed.commit index amount why = (hand.commit index amount why).unnamed := by
  have changed : hand.unnamed.modifySeat index (fun seat => seat.commit amount) =
      (hand.modifySeat index fun seat => seat.commit amount).unnamed :=
    hand.modifySeat_unnamed index fun _ => rfl
  unfold commit
  rw [changed, seat_unnamed]
  cases why <;> rfl

@[simp] theorem topCard_unnamed : hand.unnamed.topCard = hand.topCard :=
  rfl

@[simp] theorem dealTo_unnamed (index : Nat) :
    hand.unnamed.dealTo index = (hand.dealTo index).unnamed := by
  have changed : hand.unnamed.modifySeat index (fun seat => seat.receive hand.topCard) =
      (hand.modifySeat index fun seat => seat.receive hand.topCard).unnamed :=
    hand.modifySeat_unnamed index fun _ => rfl
  unfold dealTo
  rw [topCard_unnamed, changed]
  rfl

@[simp] theorem dealStreetCards_unnamed :
    hand.unnamed.dealStreetCards = hand.dealStreetCards.unnamed := by
  have street : hand.unnamed.street = hand.street := rfl
  unfold dealStreetCards
  rw [street]
  split <;> rfl

@[simp] theorem dealNextStreet_unnamed :
    hand.unnamed.dealNextStreet = hand.dealNextStreet.unnamed :=
  dealStreetCards_unnamed { hand with street := hand.street + 1 }

@[simp] theorem dealOut_unnamed (remaining : Nat) :
    dealOut remaining hand.unnamed = (dealOut remaining hand).unnamed := by
  induction remaining generalizing hand with
  | zero => rfl
  | succ remaining inductionHypothesis =>
      unfold dealOut
      rw [dealNextStreet_unnamed, inductionHypothesis]

/-! ## Finishing -/

@[simp] theorem pay_unnamed (payment : Winner) :
    hand.unnamed.pay payment = (hand.pay payment).unnamed :=
  hand.modifySeat_unnamed payment.seat fun _ => rfl

@[simp] theorem payAll_unnamed (payments : List Winner) :
    hand.unnamed.payAll payments = (hand.payAll payments).unnamed := by
  unfold payAll
  exact List.foldl_hom Hand.unnamed fun paid payment => paid.pay_unnamed payment

@[simp] theorem uncalled_unnamed : hand.unnamed.uncalled = hand.uncalled := by
  unfold uncalled
  rw [hand.map_seats_unnamed fun _ => rfl, inHand_unnamed]

@[simp] theorem refundUncalled_unnamed :
    hand.unnamed.refundUncalled = hand.refundUncalled.unnamed := by
  unfold refundUncalled
  rw [uncalled_unnamed]
  split
  · rename_i top refund _
    rw [← record_unnamed]
    exact congrArg (fun changed : Hand => changed.record _)
      (hand.modifySeat_unnamed top fun _ => rfl)
  · rfl

theorem shownEval_unnamed : shownEval hand.unnamed = shownEval hand := by
  funext index
  unfold shownEval shownCards
  rw [seat_unnamed]
  rfl

@[simp] theorem potLevels_unnamed (live : List Nat) :
    potLevels hand.unnamed live = potLevels hand live := by
  unfold potLevels
  simp only [seat_unnamed]
  rfl

@[simp] theorem layer_unnamed (previous level : Nat) :
    layer hand.unnamed previous level = layer hand previous level :=
  congrArg List.sum (hand.map_seats_unnamed fun _ => rfl)

@[simp] theorem slices_unnamed (live levels : List Nat) (previous : Nat) :
    slices hand.unnamed live levels previous = slices hand live levels previous := by
  induction levels generalizing previous with
  | nil => rfl
  | cons level levels inductionHypothesis =>
      unfold slices
      simp only [seat_unnamed, layer_unnamed, inductionHypothesis]
      rfl

@[simp] theorem sidePots_unnamed (live : List Nat) :
    sidePots hand.unnamed live = sidePots hand live := by
  unfold sidePots
  simp only [slices_unnamed, potLevels_unnamed, committed_unnamed]

@[simp] theorem showdownPots_unnamed (live : List Nat) :
    hand.unnamed.showdownPots live = hand.showdownPots live := by
  unfold showdownPots awardPot
  rw [sidePots_unnamed, shownEval_unnamed]

theorem potShares_unnamed : potShares hand.unnamed = potShares hand :=
  rfl

@[simp] theorem showdownPayments_unnamed (live : List Nat) :
    hand.unnamed.showdownPayments live = hand.showdownPayments live := by
  unfold showdownPayments
  rw [showdownPots_unnamed, potShares_unnamed]

@[simp] theorem showdownResult_unnamed (live : List Nat) :
    hand.unnamed.showdownResult live = hand.showdownResult live := by
  unfold showdownResult collected
  rw [showdownPots_unnamed, showdownPayments_unnamed, shownEval_unnamed, length_seats_unnamed]

@[simp] theorem showdown_unnamed (live : List Nat) :
    hand.unnamed.showdown live = (hand.showdown live).unnamed := by
  unfold showdown
  rw [showdownResult_unnamed, showdownPayments_unnamed, payAll_unnamed]
  rfl

@[simp] theorem foldOut_unnamed (winner : Nat) :
    hand.unnamed.foldOut winner = (hand.foldOut winner).unnamed := by
  unfold foldOut
  dsimp only
  rw [committed_unnamed, pay_unnamed]
  rfl

@[simp] theorem close_unnamed : hand.unnamed.close = hand.close.unnamed :=
  rfl

@[simp] theorem finish_unnamed : hand.unnamed.finish = hand.finish.unnamed := by
  unfold finish
  rw [liveSeats_unnamed, close_unnamed, refundUncalled_unnamed]
  dsimp only
  split
  · rw [foldOut_unnamed]
  · rw [showdown_unnamed]

/-! ## Advancing -/

@[simp] theorem runOut_unnamed : hand.unnamed.runOut = hand.runOut.unnamed := by
  have street : hand.unnamed.street = hand.street := rfl
  unfold runOut
  dsimp only
  rw [street, dealOut_unnamed, record_unnamed]
  exact finish_unnamed _

@[simp] theorem enterStreet_unnamed : hand.unnamed.enterStreet = hand.enterStreet.unnamed := by
  have reset : (hand.seats.map Seat.unnamed).map Seat.resetStreet =
      (hand.seats.map Seat.resetStreet).map Seat.unnamed := by
    rw [List.map_map, List.map_map]
    rfl
  have dealt := dealNextStreet_unnamed
    { hand with
      seats := hand.seats.map Seat.resetStreet
      currentBet := 0
      minRaiseSize := hand.bb
      streetRaises := 0 }
  unfold enterStreet
  dsimp only [unnamed] at dealt ⊢
  rw [reset, dealt]
  rfl

@[simp] theorem openStreet_unnamed : hand.unnamed.openStreet = hand.openStreet := by
  unfold openStreet
  rw [nextActor_unnamed, liveSeats_unnamed, canAct_unnamed]
  rfl

@[simp] theorem nextStreet_unnamed : hand.unnamed.nextStreet = hand.nextStreet.unnamed := by
  unfold nextStreet
  dsimp only
  rw [enterStreet_unnamed, openStreet_unnamed]
  split
  · exact runOut_unnamed _
  · rfl

@[simp] theorem settled_unnamed : hand.unnamed.settled = hand.settled := by
  unfold settled
  simp only [actors_unnamed, seat_unnamed]
  rfl

@[simp] theorem advance_unnamed : hand.unnamed.advance = hand.advance.unnamed := by
  have street : hand.unnamed.street = hand.street := rfl
  have toAct : hand.unnamed.toAct = hand.toAct := rfl
  unfold advance
  rw [liveSeats_unnamed, settled_unnamed, actors_unnamed, street, toAct, nextActor_unnamed]
  split
  · exact hand.finish_unnamed
  · split
    · split
      · exact hand.runOut_unnamed
      · rfl
    · split
      · exact hand.runOut_unnamed
      · split
        · exact hand.finish_unnamed
        · exact hand.nextStreet_unnamed

/-! ## Acting -/

@[simp] theorem mayRaise_unnamed (index : Nat) :
    hand.unnamed.mayRaise index = hand.mayRaise index := by
  unfold mayRaise
  rw [seat_unnamed]
  rfl

theorem legalFor_unnamed : legalFor hand.unnamed = legalFor hand := by
  funext index
  unfold legalFor
  rw [seat_unnamed, mayRaise_unnamed]
  rfl

@[simp] theorem legal_unnamed : legal hand.unnamed = legal hand := by
  unfold legal
  rw [legalFor_unnamed]
  rfl

@[simp] theorem putIn_unnamed (index amount : Nat) :
    hand.unnamed.putIn index amount = (hand.putIn index amount).unnamed := by
  unfold putIn
  dsimp only
  rw [seat_unnamed, commit_unnamed]
  rfl

@[simp] theorem reopen_unnamed (raiser raiseSize : Nat) :
    hand.unnamed.reopen raiser raiseSize = (hand.reopen raiser raiseSize).unnamed := by
  let change : Nat → Seat → Seat := fun index seat =>
    if index ≠ raiser then { seat with canRaise := true, acted := false } else seat
  have nameless : ∀ index (seat : Seat),
      change index seat.unnamed = (change index seat).unnamed := by
    intro index seat
    unfold change
    split <;> rfl
  have seats : (hand.seats.map Seat.unnamed).mapIdx change =
      (hand.seats.mapIdx change).map Seat.unnamed := hand.mapIdx_unnamed nameless
  exact congrArg
    (fun seats => { hand with minRaiseSize := raiseSize, seats := seats }) seats

@[simp] theorem closeRaising_unnamed (raiser : Nat) :
    hand.unnamed.closeRaising raiser = (hand.closeRaising raiser).unnamed := by
  let change : Nat → Seat → Seat := fun index seat =>
    if index ≠ raiser ∧ seat.acted then { seat with canRaise := false } else seat
  have nameless : ∀ index (seat : Seat),
      change index seat.unnamed = (change index seat).unnamed := by
    intro index seat
    have acted : seat.unnamed.acted = seat.acted := rfl
    unfold change
    rw [acted]
    split <;> rfl
  have seats : (hand.seats.map Seat.unnamed).mapIdx change =
      (hand.seats.mapIdx change).map Seat.unnamed := hand.mapIdx_unnamed nameless
  exact congrArg (fun seats => { hand with seats := seats }) seats

@[simp] theorem raiseTo_unnamed (index amount : Nat) :
    hand.unnamed.raiseTo index amount = (hand.raiseTo index amount).unnamed := by
  have bet : hand.unnamed.currentBet = hand.currentBet := rfl
  have size : hand.unnamed.minRaiseSize = hand.minRaiseSize := rfl
  unfold raiseTo
  dsimp only
  rw [bet, size, putIn_unnamed]
  split
  · rw [reopen_unnamed]
  · rw [closeRaising_unnamed]

@[simp] theorem markActed_unnamed (index : Nat) :
    hand.unnamed.markActed index = (hand.markActed index).unnamed :=
  hand.modifySeat_unnamed index fun _ => rfl

@[simp] theorem foldSeat_unnamed (index : Nat) :
    hand.unnamed.foldSeat index = (hand.foldSeat index).unnamed := by
  have changed : hand.unnamed.modifySeat index (fun seat => { seat with folded := true }) =
      (hand.modifySeat index fun seat => { seat with folded := true }).unnamed :=
    hand.modifySeat_unnamed index fun _ => rfl
  unfold foldSeat
  rw [changed, record_unnamed]

@[simp] theorem callSeat_unnamed (index amount : Nat) :
    hand.unnamed.callSeat index amount = (hand.callSeat index amount).unnamed := by
  unfold callSeat
  rw [commit_unnamed, record_unnamed]

theorem applyAction_unnamed (envelope : Legal) (action : Action) :
    applyAction hand.unnamed envelope action =
      (applyAction hand envelope action).map unnamed := by
  have raised : hand.unnamed.raiseTo action.seat = fun amount =>
      (hand.raiseTo action.seat amount).unnamed := by
    funext amount
    exact hand.raiseTo_unnamed action.seat amount
  unfold applyAction
  split
  · rw [foldSeat_unnamed]
    rfl
  · rfl
  · rw [callSeat_unnamed]
    rfl
  · rw [raised]
    cases raiseAmount envelope action.amount <;> rfl

/-- Acting commutes with forgetting the names. -/
theorem act_unnamed (action : Action) :
    act hand.unnamed action = (act hand action).map unnamed := by
  have toAct : hand.unnamed.toAct = hand.toAct := rfl
  unfold act
  rw [inPlay_unnamed, toAct, legal_unnamed]
  split
  · rfl
  · split
    · rfl
    · split
      · rfl
      · rename_i envelope _
        split
        · rfl
        · rw [applyAction_unnamed]
          cases applyAction hand envelope action with
          | error refusal => rfl
          | ok applied =>
              simp only [Except.map, markActed_unnamed, advance_unnamed]

end Hand

/-! ## Dealing -/

/-- A configuration without names. -/
def HandConfig.unnamed (config : HandConfig) : HandConfig :=
  { config with seats := config.seats.map fun seat => { seat with name := "" } }

namespace HandConfig

variable (config : HandConfig) (deck : Deck)

@[simp] theorem table_unnamed : config.unnamed.table deck = (config.table deck).unnamed := by
  have length : config.unnamed.seats.length = config.seats.length := List.length_map _
  have seats : config.unnamed.seats.map SeatConfig.seat =
      (config.seats.map SeatConfig.seat).map Seat.unnamed := by
    unfold unnamed
    rw [List.map_map, List.map_map]
    rfl
  unfold table Hand.unnamed
  rw [length, seats]
  rfl

@[simp] theorem dealtIn_unnamed (hand : Hand) : hand.unnamed.dealtIn = hand.dealtIn := by
  unfold Hand.dealtIn
  simp only [Hand.seat_unnamed]
  rfl

theorem postAntes_unnamed (hand : Hand) (live : List Nat) :
    hand.unnamed.postAntes live = (hand.postAntes live).unnamed := by
  have ante : hand.unnamed.ante = hand.ante := rfl
  have folded : live.foldl (fun hand index => hand.commit index hand.ante (some .ante))
      hand.unnamed =
      (live.foldl (fun hand index => hand.commit index hand.ante (some .ante)) hand).unnamed :=
    List.foldl_hom Hand.unnamed fun posted index =>
      posted.commit_unnamed index posted.ante (some .ante)
  unfold Hand.postAntes
  rw [ante, folded]
  split <;> rfl

theorem postBlinds_unnamed (hand : Hand) (sbSeat bbSeat : Nat) :
    hand.unnamed.postBlinds sbSeat bbSeat = (hand.postBlinds sbSeat bbSeat).unnamed := by
  have sb : hand.unnamed.sb = hand.sb := rfl
  have bb : hand.unnamed.bb = hand.bb := rfl
  unfold Hand.postBlinds
  dsimp only
  rw [sb, bb, Hand.commit_unnamed, Hand.commit_unnamed]
  rw [Hand.map_seats_unnamed _ fun _ => rfl]
  rfl

theorem dealRound_unnamed (hand : Hand) : hand.unnamed.dealRound = hand.dealRound.unnamed := by
  have button : hand.unnamed.button = hand.button := rfl
  unfold Hand.dealRound
  rw [button, Hand.order_unnamed]
  refine List.foldl_hom Hand.unnamed ?_
  intro dealt index
  have out : (dealt.unnamed.seat index).out = (dealt.seat index).out := by
    rw [Hand.seat_unnamed]
    rfl
  rw [out, Hand.dealTo_unnamed]
  split <;> rfl

theorem openHand_unnamed (hand : Hand) (headsUp : Bool) (sbSeat bbSeat : Nat) :
    hand.unnamed.openHand headsUp sbSeat bbSeat =
      (hand.openHand headsUp sbSeat bbSeat).unnamed := by
  unfold Hand.openHand
  rw [Hand.nextActor_unnamed]
  rfl

@[simp] theorem blinds_unnamed : config.unnamed.blinds deck = config.blinds deck := by
  unfold blinds
  rw [table_unnamed, dealtIn_unnamed]
  rfl

@[simp] theorem dealt_unnamed : config.unnamed.dealt deck = (config.dealt deck).unnamed := by
  unfold dealt posted
  rw [blinds_unnamed, table_unnamed, dealtIn_unnamed, postAntes_unnamed, postBlinds_unnamed,
    dealRound_unnamed, dealRound_unnamed, openHand_unnamed]

/-- Dealing commutes with forgetting the names. -/
theorem newHand_unnamed : newHand config.unnamed = (newHand config).map Hand.unnamed := by
  have seed : config.unnamed.seedHex = config.seedHex := rfl
  unfold newHand
  rw [seed]
  split
  · rfl
  · rename_i deck _
    dsimp only
    rw [table_unnamed, dealtIn_unnamed, dealt_unnamed, Hand.actors_unnamed, Hand.runOut_unnamed]
    split
    · rfl
    · split <;> rfl

end HandConfig

/-! ## Deciding -/

/-- A seat of a view without its name. -/
def ViewSeat.unnamed (seat : ViewSeat) : ViewSeat :=
  { seat with name := "" }

/-- A view whose seats have no names. -/
def SeatView.unnamed (view : SeatView) : SeatView :=
  { view with seats := view.seats.map ViewSeat.unnamed }

theorem seatView_unnamed
    (hand : Hand)
    (viewer : Nat) :
    seatView hand.unnamed viewer = (seatView hand viewer).unnamed := by
  have hole : hand.unnamed.seats[viewer]?.bind Seat.hole =
      hand.seats[viewer]?.bind Seat.hole := by
    unfold Hand.unnamed
    rw [List.getElem?_map]
    cases hand.seats[viewer]? <;> rfl
  have seats : (seatView hand.unnamed viewer).seats = (seatView hand viewer).unnamed.seats := by
    apply List.ext_getElem?
    intro index
    simp only [seatView, SeatView.unnamed, Hand.unnamed, List.getElem?_mapIdx,
      List.getElem?_map, Option.map_map]
    cases hand.seats[index]? <;> rfl
  have others : seatView hand.unnamed viewer =
      { seatView hand viewer with seats := (seatView hand.unnamed viewer).seats } := by
    unfold seatView
    rw [hole, Hand.legal_unnamed, Hand.committed_unnamed]
    rfl
  rw [others, seats]
  rfl

theorem spot_unnamed
    (view : SeatView)
    (envelope : Legal)
    (me : ViewSeat) :
    view.unnamed.spot envelope me.unnamed = view.spot envelope me := by
  have opponents : (view.unnamed.seats.zipIdx.filter fun entry =>
      entry.2 != view.seat && !entry.1.folded && !entry.1.out).length =
      (view.seats.zipIdx.filter fun entry =>
        entry.2 != view.seat && !entry.1.folded && !entry.1.out).length := by
    unfold SeatView.unnamed
    rw [List.zipIdx_map, List.filter_map, List.length_map]
    rfl
  unfold SeatView.spot
  exact congrArg (fun opponents => { view.spot envelope me with opponents := opponents }) opponents

/-- What a bot reads of a view does not depend on the names. -/
theorem decide_unnamed
    (hand : Hand)
    (seat : Nat)
    (envelope : Legal)
    (profileName : String)
    (rng : Rng) :
    decide (seatView hand.unnamed seat) envelope profileName rng =
      decide (seatView hand seat) envelope profileName rng := by
  have raw : ∀ (view : SeatView) (rollouts : Nat),
      decideRaw view.unnamed envelope profileName rng rollouts =
        decideRaw view envelope profileName rng rollouts := by
    intro view rollouts
    have found : view.unnamed.seats[view.seat]? =
        view.seats[view.seat]?.map ViewSeat.unnamed := by
      unfold SeatView.unnamed
      rw [List.getElem?_map]
    unfold decideRaw
    rw [show view.unnamed.seat = view.seat from rfl, found]
    cases view.seats[view.seat]? with
    | none => rfl
    | some me =>
        simp only [Option.map_some, spot_unnamed]
        rfl
  rw [seatView_unnamed]
  unfold decide decideWith
  rw [raw]
  rfl

theorem botDecide_unnamed
    (hand : Hand)
    (seat : Nat)
    (profileName seedHex : String) :
    botDecide hand.unnamed seat profileName seedHex = botDecide hand seat profileName seedHex := by
  unfold botDecide
  rw [Hand.legal_unnamed]
  simp only [decide_unnamed]

end Poker
end NostrBbs
