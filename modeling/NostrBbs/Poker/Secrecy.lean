import NostrBbs.Poker.Showdown

/-!
# What a seat may learn

A hand without its cards is veiled: the deck, the board, the hole cards and the log are
taken away.  What the engine makes of a hand until a showdown depends on the veiled hand
alone, so two hands with the same public history look the same to a seat that holds the
same cards in both.
-/

namespace NostrBbs
namespace Poker

/-! ## Veiled hands -/

/-- A seat without its cards. -/
def Seat.veiled (seat : Seat) : Seat :=
  { seat with hole := none }

namespace Hand

/-- A hand without its cards, and without its log, which shows the board. -/
def veiled (hand : Hand) : Hand :=
  { hand with
    seedHex := ""
    deck := Deck.ordered
    deckPos := 0
    board := []
    seats := hand.seats.map Seat.veiled
    log := [] }

/-- A hand that ended in a showdown. -/
def ShownDown (hand : Hand) : Prop :=
  hand.phase = .done ∧ hand.result.any HandResult.showdown = true

/-- Two hands that look the same without their cards, or that were both shown down. -/
inductive Alike (first second : Hand) : Prop where
  | same : first.veiled = second.veiled → Alike first second
  | shownDown : first.ShownDown → second.ShownDown → Alike first second

section Veils

variable (hand : Hand)

theorem seat_veiled (index : Nat) :
    hand.veiled.seat index = (hand.seat index).veiled := by
  unfold seat
  simp only [veiled, List.getD_eq_getElem?_getD, List.getElem?_map]
  cases hand.seats[index]? <;> rfl

@[simp] theorem inHand_veiled (index : Nat) :
    hand.veiled.inHand index = hand.inHand index := by
  rw [inHand, seat_veiled]
  rfl

@[simp] theorem canAct_veiled (index : Nat) :
    hand.veiled.canAct index = hand.canAct index := by
  rw [canAct, seat_veiled]
  rfl

@[simp] theorem liveSeats_veiled :
    hand.veiled.liveSeats = hand.liveSeats := by
  unfold liveSeats
  have inHands : hand.veiled.inHand = hand.inHand := funext hand.inHand_veiled
  rw [inHands]
  simp only [veiled, List.length_map]

@[simp] theorem nextActor_veiled (start : Nat) :
    hand.veiled.nextActor start = hand.nextActor start := by
  unfold nextActor
  have canActs : hand.veiled.canAct = hand.canAct := funext hand.canAct_veiled
  rw [canActs]
  rfl

@[simp] theorem actors_veiled :
    hand.veiled.actors = hand.actors := by
  unfold actors
  have canActs : hand.veiled.canAct = hand.canAct := funext hand.canAct_veiled
  rw [canActs, liveSeats_veiled]

@[simp] theorem settled_veiled :
    hand.veiled.settled = hand.settled := by
  unfold settled
  rw [actors_veiled]
  simp only [seat_veiled]
  rfl

@[simp] theorem openStreet_veiled :
    hand.veiled.openStreet = hand.openStreet := by
  unfold openStreet
  simp only [nextActor_veiled, liveSeats_veiled, canAct_veiled]
  rfl

@[simp] theorem committed_veiled :
    hand.veiled.committed = hand.committed := by
  simp only [committed, veiled, List.map_map]
  rfl

@[simp] theorem uncalled_veiled :
    hand.veiled.uncalled = hand.uncalled := by
  have commits : hand.veiled.seats.map Seat.handCommit = hand.seats.map Seat.handCommit := by
    simp only [veiled, List.map_map]
    rfl
  unfold uncalled
  simp only [commits, inHand_veiled]

theorem legalFor_veiled (index : Nat) :
    legalFor hand.veiled index = legalFor hand index := by
  unfold legalFor mayRaise
  simp only [seat_veiled]
  rfl

end Veils

/-! ## What the engine does to a veiled hand -/

section Operations

variable (hand : Hand)

@[simp] theorem veiled_veiled :
    hand.veiled.veiled = hand.veiled := by
  simp only [veiled, List.map_map]
  rfl

@[simp] theorem veiled_record (entry : LogEntry) :
    (hand.record entry).veiled = hand.veiled :=
  rfl

/-- A change that leaves a seat's cards alone can be made to the veiled hand. -/
theorem veiled_modifySeat
    (index : Nat)
    (change : Seat → Seat)
    (sparesCards : ∀ seat, (change seat).veiled = change seat.veiled) :
    (hand.modifySeat index change).veiled = hand.veiled.modifySeat index change := by
  simp only [veiled, modifySeat, Lib.map_modify_comm hand.seats index Seat.veiled sparesCards]

theorem veiled_modifySeat_veiled
    (index : Nat)
    {change : Seat → Seat}
    (sparesCards : ∀ seat, (change seat).veiled = change seat.veiled) :
    (hand.modifySeat index change).veiled = (hand.veiled.modifySeat index change).veiled := by
  rw [hand.veiled_modifySeat index change sparesCards,
    hand.veiled.veiled_modifySeat index change sparesCards, veiled_veiled]

theorem veiled_commit (index amount : Nat) (why : Option Ev) :
    (hand.commit index amount why).veiled =
      hand.veiled.modifySeat index fun seat => seat.commit amount := by
  have moved : (hand.commit index amount why).veiled =
      (hand.modifySeat index fun seat => seat.commit amount).veiled := by
    cases why <;> rfl
  rw [moved]
  exact hand.veiled_modifySeat index _ fun _ => rfl

theorem veiled_dealStreetCards :
    hand.dealStreetCards.veiled = hand.veiled := by
  unfold dealStreetCards
  split <;> rfl

theorem veiled_dealTo (index : Nat) :
    (hand.dealTo index).veiled = hand.veiled := by
  have unchanged : (hand.seats.modify index fun seat => seat.receive hand.topCard).map
      Seat.veiled = hand.seats.map Seat.veiled :=
    Lib.map_modify_of_eq hand.seats index _ Seat.veiled fun _ => rfl
  simp only [veiled, dealTo, modifySeat, unchanged]

theorem veiled_enterStreet :
    hand.enterStreet.veiled = hand.veiled.enterStreet.veiled := by
  have reset : (hand.seats.map Seat.resetStreet).map Seat.veiled =
      ((hand.seats.map Seat.veiled).map Seat.resetStreet).map Seat.veiled := by
    simp only [List.map_map]
    rfl
  unfold enterStreet dealNextStreet
  simp only [veiled_record, veiled_dealStreetCards]
  simp only [veiled, reset]

theorem veiled_putIn (index amount : Nat) :
    (hand.putIn index amount).veiled = (hand.veiled.putIn index amount).veiled := by
  have same := hand.veiled_commit index (amount - (hand.seat index).streetCommit) none
  have again := hand.veiled.veiled_commit index (amount - (hand.seat index).streetCommit) none
  rw [veiled_veiled, ← same] at again
  have sameSeat : (hand.veiled.seat index).streetCommit = (hand.seat index).streetCommit := by
    rw [seat_veiled]
    rfl
  unfold putIn
  rw [sameSeat]
  change { (hand.commit index _ none).veiled with
    streetRaises := hand.streetRaises + 1, currentBet := amount } = { (hand.veiled.commit index _
      none).veiled with streetRaises := hand.streetRaises + 1, currentBet := amount }
  rw [again]

/-- Changes of the flags can be made to the veiled seats. -/
theorem veiled_mapIdx
    (seats : List Seat)
    {change : Nat → Seat → Seat}
    (sparesCards : ∀ index seat, (change index seat).veiled = change index seat.veiled) :
    (seats.mapIdx change).map Seat.veiled =
      ((seats.map Seat.veiled).mapIdx change).map Seat.veiled := by
  rw [Lib.map_mapIdx_comm seats Seat.veiled sparesCards,
    Lib.map_mapIdx_comm (seats.map Seat.veiled) Seat.veiled sparesCards, List.map_map]
  rfl

theorem veiled_reopen (raiser raiseSize : Nat) :
    (hand.reopen raiser raiseSize).veiled = (hand.veiled.reopen raiser raiseSize).veiled := by
  unfold reopen veiled
  dsimp only
  rw [veiled_mapIdx]
  intro index seat
  split <;> rfl

theorem veiled_closeRaising (raiser : Nat) :
    (hand.closeRaising raiser).veiled = (hand.veiled.closeRaising raiser).veiled := by
  unfold closeRaising veiled
  dsimp only
  rw [veiled_mapIdx]
  intro index seat
  change (if index ≠ raiser ∧ seat.acted then { seat with canRaise := false } else seat).veiled =
    if index ≠ raiser ∧ seat.acted then { seat.veiled with canRaise := false } else seat.veiled
  split <;> rfl

theorem veiled_raiseTo (index amount : Nat) :
    (hand.raiseTo index amount).veiled = (hand.veiled.raiseTo index amount).veiled := by
  have put := hand.veiled_putIn index amount
  have sameSize : hand.veiled.minRaiseSize = hand.minRaiseSize := rfl
  have sameBet : hand.veiled.currentBet = hand.currentBet := rfl
  unfold raiseTo
  dsimp only
  rw [sameSize, sameBet]
  split
  · rw [veiled_reopen, put, ← veiled_reopen]
  · rw [veiled_closeRaising, put, ← veiled_closeRaising]

theorem veiled_foldSeat (index : Nat) :
    (hand.foldSeat index).veiled = (hand.veiled.foldSeat index).veiled := by
  unfold foldSeat
  rw [veiled_record, veiled_record]
  exact hand.veiled_modifySeat_veiled index fun _ => rfl

theorem veiled_callSeat (index amount : Nat) :
    (hand.callSeat index amount).veiled = (hand.veiled.callSeat index amount).veiled := by
  unfold callSeat
  rw [veiled_record, veiled_record, veiled_commit, veiled_commit, veiled_veiled]

theorem veiled_markActed (index : Nat) :
    (hand.markActed index).veiled = (hand.veiled.markActed index).veiled := by
  unfold markActed
  exact hand.veiled_modifySeat_veiled index fun _ => rfl

theorem veiled_refundUncalled :
    hand.refundUncalled.veiled = hand.veiled.refundUncalled.veiled := by
  unfold refundUncalled
  rw [uncalled_veiled]
  split
  · rw [veiled_record, veiled_record]
    exact hand.veiled_modifySeat_veiled _ fun _ => rfl
  · exact hand.veiled_veiled.symm

theorem veiled_foldOut (winner : Nat) :
    (hand.foldOut winner).veiled = (hand.veiled.foldOut winner).veiled := by
  have paid : (hand.pay ⟨winner, hand.committed⟩).veiled =
      (hand.veiled.pay ⟨winner, hand.committed⟩).veiled := by
    unfold pay
    exact hand.veiled_modifySeat_veiled _ fun _ => rfl
  unfold foldOut
  rw [committed_veiled]
  exact congrArg (fun paid : Hand => { paid with
    result := some
      { showdown := false
        pots := [⟨hand.committed, [winner], [winner]⟩]
        evals := none
        winners := [⟨winner, hand.committed⟩] } }) paid

theorem veiled_dealOut (remaining : Nat) :
    (dealOut remaining hand).veiled = { hand.veiled with street := hand.street + remaining } := by
  induction remaining generalizing hand with
  | zero => rfl
  | succ remaining inductionHypothesis =>
      rw [dealOut, inductionHypothesis]
      have street : hand.dealNextStreet.street = hand.street + 1 := dealNextStreet_street hand
      have same : hand.dealNextStreet.veiled = { hand.veiled with street := hand.street + 1 } := by
        rw [dealNextStreet, veiled_dealStreetCards]
        rfl
      rw [street, same, Nat.add_assoc, Nat.add_comm 1 remaining]

end Operations

/-! ## Hands that look the same -/

section Same

variable {first second : Hand} (same : first.veiled = second.veiled)

include same

theorem veiled_congr
    {change : Hand → Hand}
    (factors : ∀ hand : Hand, (change hand).veiled = (change hand.veiled).veiled) :
    (change first).veiled = (change second).veiled := by
  rw [factors first, same, ← factors second]

theorem liveSeats_of_same :
    first.liveSeats = second.liveSeats := by
  rw [← liveSeats_veiled, same, liveSeats_veiled]

theorem alike_finish :
    Alike first.finish second.finish := by
  have live := liveSeats_of_same same
  have closed : first.close.veiled = second.close.veiled :=
    congrArg (fun hand : Hand => { hand with phase := .done, toAct := none }) same
  have refunded : first.close.refundUncalled.veiled = second.close.refundUncalled.veiled :=
    veiled_congr closed veiled_refundUncalled
  unfold finish
  dsimp only
  rw [live]
  split
  · rename_i winner _
    exact .same (veiled_congr refunded fun hand => hand.veiled_foldOut winner)
  · have shownDown : ∀ (hand : Hand) (live : List Nat),
        (hand.close.refundUncalled.showdown live).ShownDown := by
      intro hand live
      refine ⟨?_, ?_⟩
      · rw [showdown_phase, refundUncalled_phase]
        rfl
      · rw [showdown_result]
        rfl
    exact .shownDown (shownDown first _) (shownDown second _)

theorem alike_runOut :
    Alike first.runOut second.runOut := by
  have street : first.veiled.street = second.veiled.street := congrArg Hand.street same
  change first.street = second.street at street
  unfold runOut
  dsimp only
  apply alike_finish
  rw [veiled_record, veiled_record, veiled_dealOut, veiled_dealOut, same, street]

theorem alike_nextStreet :
    Alike first.nextStreet second.nextStreet := by
  have entered : first.enterStreet.veiled = second.enterStreet.veiled :=
    veiled_congr same veiled_enterStreet
  have opened : first.enterStreet.openStreet = second.enterStreet.openStreet := by
    rw [← openStreet_veiled, entered, openStreet_veiled]
  unfold nextStreet
  dsimp only
  rw [opened]
  split
  · exact alike_runOut entered
  · rename_i next _
    exact .same (congrArg (fun hand : Hand => hand.turnTo next) entered)

/-- Two hands that look the same advance to hands that are alike. -/
theorem alike_advance :
    Alike first.advance second.advance := by
  have live := liveSeats_of_same same
  have settled : first.settled = second.settled := by
    rw [← settled_veiled, same, settled_veiled]
  have actors : first.actors = second.actors := by
    rw [← actors_veiled, same, actors_veiled]
  have toAct : first.veiled.toAct = second.veiled.toAct := congrArg Hand.toAct same
  change first.toAct = second.toAct at toAct
  have street : first.veiled.street = second.veiled.street := congrArg Hand.street same
  change first.street = second.street at street
  have next : first.nextActor (second.toAct.elim 0 (· + 1)) =
      second.nextActor (second.toAct.elim 0 (· + 1)) := by
    rw [← nextActor_veiled, same, nextActor_veiled]
  unfold advance
  rw [live, settled, actors, street, toAct, next]
  split
  · exact alike_finish same
  · split
    · split
      · exact alike_runOut same
      · rename_i next _
        exact .same (congrArg (fun hand : Hand => hand.turnTo next) same)
    · split
      · exact alike_runOut same
      · split
        · exact alike_finish same
        · exact alike_nextStreet same

end Same

end Hand

/-! ## Actions -/

/-- What an action makes of a hand before it advances, if it is accepted. -/
def acted (hand : Hand) (action : Action) : Except EngineError Hand :=
  if !hand.inPlay then .error ⟨"hand is over"⟩
  else if hand.toAct ≠ some action.seat then
    .error ⟨s!"not seat {action.seat}'s turn"⟩
  else
    match legal hand with
    | none => .error ⟨"hand is over"⟩
    | some legal =>
        if !legal.allows action.action then
          let name := action.action.text
          let names := ",".intercalate (legal.actions.map ActionName.text)
          .error ⟨s!"illegal {name} (legal: {names})"⟩
        else applyAction hand legal action

theorem act_eq
    (hand : Hand)
    (action : Action) :
    act hand action =
      (acted hand action).map fun hand => (hand.markActed action.seat).advance := by
  unfold act acted
  split
  · rfl
  · split
    · rfl
    · cases legal hand with
      | none => rfl
      | some envelope =>
          dsimp only
          split <;> rfl

theorem legal_veiled
    (hand : Hand) :
    legal hand.veiled = legal hand := by
  unfold legal
  have legalFors : legalFor hand.veiled = legalFor hand := funext hand.legalFor_veiled
  rw [legalFors]
  rfl

theorem applyAction_veiled
    (hand : Hand)
    (legal : Legal)
    (action : Action) :
    (applyAction hand legal action).map Hand.veiled =
      (applyAction hand.veiled legal action).map Hand.veiled := by
  unfold applyAction
  split
  · exact congrArg Except.ok (hand.veiled_foldSeat action.seat)
  · exact congrArg Except.ok hand.veiled_veiled.symm
  · exact congrArg Except.ok (hand.veiled_callSeat action.seat legal.callAmount)
  · cases raiseAmount legal action.amount with
    | error refusal => rfl
    | ok total => exact congrArg Except.ok (hand.veiled_raiseTo action.seat total)

theorem acted_veiled
    (hand : Hand)
    (action : Action) :
    (acted hand action).map Hand.veiled = (acted hand.veiled action).map Hand.veiled := by
  unfold acted
  rw [legal_veiled]
  have inPlay : hand.veiled.inPlay = hand.inPlay := rfl
  have toAct : hand.veiled.toAct = hand.toAct := rfl
  rw [inPlay, toAct]
  split
  · rfl
  · split
    · rfl
    · split
      · rfl
      · split
        · rfl
        · exact applyAction_veiled hand _ action

/-- One action keeps hands alike. -/
theorem alike_step
    {first second : Hand}
    (alike : Hand.Alike first second)
    (action : Action) :
    Hand.Alike (step first action) (step second action) := by
  cases alike with
  | shownDown firstOver secondOver =>
      unfold step
      rw [act_of_done firstOver.1, act_of_done secondOver.1]
      exact .shownDown firstOver secondOver
  | same same =>
      have outcomes : (acted first action).map Hand.veiled =
          (acted second action).map Hand.veiled := by
        rw [acted_veiled first, same, ← acted_veiled second]
      unfold step
      rw [act_eq, act_eq]
      cases firstOutcome : acted first action with
      | error refusal =>
          rw [firstOutcome] at outcomes
          cases secondOutcome : acted second action with
          | error _ => exact .same same
          | ok _ =>
              rw [secondOutcome] at outcomes
              cases outcomes
      | ok firstActed =>
          rw [firstOutcome] at outcomes
          cases secondOutcome : acted second action with
          | error _ =>
              rw [secondOutcome] at outcomes
              cases outcomes
          | ok secondActed =>
              rw [secondOutcome] at outcomes
              have sameActed : firstActed.veiled = secondActed.veiled := Except.ok.inj outcomes
              exact Hand.alike_advance (Hand.veiled_congr sameActed fun hand =>
                hand.veiled_markActed action.seat)

/-! ## Dealing -/

namespace Hand

theorem veiled_foldl
    {α : Type*}
    (change : Hand → α → Hand)
    (factors : ∀ hand item, (change hand item).veiled = (change hand.veiled item).veiled)
    (items : List α)
    {first second : Hand}
    (same : first.veiled = second.veiled) :
    (items.foldl change first).veiled = (items.foldl change second).veiled := by
  induction items generalizing first second with
  | nil => exact same
  | cons item items inductionHypothesis =>
      exact inductionHypothesis (veiled_congr same fun hand => factors hand item)

theorem veiled_commit_veiled
    (hand : Hand)
    (index amount : Nat)
    (why : Option Ev) :
    (hand.commit index amount why).veiled = (hand.veiled.commit index amount why).veiled := by
  rw [veiled_commit, veiled_commit, veiled_veiled]

theorem veiled_postAntes
    (hand : Hand)
    (live : List Nat) :
    (hand.postAntes live).veiled = (hand.veiled.postAntes live).veiled := by
  have ante : hand.veiled.ante = hand.ante := rfl
  unfold postAntes
  rw [ante]
  split
  · exact veiled_foldl _ (fun hand index => hand.veiled_commit_veiled index hand.ante _) live
      hand.veiled_veiled.symm
  · exact hand.veiled_veiled.symm

theorem veiled_postBlinds
    (hand : Hand)
    (sbSeat bbSeat : Nat) :
    (hand.postBlinds sbSeat bbSeat).veiled = (hand.veiled.postBlinds sbSeat bbSeat).veiled := by
  have posted : ((hand.commit sbSeat hand.sb (some .sb)).commit bbSeat hand.bb (some .bb)).veiled =
      ((hand.veiled.commit sbSeat hand.sb (some .sb)).commit bbSeat hand.bb (some .bb)).veiled :=
    veiled_congr (hand.veiled_commit_veiled sbSeat hand.sb _) fun hand =>
      hand.veiled_commit_veiled bbSeat _ _
  have bets : ∀ hand : Hand, hand.veiled.seats.map Seat.streetCommit =
      hand.seats.map Seat.streetCommit := by
    intro hand
    simp only [veiled, List.map_map]
    rfl
  have blinded := congrArg (fun hand : Hand => { hand with
    currentBet := (hand.seats.map Seat.streetCommit).foldl max 0
    minRaiseSize := hand.bb }) posted
  rw [bets, bets] at blinded
  exact blinded

theorem veiled_dealRound (hand : Hand) :
    hand.dealRound.veiled = hand.veiled := by
  unfold dealRound
  generalize hand.order (hand.button + 1) = indices
  induction indices generalizing hand with
  | nil => rfl
  | cons index indices inductionHypothesis =>
      rw [List.foldl_cons, inductionHypothesis]
      split
      · rfl
      · exact hand.veiled_dealTo index

theorem veiled_openHand
    (hand : Hand)
    (headsUp : Bool)
    (sbSeat bbSeat : Nat) :
    (hand.openHand headsUp sbSeat bbSeat).veiled =
      (hand.veiled.openHand headsUp sbSeat bbSeat).veiled := by
  unfold openHand
  rw [veiled_record, veiled_record, nextActor_veiled]
  exact congrArg (fun opened : Hand => { opened with
    toAct := if headsUp then some sbSeat else hand.nextActor (bbSeat + 1)
    headsUp := headsUp
    sbSeat := sbSeat
    bbSeat := bbSeat }) hand.veiled_veiled.symm

end Hand

/-- The deal looks the same whatever the seed and the deck. -/
theorem veiled_dealt
    (config : HandConfig)
    (seedHex : String)
    (deck otherDeck : Deck) :
    (config.dealt deck).veiled = ({ config with seedHex }.dealt otherDeck).veiled := by
  have table : (config.table deck).veiled = ({ config with seedHex }.table otherDeck).veiled := rfl
  have dealtIn : ({ config with seedHex }.table otherDeck).dealtIn =
      (config.table deck).dealtIn := rfl
  have blinds : { config with seedHex }.blinds otherDeck = config.blinds deck := rfl
  have posted : (config.posted deck).veiled =
      ({ config with seedHex }.posted otherDeck).veiled := by
    unfold HandConfig.posted
    rw [dealtIn, blinds]
    exact Hand.veiled_congr (Hand.veiled_congr table fun hand => hand.veiled_postAntes _)
      fun hand => hand.veiled_postBlinds _ _
  have rounds : (config.posted deck).dealRound.dealRound.veiled =
      ({ config with seedHex }.posted otherDeck).dealRound.dealRound.veiled := by
    simp only [Hand.veiled_dealRound]
    exact posted
  unfold HandConfig.dealt
  rw [dealtIn, blinds]
  exact Hand.veiled_congr rounds fun hand => hand.veiled_openHand _ _ _

/-- Hands dealt at the same table are alike. -/
theorem alike_newHand
    {config : HandConfig}
    {seedHex : String}
    {first second : Hand}
    (firstAccepted : newHand config = .ok first)
    (secondAccepted : newHand { config with seedHex } = .ok second) :
    Hand.Alike first second := by
  obtain ⟨firstDeck, -, -, firstOutcome⟩ := newHand_ok firstAccepted
  obtain ⟨secondDeck, -, -, secondOutcome⟩ := newHand_ok secondAccepted
  have same := veiled_dealt config seedHex firstDeck secondDeck
  have actors : (config.dealt firstDeck).actors =
      ({ config with seedHex }.dealt secondDeck).actors := by
    rw [← Hand.actors_veiled, same, Hand.actors_veiled]
  rcases firstOutcome with ⟨firstNone, rfl⟩ | ⟨firstSome, rfl⟩
  · rcases secondOutcome with ⟨-, rfl⟩ | ⟨secondSome, -⟩
    · exact Hand.alike_runOut same
    · exact absurd (actors.symm.trans firstNone) secondSome
  · rcases secondOutcome with ⟨secondNone, -⟩ | ⟨-, rfl⟩
    · exact absurd (actors.trans secondNone) firstSome
    · exact .same same

/-! ## Views -/

/-- Before a showdown a seat sees of the cards only the board and its own. -/
theorem seatView_eq
    {hand : Hand}
    (notShownDown : ¬hand.ShownDown)
    (viewer : Nat) :
    seatView hand viewer = { seatView hand.veiled viewer with
      board := hand.board
      hole := (hand.seat viewer).hole
      seats := (seatView hand.veiled viewer).seats.mapIdx fun index seat =>
        { seat with hole := if index = viewer then (hand.seat viewer).hole else none } } := by
  have own : hand.seats[viewer]?.bind Seat.hole = (hand.seat viewer).hole := by
    unfold Hand.seat
    rw [List.getD_eq_getElem?_getD]
    cases hand.seats[viewer]? <;> rfl
  have seats : (seatView hand viewer).seats = (seatView hand.veiled viewer).seats.mapIdx
      fun index seat =>
        { seat with hole := if index = viewer then (hand.seat viewer).hole else none } := by
    apply List.ext_getElem?
    intro index
    simp only [seatView, Hand.veiled, List.getElem?_mapIdx, List.getElem?_map]
    cases here : hand.seats[index]? with
    | none => rfl
    | some seat =>
        have hidden : hand.shown viewer index seat = (index == viewer) := by
          unfold Hand.shown
          rw [Bool.or_eq_left_iff_imp]
          intro isShown
          simp only [Bool.and_eq_true, Hand.inPlay, Bool.not_eq_true', beq_eq_false_iff_ne]
            at isShown
          refine absurd ⟨?_, isShown.1.1.2⟩ notShownDown
          cases phase : hand.phase with
          | act => exact absurd phase isShown.1.1.1
          | done => rfl
        simp only [Option.map_some, hidden, beq_iff_eq, Seat.veiled]
        congr 2
        split
        · rename_i isViewer
          subst isViewer
          rw [Hand.seat, List.getD_eq_getElem?_getD, here]
          rfl
        · rfl
  have legals := legal_veiled hand
  have committed := hand.committed_veiled
  unfold seatView at seats ⊢
  rw [legals, committed, own]
  dsimp only at seats ⊢
  rw [seats]
  rfl

/-- A view reveals something of a seat's hole cards: the cards, or what they make. -/
def SeatView.Reveals (view : SeatView) (index : Nat) : Prop :=
  (∃ seat ∈ view.seats[index]?, seat.hole ≠ none) ∨
    ∃ result ∈ view.result, ∃ evals ∈ result.evals, ∃ named, (index, named) ∈ evals

/-- In a showdown the seats in the hand are evaluated, and no other. -/
theorem Hand.InOrder.evaluated
    {hand : Hand}
    (inOrder : hand.InOrder)
    {result : HandResult}
    (finished : hand.result = some result)
    {evals : List (Nat × NamedEval)}
    (isEvals : result.evals = some evals)
    {index : Nat}
    {named : NamedEval}
    (isNamed : (index, named) ∈ evals) :
    hand.ShownDown ∧ hand.inHand index := by
  cases inOrder with
  | playing _ noResult _ _ =>
      rw [noResult] at finished
      cases finished
  | finished closing _ _ _ isFinished =>
      subst isFinished
      have phase := closing.finish_phase
      unfold finish at finished phase ⊢
      dsimp only at finished phase ⊢
      split at finished
      · obtain rfl := Option.some.inj finished
        cases isEvals
      · have sameLive : closing.close.refundUncalled.liveSeats = closing.liveSeats :=
          refundUncalled_liveSeats _
        have shown := sameShown_showdown closing.close.refundUncalled closing.liveSeats
        rw [showdown_result] at finished
        obtain rfl := Option.some.inj finished
        obtain rfl := Option.some.inj isEvals
        obtain ⟨live, isLive, isPair⟩ := List.mem_map.mp isNamed
        obtain ⟨rfl, -⟩ := Prod.mk.inj isPair
        refine ⟨⟨?_, ?_⟩, ?_⟩
        · rw [showdown_phase, refundUncalled_phase]
          rfl
        · rw [showdown_result]
          rfl
        · rw [← mem_liveSeats, shown.liveSeats, sameLive]
          exact isLive

/-- A view reveals another seat's cards only if that seat was shown down. -/
theorem shownDown_of_reveals
    {hand : Hand}
    (inOrder : hand.InOrder)
    {viewer index : Nat}
    (isOther : index ≠ viewer)
    (reveals : (seatView hand viewer).Reveals index) :
    hand.ShownDown ∧ hand.inHand index := by
  rcases reveals with ⟨seen, isSeen, hasHole⟩ | ⟨result, isResult, evals, isEvals, named, isNamed⟩
  · simp only [seatView, List.getElem?_mapIdx, Option.mem_def, Option.map_eq_some_iff] at isSeen
    obtain ⟨seat, here, rfl⟩ := isSeen
    dsimp only at hasHole
    split at hasHole
    · rename_i shown
      simp only [Hand.shown, Bool.or_eq_true, beq_iff_eq, isOther, false_or, Bool.and_eq_true,
        Hand.inPlay, Bool.not_eq_true', beq_eq_false_iff_ne] at shown
      obtain ⟨⟨⟨isOver, isShowdown⟩, unfolded⟩, isIn⟩ := shown
      refine ⟨⟨?_, isShowdown⟩, ?_⟩
      · cases phase : hand.phase with
        | act => exact absurd phase isOver
        | done => rfl
      · rw [Hand.inHand, Hand.seat, List.getD_eq_getElem?_getD, here]
        simp [Seat.inHand, unfolded, isIn]
    · exact absurd rfl hasHole
  · simp only [seatView] at isResult
    split at isResult
    · cases isResult
    · exact inOrder.evaluated isResult isEvals isNamed

/-! ## Public histories -/

/-- An action as everyone sees it: only a bet or a raise has an amount of its own. -/
def Action.seen (action : Action) : Action :=
  match action.action with
  | .bet | .raise => action
  | _ => { action with amount := none }

/-- The actions of a run that were accepted. -/
def played : Hand → List Action → List Action
  | _, [] => []
  | hand, action :: actions =>
      match act hand action with
      | .ok next => action.seen :: played next actions
      | .error _ => played hand actions

/-- An accepted action and what everyone sees of it come to the same. -/
theorem act_seen
    {hand next : Hand}
    {action : Action}
    (accepted : act hand action = .ok next) :
    act hand action.seen = .ok next := by
  rw [← accepted]
  unfold Action.seen
  split
  · rfl
  · rfl
  · rename_i notBet notRaise
    unfold act applyAction
    cases named : action.action with
    | fold => rfl
    | check => rfl
    | call => rfl
    | bet => exact absurd named notBet
    | raise => exact absurd named notRaise
    | other text unknown =>
        obtain ⟨-, -, allowed, -⟩ := act_ok accepted
        rw [named] at allowed
        simp only [Legal.allows, List.contains_iff_mem, legalFor] at allowed
        split at allowed <;> split at allowed <;> (try split at allowed) <;> simp at allowed

theorem run_played
    (hand : Hand)
    (actions : List Action) :
    Lib.run step hand (played hand actions) = Lib.run step hand actions := by
  induction actions generalizing hand with
  | nil => rfl
  | cons action actions inductionHypothesis =>
      unfold played
      cases outcome : act hand action with
      | error refusal =>
          have unchanged : step hand action = hand := by simp only [step, outcome]
          rw [Lib.run_cons, unchanged]
          exact inductionHypothesis hand
      | ok next =>
          have stepped : step hand action = next := by simp only [step, outcome]
          have seen : step hand action.seen = next := by simp only [step, act_seen outcome]
          dsimp only
          rw [Lib.run_cons, Lib.run_cons, seen, stepped]
          exact inductionHypothesis next

/-- Two hands have the same public history: everyone saw the same actions, and the same
cards on the board. -/
structure SameHistory (first second : Hand) (firstActions secondActions : List Action) :
    Prop where
  played : played first firstActions = played second secondActions
  board : (Lib.run step first firstActions).board = (Lib.run step second secondActions).board

/-- Of two hands of a table with the same public history, a seat with the same cards in
both sees the same until a showdown, and no view reveals the cards of another seat that
was not shown down. -/
theorem view_leaks_nothing
    (config : HandConfig)
    (seedHex : String)
    (first second : Hand)
    (firstAccepted : newHand config = .ok first)
    (secondAccepted : newHand { config with seedHex } = .ok second)
    (firstActions secondActions : List Action)
    (viewer : Nat) :
    (SameHistory first second firstActions secondActions →
      ((Lib.run step first firstActions).seat viewer).hole =
        ((Lib.run step second secondActions).seat viewer).hole →
      ¬(Lib.run step first firstActions).ShownDown →
        seatView (Lib.run step first firstActions) viewer =
          seatView (Lib.run step second secondActions) viewer) ∧
      ∀ index, index ≠ viewer →
        (seatView (Lib.run step first firstActions) viewer).Reveals index →
          (Lib.run step first firstActions).ShownDown ∧
            (Lib.run step first firstActions).inHand index := by
  refine ⟨?_, ?_⟩
  · rintro ⟨samePlayed, sameBoard⟩ sameHole notShownDown
    have alike : ∀ (actions : List Action) (first second : Hand), Hand.Alike first second →
        Hand.Alike (Lib.run step first actions) (Lib.run step second actions) := by
      intro actions
      induction actions with
      | nil => exact fun _ _ alike => alike
      | cons action actions inductionHypothesis =>
          exact fun first second alike => inductionHypothesis _ _ (alike_step alike action)
    have ends := alike (played first firstActions) first second
      (alike_newHand firstAccepted secondAccepted)
    rw [run_played, samePlayed, run_played] at ends
    cases ends with
    | shownDown firstOver _ => exact absurd firstOver notShownDown
    | same same =>
        have secondNot : ¬(Lib.run step second secondActions).ShownDown := by
          rintro ⟨phase, isShowdown⟩
          have samePhase : (Lib.run step first firstActions).veiled.phase =
              (Lib.run step second secondActions).veiled.phase := congrArg Hand.phase same
          have sameResult : (Lib.run step first firstActions).veiled.result =
              (Lib.run step second secondActions).veiled.result := congrArg Hand.result same
          exact notShownDown ⟨samePhase.trans phase,
            (congrArg (fun result => result.any HandResult.showdown) sameResult).trans isShowdown⟩
        rw [seatView_eq notShownDown, seatView_eq secondNot, same, sameBoard, sameHole]
  · intro index isOther reveals
    have inOrder := Lib.invariant_run inOrder_step (inOrder_newHand firstAccepted) firstActions
    exact shownDown_of_reveals inOrder isOther reveals

/-- A heads-up table with a seed. -/
def seededTable : HandConfig :=
  { headsUpTable with
    seedHex := "4c7b3ccccccccccccccccccccccccccccccccccccccccccccccccccccccccccc" }

/-- Another seed, which deals the same cards to seat 0. -/
def otherSeed : String :=
  "ecf30ccccccccccccccccccccccccccccccccccccccccccccccccccccccccccc"

theorem view_leaks_nothing_other_cards :
    ∃ first second, newHand seededTable = .ok first ∧
      newHand { seededTable with seedHex := otherSeed } = .ok second ∧
      (first.seat 1).hole ≠ (second.seat 1).hole ∧
      seatView (Lib.run step first [⟨0, .call, none⟩]) 0 =
        seatView (Lib.run step second [⟨0, .call, none⟩]) 0 := by
  have facts : ((newHand seededTable).toOption.any fun first =>
      (newHand { seededTable with seedHex := otherSeed }).toOption.any fun second =>
        Decidable.decide (played first [⟨0, .call, none⟩] = played second [⟨0, .call, none⟩] ∧
          (Lib.run step first [⟨0, .call, none⟩]).board =
            (Lib.run step second [⟨0, .call, none⟩]).board ∧
          ((Lib.run step first [⟨0, .call, none⟩]).seat 0).hole =
            ((Lib.run step second [⟨0, .call, none⟩]).seat 0).hole ∧
          (first.seat 1).hole ≠ (second.seat 1).hole ∧
          (Lib.run step first [⟨0, .call, none⟩]).phase = .act)) = true := by
    decide +kernel
  cases firstDealt : newHand seededTable with
  | error refusal =>
      rw [firstDealt] at facts
      cases facts
  | ok first =>
      cases secondDealt : newHand { seededTable with seedHex := otherSeed } with
      | error refusal =>
          rw [firstDealt, secondDealt] at facts
          cases facts
      | ok second =>
          rw [firstDealt, secondDealt] at facts
          obtain ⟨samePlayed, sameBoard, sameHole, otherHole, inPlay⟩ := of_decide_eq_true facts
          have leaksNothing := view_leaks_nothing seededTable otherSeed first second firstDealt
            secondDealt [⟨0, .call, none⟩] [⟨0, .call, none⟩] 0
          refine ⟨first, second, rfl, rfl, otherHole, ?_⟩
          refine leaksNothing.1 ⟨samePlayed, sameBoard⟩ sameHole ?_
          rintro ⟨isOver, -⟩
          rw [inPlay] at isOver
          cases isOver

end Poker
end NostrBbs
