import NostrBbs.Poker.Raising

/-!
# Betting ends

The streets left, the chips left to raise with and the seats left to answer bound the
actions that a hand takes.  A street closes when every seat that can act has answered
the highest commitment, and a hand that ends with several seats has five cards on the
board.
-/

namespace NostrBbs
namespace Poker

namespace Hand

instance (hand : Hand) (index : Nat) : Decidable (hand.pending index) :=
  inferInstanceAs (Decidable (_ ∨ _))

/-! ## The measure -/

/-- The seats that have something to answer. -/
def waiting (hand : Hand) : Finset Nat :=
  (Finset.range hand.seats.length).filter fun index =>
    hand.canAct index ∧ hand.pending index

/-- The most actions that one street takes. -/
def streetRoom (hand : Hand) : Nat :=
  (hand.startStacks + 1) * (hand.seats.length + 2)

/-- The streets left, the chips left to raise with and the seats left to answer. -/
def room (hand : Hand) : Nat :=
  (3 - hand.street) * hand.streetRoom +
    (hand.startStacks - hand.currentBet) * (hand.seats.length + 2) + hand.waiting.card

/-- One action more when a seat without chips has the turn. -/
def idle (hand : Hand) : Nat :=
  if hand.toAct.any hand.canAct then 0 else 1

/-- The accepted actions that a hand has left, at most. -/
def actionsLeft (hand : Hand) : Nat :=
  if hand.inPlay then hand.room + hand.idle + 1 else 0

theorem card_waiting_le (hand : Hand) : hand.waiting.card ≤ hand.seats.length :=
  (Finset.card_filter_le _ _).trans_eq (Finset.card_range _)

theorem mem_waiting
    (hand : Hand)
    (index : Nat) :
    index ∈ hand.waiting ↔ hand.canAct index ∧ hand.pending index := by
  rw [waiting, Finset.mem_filter, Finset.mem_range]
  exact and_iff_right_of_imp fun answers => lt_of_inHand (inHand_of_canAct answers.1)

/-- A hand in play in which every raise is of at least one chip. -/
structure Ongoing (hand : Hand) : Prop where
  between : hand.Between
  awaited : ∃ index, hand.Turn index ∨ hand.Stranded index
  blind : 0 < hand.bb
  raise : 0 < hand.minRaiseSize
  onStreet : hand.street ≤ 3

/-- Every total open to a raise is above the bet. -/
theorem lt_minRaiseTo
    {hand : Hand}
    {index : Nat}
    (blind : 0 < hand.bb)
    (raise : 0 < hand.minRaiseSize)
    (mayRaise : hand.mayRaise index) :
    hand.currentBet < (legalFor hand index).minRaiseTo := by
  have covers : hand.currentBet < (hand.seat index).allChips := by
    simp only [Hand.mayRaise, Bool.and_eq_true, decide_eq_true_eq] at mayRaise
    exact mayRaise.1.1
  have betSize : 0 < if hand.street ≤ 1 then hand.bb else hand.bb * 2 := by
    split <;> omega
  simp only [legalFor, mayRaise, Bool.and_true, Bool.true_and, decide_eq_true_eq]
  generalize (if hand.street ≤ 1 then hand.bb else hand.bb * 2) = size at *
  cases limit : hand.limit with
  | true =>
      simp only [if_true]
      split <;> omega
  | false =>
      simp only [Bool.false_eq_true, if_false]
      split <;> omega

end Hand

namespace Made

variable {hand applied : Hand} {action : Action}

theorem bet_lt
    (made : Made hand action applied)
    (blind : 0 < hand.bb)
    (raise : 0 < hand.minRaiseSize)
    (isRaise : action.action = hand.raiseName) :
    hand.currentBet < applied.currentBet := by
  have named := isRaise ▸ hand.raiseName_eq
  cases made with
  | fold isFold => simp [isFold] at named
  | check isCheck _ => simp [isCheck] at named
  | call isCall _ => simp [isCall] at named
  | raise total _ _ mayRaise atLeast _ =>
      rw [Hand.raiseTo_currentBet]
      exact Nat.lt_of_lt_of_le (Hand.lt_minRaiseTo blind raise mayRaise) atLeast

/-- An action raises the bet, or leaves the other seats what they had to answer. -/
theorem bet_cases
    (made : Made hand action applied)
    (blind : 0 < hand.bb)
    (raise : 0 < hand.minRaiseSize) :
    hand.currentBet < (applied.markActed action.seat).currentBet ∨
      (applied.markActed action.seat).currentBet = hand.currentBet ∧
        ∀ other, other ≠ action.seat → (applied.markActed action.seat).canAct other →
          (applied.markActed action.seat).pending other → hand.pending other := by
  have wager := made.wager
  cases wager with
  | passive _ _ sameBet _ others =>
      refine .inr ⟨sameBet, ?_⟩
      intro other isOther canAct isPending
      unfold Hand.pending at isPending
      rw [others other (made.bound_of_canAct canAct) isOther, sameBet] at isPending
      exact isPending
  | full total isRaise _ _ _ _ _ _ _ => exact .inl (made.bet_lt blind raise isRaise)
  | short total isRaise _ _ _ _ _ _ _ => exact .inl (made.bet_lt blind raise isRaise)

/-- Every accepted action takes room. -/
theorem room_lt
    (made : Made hand action applied)
    (ongoing : hand.Ongoing)
    (named : hand.toAct = some action.seat) :
    (applied.markActed action.seat).room < hand.room + hand.idle := by
  have staked := ongoing.between.staked
  have sameTable : Hand.SameTable (applied.markActed action.seat) hand :=
    (Hand.sameTable_markActed _ _).trans (sameTable_applied made.applied)
  have sameStreet : (applied.markActed action.seat).street = hand.street :=
    congrArg Spread.street (applied_spread made.applied).1
  have notMore := (applied.markActed action.seat).card_waiting_le
  have bounded := (staked.made made).currentBet_le
  unfold Hand.room Hand.streetRoom
  rw [sameTable.startStacks, sameTable.length_seats, sameStreet]
  rw [sameTable.length_seats] at notMore
  rw [sameTable.startStacks] at bounded
  rcases made.bet_cases ongoing.blind ongoing.raise with higher | ⟨sameBet, others⟩
  · have chips : (hand.startStacks - (applied.markActed action.seat).currentBet + 1) *
        (hand.seats.length + 2) ≤
          (hand.startStacks - hand.currentBet) * (hand.seats.length + 2) :=
      Nat.mul_le_mul_right _ (by omega)
    rw [Nat.succ_mul] at chips
    omega
  · have fewer : (applied.markActed action.seat).waiting ⊆ hand.waiting.erase action.seat := by
      intro index member
      obtain ⟨canAct, isPending⟩ := (Hand.mem_waiting _ _).mp member
      have isOther : index ≠ action.seat := by
        rintro rfl
        exact made.not_pending staked canAct isPending
      exact Finset.mem_erase.mpr ⟨isOther, (Hand.mem_waiting _ _).mpr
        ⟨made.canAct_other isOther canAct, others index isOther canAct isPending⟩⟩
    have counted := Finset.card_le_card fewer
    rw [sameBet]
    obtain ⟨index, turn | stranded⟩ := ongoing.awaited
    · have isSeat : index = action.seat := Option.some.inj (turn.named.symm.trans named)
      subst isSeat
      have answers := (Hand.mem_waiting _ _).mpr ⟨turn.canAct, turn.pending⟩
      have lower := Finset.card_erase_lt_of_mem answers
      omega
    · have isIdle : hand.idle = 1 := by
        rw [Hand.idle, stranded.named, Option.any_some, stranded.cannotAct]
        rfl
      have atMost := Finset.card_erase_le (s := hand.waiting) (a := action.seat)
      omega

end Made

namespace Hand

/-! ## Advancing -/

/-- Advancing takes no room back and keeps what every raise needs. -/
theorem room_advance
    {hand : Hand}
    (staked : hand.Staked)
    (blind : 0 < hand.bb)
    (raise : 0 < hand.minRaiseSize)
    (onStreet : hand.street ≤ 3)
    (playing : hand.advance.phase = .act) :
    hand.advance.room ≤ hand.room ∧ 0 < hand.advance.bb ∧
      0 < hand.advance.minRaiseSize ∧ hand.advance.street ≤ 3 := by
  have notDone : ∀ closing : Hand, closing.finish.phase ≠ .act := by
    intro closing
    rw [closing.finish_phase]
    simp
  have outcome := advanced staked.betting.seated
  generalize hand.advance = next at outcome playing
  cases outcome with
  | foldOut _ => exact absurd playing (notDone hand)
  | next index _ _ => exact ⟨Nat.le_refl _, blind, raise, onStreet⟩
  | runOut _ _ _ => exact absurd playing (notDone _)
  | showdown _ _ _ _ => exact absurd playing (notDone hand)
  | street first _ _ _ notRiver _ =>
      have sameTable := hand.sameTable_enterStreet
      have sameBlind : (hand.enterStreet.turnTo first).bb = hand.bb :=
        congrArg Setup.bb hand.enterStreet_setup
      have next : (hand.enterStreet.turnTo first).street = hand.street + 1 :=
        hand.enterStreet_street
      have size : (hand.enterStreet.turnTo first).minRaiseSize = hand.bb :=
        hand.enterStreet_minRaiseSize
      refine ⟨?_, by omega, by omega, by omega⟩
      have answers := (hand.enterStreet.turnTo first).card_waiting_le
      have sameLength : (hand.enterStreet.turnTo first).seats.length = hand.seats.length :=
        sameTable.length_seats
      have sameChips : (hand.enterStreet.turnTo first).startStacks = hand.startStacks :=
        sameTable.startStacks
      have noBet : (hand.enterStreet.turnTo first).currentBet = 0 := hand.enterStreet_currentBet
      have streets : 3 - hand.street = 3 - (hand.street + 1) + 1 := by omega
      rw [sameLength] at answers
      unfold room streetRoom
      rw [sameLength, sameChips, noBet, next, streets, Nat.sub_zero, Nat.succ_mul, Nat.succ_mul]
      omega

theorem actionsLeft_le
    {hand : Hand}
    (onStreet : hand.street ≤ 3) :
    hand.actionsLeft ≤ 4 * hand.streetRoom := by
  have answers := hand.card_waiting_le
  have isIdle : hand.idle ≤ 1 := by
    unfold idle
    split <;> omega
  have streets : (3 - hand.street) * hand.streetRoom ≤ 3 * hand.streetRoom :=
    Nat.mul_le_mul_right _ (by omega)
  have chips : (hand.startStacks - hand.currentBet) * (hand.seats.length + 2) ≤
      hand.startStacks * (hand.seats.length + 2) :=
    Nat.mul_le_mul_right _ (Nat.sub_le _ _)
  have street : hand.streetRoom =
      hand.startStacks * (hand.seats.length + 2) + (hand.seats.length + 2) :=
    Nat.succ_mul _ _
  unfold actionsLeft room
  split <;> omega

/-- Over, or in play with room left. -/
def Ending (hand : Hand) : Prop :=
  hand.phase = .done ∨ hand.Ongoing

/-- An accepted action leaves a hand fewer actions. -/
theorem Ongoing.act
    {hand next : Hand}
    {action : Action}
    (ongoing : hand.Ongoing)
    (accepted : act hand action = .ok next) :
    next.Ending ∧ next.actionsLeft < hand.actionsLeft := by
  have awaits := ongoing.between.act ongoing.awaited accepted
  obtain ⟨_, named, applied, made, isNext⟩ := (act_eq_ok_iff hand next action).mp accepted
  have inPlay : hand.inPlay = true := by simp [Hand.inPlay, ongoing.between.phase]
  have left : hand.actionsLeft = hand.room + hand.idle + 1 := if_pos inPlay
  cases awaits with
  | ended done =>
      have isOver : next.inPlay = false := by simp [Hand.inPlay, done]
      refine ⟨.inl done, ?_⟩
      rw [actionsLeft, isOver, left]
      exact Nat.succ_pos _
  | turn index between turn =>
      have staked := ongoing.between.staked.made made
      have blind : 0 < (applied.markActed action.seat).bb := by
        have setup := ((Hand.sameTable_markActed _ action.seat).trans
          (sameTable_applied made.applied)).setup
        rw [show (applied.markActed action.seat).bb = hand.bb from congrArg Setup.bb setup]
        exact ongoing.blind
      have raise : 0 < (applied.markActed action.seat).minRaiseSize := by
        have positive := ongoing.raise
        cases made.wager with
        | passive _ _ _ size _ => omega
        | full total _ _ _ _ isFull _ size _ => omega
        | short total _ _ _ _ _ _ size _ => omega
      have onStreet : (applied.markActed action.seat).street ≤ 3 := by
        have sameStreet : (applied.markActed action.seat).street = hand.street :=
          congrArg Spread.street (applied_spread made.applied).1
        rw [sameStreet]
        exact ongoing.onStreet
      have playing := between.phase
      rw [isNext] at playing
      obtain ⟨room, nextBlind, nextRaise, nextStreet⟩ :=
        room_advance staked blind raise onStreet playing
      rw [← isNext] at room nextBlind nextRaise nextStreet
      refine ⟨.inr ⟨between, ⟨index, .inl turn⟩, nextBlind, nextRaise, nextStreet⟩, ?_⟩
      have taken := made.room_lt ongoing named
      have nextInPlay : next.inPlay = true := by simp [Hand.inPlay, between.phase]
      have notIdle : next.idle = 0 := by
        rw [idle, turn.named, Option.any_some, turn.canAct]
        rfl
      rw [actionsLeft, if_pos nextInPlay, notIdle, left]
      omega

theorem Ending.step
    (hand : Hand)
    (action : Action)
    (ending : hand.Ending) :
    (step hand action).Ending := by
  unfold Poker.step
  split
  · rename_i next accepted
    rcases ending with done | ongoing
    · rw [act_of_done done] at accepted
      cases accepted
    · exact (ongoing.act accepted).1
  · exact ending

theorem Ending.descends
    {hand : Hand}
    {action : Action}
    (ending : hand.Ending)
    (accepted : ∃ next, Poker.act hand action = .ok next) :
    (Poker.step hand action).actionsLeft < hand.actionsLeft := by
  obtain ⟨next, accepted⟩ := accepted
  rw [Poker.step, accepted]
  rcases ending with done | ongoing
  · rw [act_of_done done] at accepted
    cases accepted
  · exact (ongoing.act accepted).2

/-- A hand that is not over can go on. -/
theorem Ending.goes_on
    {hand : Hand}
    (ending : hand.Ending) :
    hand.phase = .done ∨ ∃ action next, act hand action = .ok next := by
  rcases ending with done | ongoing
  · exact .inl done
  · right
    obtain ⟨index, turn | stranded⟩ := ongoing.awaited
    · obtain ⟨name, _, _, next, accepted⟩ := answer_open ongoing.between.phase turn.named
      exact ⟨_, next, accepted⟩
    · obtain ⟨name, _, _, next, accepted⟩ := answer_open ongoing.between.phase stranded.named
      exact ⟨_, next, accepted⟩

end Hand

/-- A dealt hand is over or has room for its actions. -/
theorem ending_newHand
    {config : HandConfig}
    {dealt : Hand}
    (blind : 0 < config.bb)
    (accepted : newHand config = .ok dealt) :
    dealt.Ending ∧
      dealt.actionsLeft ≤
        4 * (((config.seats.map SeatConfig.stack).sum + 1) * (config.seats.length + 2)) := by
  obtain ⟨deck, _, enough, outcome⟩ := newHand_ok accepted
  rcases outcome with ⟨_, rfl⟩ | ⟨someone, rfl⟩
  · have done : (config.dealt deck).runOut.phase = .done := Hand.finish_phase _
    have isOver : (config.dealt deck).runOut.inPlay = false := by simp [Hand.inPlay, done]
    refine ⟨.inl done, ?_⟩
    rw [Hand.actionsLeft, isOver]
    exact Nat.zero_le _
  · have posted := Hand.posted_dealt config deck
    have sameBlind : (config.dealt deck).bb = config.bb := congrArg Setup.bb posted.setup
    have size : (config.dealt deck).minRaiseSize = config.bb := (heard_dealt config deck).lastFull
    have dealing := (Hand.dealing_dealt config deck).1
    have started : (config.dealt deck).startStacks =
        (config.seats.map SeatConfig.stack).sum := by
      rw [posted.startStacks]
      simp only [Hand.startStacks, HandConfig.table, List.map_map]
      rfl
    have seats : (config.dealt deck).seats.length = config.seats.length :=
      posted.length.trans (List.length_map _)
    refine ⟨.inr ⟨between_dealt config deck enough, ?_, by omega, by omega,
      dealing.onStreet⟩, ?_⟩
    · rcases awaited_dealt someone with ⟨index, turn⟩ | ⟨_, stranded⟩
      · exact ⟨index, .inl turn⟩
      · exact ⟨config.button, .inr stranded⟩
    · rw [← started, ← seats]
      exact Hand.actionsLeft_le dealing.onStreet

/-! ## Closing a street -/

namespace Hand

theorem dealNextStreet_board (hand : Hand) :
    hand.board <+: hand.dealNextStreet.board := by
  unfold dealNextStreet dealStreetCards
  split
  · exact ((List.prefix_append _ _).trans (List.prefix_append _ _)).trans
      (List.prefix_append _ _)
  · exact List.prefix_append _ _

theorem dealOut_board
    (hand : Hand)
    (remaining : Nat) :
    hand.board <+: (dealOut remaining hand).board := by
  induction remaining generalizing hand with
  | zero => exact List.prefix_rfl
  | succ remaining inductionHypothesis =>
      exact hand.dealNextStreet_board.trans (inductionHypothesis hand.dealNextStreet)

/-- A run-out completes the board to five cards. -/
theorem Dealing.board_runOut
    {hand : Hand}
    (dealing : hand.Dealing) :
    hand.runOut.board.length = 5 ∧ hand.board <+: hand.runOut.board := by
  have onStreet := dealing.onStreet
  have room : hand.street + (3 - hand.street) ≤ 3 := by omega
  obtain ⟨dealt, reached⟩ := dealing.dealOut room
  have river : (Hand.dealOut (3 - hand.street) hand).street = 3 := by omega
  have sameBoard : hand.runOut.board = (Hand.dealOut (3 - hand.street) hand).board :=
    congrArg Spread.board (finish_spread _)
  rw [sameBoard]
  refine ⟨?_, hand.dealOut_board _⟩
  rw [dealt.boardLength, river]
  rfl

/-- Every live seat is all-in or has acted on the street and matched the highest
commitment. -/
def AllAnswered (hand : Hand) (history : StreetHistory) : Prop :=
  ∀ index, hand.inHand index →
    (hand.seat index).allIn = true ∨
      index ∈ history.acted ∧ (hand.seat index).streetCommit = hand.highestCommit

theorem allAnswered_of_settled
    {hand : Hand}
    {history : StreetHistory}
    (staked : hand.Staked)
    (heard : hand.Heard history)
    (settled : hand.settled) :
    hand.AllAnswered history := by
  intro index inHand
  cases allIn : (hand.seat index).allIn with
  | true => exact .inl rfl
  | false =>
      have isIn : (hand.seat index).inHand = true := inHand
      have canAct : hand.canAct index := by
        rw [Hand.canAct, Seat.canAct, isIn, allIn]
        rfl
      have bound := lt_of_inHand inHand
      obtain ⟨acted, matched⟩ := hand.settled_iff.mp settled _ (hand.seat_mem bound) canAct
      right
      rw [staked.highest]
      exact ⟨(heard.seats index canAct).acted.mp acted, matched⟩

end Hand

namespace Told

/-- What closes with an accepted action: a street with one live seat left or with every
live seat all-in or having answered, and a hand with several live seats on a board of
five cards. -/
structure Closes (told : Told) (action : Action) (next closing : Hand) : Prop where
  advances : next = closing.advance
  street : next.street ≠ told.hand.street ∨ next.phase = .done →
    closing.liveSeats.length = 1 ∨
      closing.AllAnswered (told.history.hear told.hand.highestCommit action)
  board : next.phase = .done →
    closing.liveSeats.length = 1 ∨ next.board.length = 5 ∧ closing.board <+: next.board

/-- Every accepted action closes what it closes in order. -/
def ClosesInOrder (told : Told) : Prop :=
  ∀ action next, act told.hand action = .ok next →
    ∃ applied, Made told.hand action applied ∧
      told.Closes action next (applied.markActed action.seat)

theorem Sound.closesInOrder
    {limit : Bool}
    {told : Told}
    (sound : told.Sound limit)
    (inOrder : told.hand.InOrder) :
    told.ClosesInOrder := by
  intro action next accepted
  obtain ⟨phase, _, applied, made, rfl⟩ := (act_eq_ok_iff told.hand next action).mp accepted
  refine ⟨applied, made, ?_⟩
  cases sound with
  | ended done =>
      rw [done] at phase
      cases phase
  | playing between _ _ heard =>
      cases inOrder with
      | finished closing _ _ _ isFinished =>
          rw [isFinished, closing.finish_phase] at phase
          cases phase
      | playing _ _ _ dealing =>
          have staked := between.staked.made made
          have closingDealing := dealing_applied dealing made.applied
          have answered := Hand.allAnswered_of_settled staked (heard.made between.staked made)
          have sameStreet : (applied.markActed action.seat).street = told.hand.street :=
            congrArg Spread.street (applied_spread made.applied).1
          have closingPhase : (applied.markActed action.seat).phase = .act :=
            (applied_phase made.applied).trans between.phase
          generalize applied.markActed action.seat = closing at *
          have outcome := Hand.advanced staked.betting.seated
          refine ⟨rfl, ?_, ?_⟩
          · intro closes
            generalize closing.advance = next at outcome closes
            cases outcome with
            | foldOut alone => exact .inl alone
            | next index _ _ =>
                rcases closes with other | done
                · exact absurd sameStreet other
                · have playing : closing.phase = .done := done
                  rw [closingPhase] at playing
                  cases playing
            | runOut _ settled _ => exact .inr (answered settled)
            | showdown _ settled _ _ => exact .inr (answered settled)
            | street _ _ settled _ _ _ => exact .inr (answered settled)
          · intro done
            generalize closing.advance = next at outcome done
            cases outcome with
            | foldOut alone => exact .inl alone
            | next index _ _ =>
                have playing : closing.phase = .done := done
                rw [closingPhase] at playing
                cases playing
            | runOut _ _ _ => exact .inr closingDealing.board_runOut
            | showdown _ _ _ river =>
                have sameBoard : closing.finish.board = closing.board :=
                  congrArg Spread.board closing.finish_spread
                rw [sameBoard]
                refine .inr ⟨?_, List.prefix_rfl⟩
                rw [closingDealing.boardLength, river]
                rfl
            | street first _ _ _ _ _ =>
                have playing : closing.enterStreet.phase = .done := done
                rw [closing.enterStreet_phase, closingPhase] at playing
                cases playing

end Told

/-! ## Runs -/

/-- The most actions that a hand of a table takes. -/
def HandConfig.actionBound (config : HandConfig) : Nat :=
  4 * (((config.seats.map SeatConfig.stack).sum + 1) * (config.seats.length + 2))

/-- A hand that the deal itself ends had nobody to act and has five cards on the
board. -/
theorem dealt_over
    {config : HandConfig}
    {dealt : Hand}
    (accepted : newHand config = .ok dealt)
    (isOver : dealt.phase = .done) :
    dealt.board.length = 5 ∧
      ∃ deck, dealt = (config.dealt deck).runOut ∧
        ∀ index, (config.dealt deck).inHand index →
          ((config.dealt deck).seat index).allIn = true := by
  obtain ⟨deck, _, _, outcome⟩ := newHand_ok accepted
  rcases outcome with ⟨noActors, rfl⟩ | ⟨_, rfl⟩
  · refine ⟨(Hand.dealing_dealt config deck).1.board_runOut.1, deck, rfl, ?_⟩
    intro index inHand
    by_contra notAllIn
    have isIn : ((config.dealt deck).seat index).inHand = true := inHand
    have canAct : (config.dealt deck).canAct index := by
      rw [Hand.canAct, Seat.canAct, isIn]
      simpa using notAllIn
    have isActor := (Hand.mem_actors _ index).mpr canAct
    rw [noActors] at isActor
    cases isActor
  · rw [(Hand.posted_dealt config deck).phase] at isOver
    cases isOver

/-- With a positive big blind, accepted actions end a dealt hand within a bound, streets
close when everybody has answered, and boards run out to five cards. -/
theorem betting_ends
    (config : HandConfig)
    (dealt : Hand)
    (blind : 0 < config.bb)
    (accepted : newHand config = .ok dealt) :
    (dealt.phase = .done →
      dealt.board.length = 5 ∧
        ∃ deck, dealt = (config.dealt deck).runOut ∧
          ∀ index, (config.dealt deck).inHand index →
            ((config.dealt deck).seat index).allIn = true) ∧
      ∀ actions,
        Lib.Along step (fun hand action => ∃ next, act hand action = .ok next)
          dealt actions →
        actions.length ≤ config.actionBound ∧
          ((Lib.run step dealt actions).phase = .done ∨
            ∃ action next, act (Lib.run step dealt actions) action = .ok next) ∧
          (Lib.run Told.step ⟨dealt, .fresh config.bb⟩ actions).hand =
            Lib.run step dealt actions ∧
          (Lib.run Told.step ⟨dealt, .fresh config.bb⟩ actions).ClosesInOrder := by
  refine ⟨dealt_over accepted, ?_⟩
  intro actions allAccepted
  obtain ⟨ending, room⟩ := ending_newHand blind accepted
  have sameHand := Told.run_hand ⟨dealt, .fresh config.bb⟩ actions
  have sound := Lib.invariant_run Told.Sound.step (told_newHand accepted) actions
  have inOrder := Lib.invariant_run inOrder_step (inOrder_newHand accepted) actions
  refine ⟨?_, (Lib.invariant_run Hand.Ending.step ending actions).goes_on, sameHand, ?_⟩
  · have short : actions.length ≤ dealt.actionsLeft :=
      Lib.length_le_of_descends (fun hand action kept _ => kept.step hand action)
        (fun hand action kept isAccepted => kept.descends isAccepted) ending allAccepted
    exact short.trans room
  · refine sound.closesInOrder ?_
    rw [sameHand]
    exact inOrder

theorem betting_ends_three_handed :
    ∃ dealt, newHand threeHanded = .ok dealt ∧
      (dealt.phase = .done ∨ ∃ action next, act dealt action = .ok next) ∧
      Told.ClosesInOrder ⟨dealt, .fresh 20⟩ := by
  cases outcome : newHand threeHanded with
  | ok dealt =>
      obtain ⟨_, goesOn, _, closes⟩ :=
        (betting_ends threeHanded dealt (by decide) outcome).2 [] trivial
      exact ⟨dealt, rfl, goesOn, closes⟩
  | error refusal =>
      have deals : (newHand threeHanded).isOk = true := by decide
      rw [outcome] at deals
      cases deals

end Poker
end NostrBbs
