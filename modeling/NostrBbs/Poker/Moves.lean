import NostrBbs.Poker.Dealing

/-!
# What each action does to the seats

The accepted actions with what each of them makes of a hand, seat by seat, and the
invariant of the stakes: a seat that can act has chips, no seat has more in on the
street than in the hand, and the bet to match is the highest commitment.
-/

namespace NostrBbs
namespace Poker

/-! ## Accepted actions -/

/-- The name of an action that puts in more than the bet. -/
def Hand.raiseName (hand : Hand) : ActionName :=
  if hand.currentBet = 0 then .bet else .raise

/-- The open actions of a seat. -/
theorem allows_iff
    (hand : Hand)
    (index : Nat)
    (name : ActionName) :
    (legalFor hand index).allows name ↔
      name = .fold ∨
        name = (if (legalFor hand index).callAmount = 0 then .check else .call) ∨
        hand.mayRaise index ∧ name = hand.raiseName := by
  have actions : (legalFor hand index).actions =
      [.fold, if (legalFor hand index).callAmount = 0 then .check else .call] ++
        if hand.mayRaise index then [hand.raiseName] else [] := rfl
  rw [Legal.allows, List.contains_iff_mem, actions]
  cases hand.mayRaise index <;> simp

theorem Hand.raiseName_eq
    (hand : Hand) :
    hand.raiseName = .bet ∨ hand.raiseName = .raise := by
  unfold Hand.raiseName
  split
  · exact .inl rfl
  · exact .inr rfl

/-- What an open action makes of a hand before it advances. -/
inductive Made (hand : Hand) (action : Action) : Hand → Prop where
  | fold :
      action.action = .fold →
      Made hand action (hand.foldSeat action.seat)
  | check :
      action.action = .check →
      (legalFor hand action.seat).callAmount = 0 →
      Made hand action (hand.checkSeat action.seat)
  | call :
      action.action = .call →
      0 < (legalFor hand action.seat).callAmount →
      Made hand action (hand.callSeat action.seat (legalFor hand action.seat).callAmount)
  | raise (total : Nat) :
      action.action = hand.raiseName →
      action.amount = some total →
      hand.mayRaise action.seat →
      (legalFor hand action.seat).minRaiseTo ≤ total →
      total ≤ (legalFor hand action.seat).maxRaiseTo →
      Made hand action (hand.raiseTo action.seat total)

theorem raiseAmount_eq_ok_iff
    (legal : Legal)
    (amount : Option Nat)
    (total : Nat) :
    raiseAmount legal amount = .ok total ↔
      amount = some total ∧ legal.minRaiseTo ≤ total ∧ total ≤ legal.maxRaiseTo := by
  cases amount with
  | none => simp [raiseAmount]
  | some asked =>
      unfold raiseAmount
      dsimp only
      split
      · rename_i within
        constructor
        · intro same
          obtain rfl := Except.ok.inj same
          exact ⟨rfl, within⟩
        · rintro ⟨same, _⟩
          rw [Option.some.inj same]
      · rename_i outside
        constructor
        · intro same
          cases same
        · rintro ⟨same, within⟩
          exact absurd (Option.some.inj same ▸ within) outside

/-- An action is applied exactly when it is open and its amount is in range. -/
theorem applyAction_eq_ok_iff
    (hand : Hand)
    (action : Action)
    (applied : Hand) :
    (legalFor hand action.seat).allows action.action ∧
        applyAction hand (legalFor hand action.seat) action = .ok applied ↔
      Made hand action applied := by
  rw [allows_iff]
  constructor
  · rintro ⟨isFold | isPassive | ⟨mayRaise, isRaise⟩, accepted⟩
    · rw [applyAction, isFold] at accepted
      obtain rfl := Except.ok.inj accepted
      exact .fold isFold
    · split at isPassive
      · rename_i nothing
        rw [applyAction, isPassive] at accepted
        obtain rfl := Except.ok.inj accepted
        exact .check isPassive nothing
      · rename_i something
        rw [applyAction, isPassive] at accepted
        obtain rfl := Except.ok.inj accepted
        exact .call isPassive (Nat.pos_of_ne_zero something)
    · have raised : (raiseAmount (legalFor hand action.seat) action.amount).map
          (hand.raiseTo action.seat) = .ok applied := by
        rw [applyAction, isRaise] at accepted
        rcases hand.raiseName_eq with isBet | isRaise
        · rwa [isBet] at accepted
        · rwa [isRaise] at accepted
      cases amount : raiseAmount (legalFor hand action.seat) action.amount with
      | error refusal =>
          rw [amount] at raised
          cases raised
      | ok total =>
          rw [amount] at raised
          obtain rfl := Except.ok.inj raised
          obtain ⟨asked, atLeast, atMost⟩ := (raiseAmount_eq_ok_iff _ _ _).mp amount
          exact .raise total isRaise asked mayRaise atLeast atMost
  · intro made
    cases made with
    | fold isFold => exact ⟨.inl isFold, by rw [applyAction, isFold]⟩
    | check isCheck nothing =>
        refine ⟨.inr (.inl ?_), by rw [applyAction, isCheck]⟩
        rw [if_pos nothing]
        exact isCheck
    | call isCall something =>
        refine ⟨.inr (.inl ?_), by rw [applyAction, isCall]⟩
        rw [if_neg (Nat.ne_of_gt something)]
        exact isCall
    | raise total isRaise asked mayRaise atLeast atMost =>
        refine ⟨.inr (.inr ⟨mayRaise, isRaise⟩), ?_⟩
        have amount := (raiseAmount_eq_ok_iff (legalFor hand action.seat) action.amount total).mpr
          ⟨asked, atLeast, atMost⟩
        rw [applyAction, isRaise]
        rcases hand.raiseName_eq with isBet | isRaise
        · rw [isBet, amount]
          rfl
        · rw [isRaise, amount]
          rfl

/-- An action is accepted exactly when it is the turn of its seat and it is open. -/
theorem act_eq_ok_iff
    (hand next : Hand)
    (action : Action) :
    act hand action = .ok next ↔
      hand.phase = .act ∧ hand.toAct = some action.seat ∧
        ∃ applied, Made hand action applied ∧
          next = (applied.markActed action.seat).advance := by
  constructor
  · intro accepted
    obtain ⟨phase, turn, allowed, applied, result, rfl⟩ := act_ok accepted
    exact ⟨phase, turn, applied, (applyAction_eq_ok_iff ..).mp ⟨allowed, result⟩, rfl⟩
  · rintro ⟨phase, turn, applied, made, rfl⟩
    obtain ⟨allowed, result⟩ := (applyAction_eq_ok_iff ..).mpr made
    have inPlay : hand.inPlay = true := by simp [Hand.inPlay, phase]
    have isLegal : legal hand = some (legalFor hand action.seat) := by
      rw [legal, inPlay, if_pos rfl, turn]
      rfl
    simp [act, inPlay, turn, isLegal, allowed, result, Except.map]

theorem Made.applied
    {hand applied : Hand}
    {action : Action}
    (made : Made hand action applied) :
    Applied hand action.seat applied := by
  obtain ⟨allowed, result⟩ := (applyAction_eq_ok_iff ..).mpr made
  exact applied_of_applyAction allowed result

namespace Hand

/-! ## Seat by seat -/

theorem seat_of_modify
    {hand next : Hand}
    {index : Nat}
    {change : Seat → Seat}
    (seats : next.seats = hand.seats.modify index change)
    {other : Nat}
    (bound : other < hand.seats.length) :
    next.seat other = if other = index then change (hand.seat other) else hand.seat other := by
  have nextBound : other < (hand.seats.modify index change).length := by
    rwa [List.length_modify]
  rw [next.seat_eq_getElem (seats ▸ nextBound), hand.seat_eq_getElem bound]
  simp only [seats, List.getElem_modify, eq_comm]

theorem seat_of_mapIdx
    {hand next : Hand}
    {change : Nat → Seat → Seat}
    (seats : next.seats = hand.seats.mapIdx change)
    {other : Nat}
    (bound : other < hand.seats.length) :
    next.seat other = change other (hand.seat other) := by
  have nextBound : other < (hand.seats.mapIdx change).length := by
    rwa [List.length_mapIdx]
  rw [next.seat_eq_getElem (seats ▸ nextBound), hand.seat_eq_getElem bound]
  simp only [seats, List.getElem_mapIdx]

/-- What a raise makes of the seats. -/
theorem seat_raiseTo
    (hand : Hand)
    (index total : Nat)
    {other : Nat}
    (bound : other < hand.seats.length) :
    (hand.raiseTo index total).seat other =
      if other = index then
        (hand.seat other).commit (total - (hand.seat index).streetCommit)
      else if hand.minRaiseSize ≤ total - hand.currentBet then
        { hand.seat other with canRaise := true, acted := false }
      else if (hand.seat other).acted then { hand.seat other with canRaise := false }
      else hand.seat other := by
  have seats : (hand.putIn index total).seats = hand.seats.modify index fun seat =>
      seat.commit (total - (hand.seat index).streetCommit) := rfl
  have putIn := seat_of_modify seats bound
  have raisedBound : other < (hand.putIn index total).seats.length := by
    change other < (hand.seats.modify index _).length
    rwa [List.length_modify]
  unfold raiseTo
  dsimp only
  by_cases full : hand.minRaiseSize ≤ total - hand.currentBet
  · rw [if_pos full, seat_of_mapIdx (reopen_seats ..) raisedBound, putIn, if_pos full]
    by_cases here : other = index <;> simp [here]
  · rw [if_neg full, seat_of_mapIdx (closeRaising_seats ..) raisedBound, putIn, if_neg full]
    by_cases here : other = index <;> simp [here]

theorem seat_foldSeat
    (hand : Hand)
    (index : Nat)
    {other : Nat}
    (bound : other < hand.seats.length) :
    (hand.foldSeat index).seat other =
      if other = index then { hand.seat other with folded := true } else hand.seat other := by
  have seats : (hand.foldSeat index).seats =
      hand.seats.modify index fun seat => { seat with folded := true } := rfl
  exact seat_of_modify seats bound

theorem seat_callSeat
    (hand : Hand)
    (index amount : Nat)
    {other : Nat}
    (bound : other < hand.seats.length) :
    (hand.callSeat index amount).seat other =
      if other = index then (hand.seat other).commit amount else hand.seat other := by
  have seats : (hand.callSeat index amount).seats =
      hand.seats.modify index fun seat => seat.commit amount := rfl
  exact seat_of_modify seats bound

theorem seat_markActed
    (hand : Hand)
    (index : Nat)
    {other : Nat}
    (bound : other < hand.seats.length) :
    (hand.markActed index).seat other =
      if other = index then { hand.seat other with acted := true } else hand.seat other := by
  have seats : (hand.markActed index).seats =
      hand.seats.modify index fun seat => { seat with acted := true } := rfl
  exact seat_of_modify seats bound

theorem canAct_of_commit
    {seat : Seat}
    {amount : Nat}
    (canAct : (seat.commit amount).canAct) :
    seat.canAct ∧ amount < seat.stack := by
  simp only [Seat.canAct, Seat.commit, Seat.inHand, Bool.and_eq_true, Bool.not_eq_true',
    Bool.or_eq_false_iff, decide_eq_false_iff_not] at canAct ⊢
  refine ⟨⟨canAct.1, canAct.2.1⟩, by omega⟩

end Hand

/-! ## After an action -/

namespace Made

variable {hand applied : Hand} {action : Action}

theorem length_seats
    (made : Made hand action applied) :
    (applied.markActed action.seat).seats.length = hand.seats.length :=
  (Hand.sameTable_markActed _ _).length_seats.trans (sameTable_applied made.applied).length_seats

/-- The seats that did not act keep all but the flags of the round. -/
theorem other_seat
    (made : Made hand action applied)
    {other : Nat}
    (bound : other < hand.seats.length)
    (isOther : other ≠ action.seat) :
    ∃ canRaise acted,
      (applied.markActed action.seat).seat other = { hand.seat other with canRaise, acted } := by
  have appliedBound : other < applied.seats.length := by
    rwa [(sameTable_applied made.applied).length_seats]
  rw [Hand.seat_markActed _ _ appliedBound, if_neg isOther]
  cases made with
  | fold _ =>
      rw [Hand.seat_foldSeat _ _ bound, if_neg isOther]
      exact ⟨_, _, rfl⟩
  | check _ _ => exact ⟨_, _, rfl⟩
  | call _ _ =>
      rw [Hand.seat_callSeat _ _ _ bound, if_neg isOther]
      exact ⟨_, _, rfl⟩
  | raise total _ _ _ _ _ =>
      rw [Hand.seat_raiseTo _ _ _ bound, if_neg isOther]
      split
      · exact ⟨_, _, rfl⟩
      · split
        · exact ⟨_, _, rfl⟩
        · exact ⟨_, _, rfl⟩

/-- The seat that acted has acted, folded or put in chips. -/
theorem own_seat
    (made : Made hand action applied)
    (bound : action.seat < hand.seats.length)
    (matched : (hand.seat action.seat).streetCommit ≤ hand.currentBet) :
    (applied.markActed action.seat).seat action.seat =
        { hand.seat action.seat with folded := true, acted := true } ∨
      (legalFor hand action.seat).callAmount = 0 ∧ applied.currentBet = hand.currentBet ∧
        (applied.markActed action.seat).seat action.seat =
          { hand.seat action.seat with acted := true } ∨
      ∃ amount, (applied.markActed action.seat).seat action.seat =
          { (hand.seat action.seat).commit amount with acted := true } ∧
        (amount ≤ (hand.seat action.seat).stack) ∧
        (amount < (hand.seat action.seat).stack →
          (hand.seat action.seat).streetCommit + amount = applied.currentBet) := by
  have appliedBound : action.seat < applied.seats.length := by
    rwa [(sameTable_applied made.applied).length_seats]
  rw [Hand.seat_markActed _ _ appliedBound, if_pos rfl]
  cases made with
  | fold _ =>
      rw [Hand.seat_foldSeat _ _ bound, if_pos rfl]
      exact .inl rfl
  | check _ nothing => exact .inr (.inl ⟨nothing, rfl, rfl⟩)
  | call _ _ =>
      rw [Hand.seat_callSeat _ _ _ bound, if_pos rfl]
      refine .inr (.inr ⟨_, rfl, Nat.min_le_right _ _, ?_⟩)
      intro covered
      change _ = hand.currentBet
      simp only [legalFor] at covered ⊢
      omega
  | raise total _ _ mayRaise atLeast atMost =>
      obtain ⟨higher, covers, _⟩ := raise_bounds mayRaise atLeast atMost
      have bet : (hand.raiseTo action.seat total).currentBet = total := by
        unfold Hand.raiseTo
        dsimp only
        split <;> rfl
      rw [Hand.seat_raiseTo _ _ _ bound, if_pos rfl, bet]
      unfold Seat.allChips at covers
      exact .inr (.inr ⟨_, rfl, by omega, fun _ => by omega⟩)

/-- An action takes no chips back. -/
theorem streetCommit_le
    (made : Made hand action applied)
    (betting : hand.Betting)
    {other : Nat}
    (bound : other < hand.seats.length) :
    (hand.seat other).streetCommit ≤
      ((applied.markActed action.seat).seat other).streetCommit := by
  by_cases own : other = action.seat
  · subst own
    have matched := (betting.sound _ (hand.seat_mem bound)).matched
    rcases made.own_seat bound matched with folded | ⟨_, _, checked⟩ | ⟨amount, put, _⟩
    · rw [folded]
    · rw [checked]
    · rw [put]
      exact Nat.le_add_right _ _
  · obtain ⟨canRaise, acted, same⟩ := made.other_seat bound own
    rw [same]

end Made

/-- A seat that raises is at the table. -/
theorem Hand.lt_of_mayRaise
    {hand : Hand}
    {index : Nat}
    (mayRaise : hand.mayRaise index) :
    index < hand.seats.length := by
  by_contra beyond
  have isAbsent : hand.seat index = Seat.absent := by
    simp [Hand.seat, Nat.le_of_not_lt beyond]
  simp [Hand.mayRaise, isAbsent, Seat.absent, Seat.allChips] at mayRaise

theorem Hand.raiseTo_currentBet
    (hand : Hand)
    (index total : Nat) :
    (hand.raiseTo index total).currentBet = total := by
  unfold Hand.raiseTo
  dsimp only
  split <;> rfl

/-- What an accepted action does to the bet and to the other seats. -/
inductive Wager (hand after : Hand) (action : Action) : Prop where
  | passive :
      action.action ≠ .bet → action.action ≠ .raise →
      after.currentBet = hand.currentBet →
      after.minRaiseSize = hand.minRaiseSize →
      (∀ other < hand.seats.length, other ≠ action.seat →
        after.seat other = hand.seat other) →
      Wager hand after action
  | full (total : Nat) :
      action.action = hand.raiseName → action.amount = some total →
      hand.mayRaise action.seat → hand.currentBet ≤ total →
      hand.minRaiseSize ≤ total - hand.currentBet →
      after.currentBet = total →
      after.minRaiseSize = total - hand.currentBet →
      (∀ other < hand.seats.length, other ≠ action.seat →
        after.seat other = { hand.seat other with canRaise := true, acted := false }) →
      Wager hand after action
  | short (total : Nat) :
      action.action = hand.raiseName → action.amount = some total →
      hand.mayRaise action.seat → hand.currentBet ≤ total →
      total - hand.currentBet < hand.minRaiseSize →
      after.currentBet = total →
      after.minRaiseSize = hand.minRaiseSize →
      (∀ other < hand.seats.length, other ≠ action.seat →
        after.seat other =
          if (hand.seat other).acted then { hand.seat other with canRaise := false }
          else hand.seat other) →
      Wager hand after action

theorem Hand.raiseTo_minRaiseSize
    (hand : Hand)
    (index total : Nat) :
    (hand.raiseTo index total).minRaiseSize =
      if hand.minRaiseSize ≤ total - hand.currentBet then total - hand.currentBet
      else hand.minRaiseSize := by
  unfold Hand.raiseTo
  dsimp only
  split <;> rfl

theorem Made.wager
    {hand applied : Hand}
    {action : Action}
    (made : Made hand action applied) :
    Wager hand (applied.markActed action.seat) action := by
  have sameLength := (sameTable_applied made.applied).length_seats
  have unmarked : ∀ other < hand.seats.length, other ≠ action.seat →
      (applied.markActed action.seat).seat other = applied.seat other := by
    intro other bound isOther
    rw [Hand.seat_markActed _ _ (sameLength ▸ bound), if_neg isOther]
  cases made with
  | fold isFold =>
      refine .passive (by simp [isFold]) (by simp [isFold]) rfl rfl ?_
      intro other bound isOther
      rw [unmarked other bound isOther, Hand.seat_foldSeat _ _ bound, if_neg isOther]
  | check isCheck _ =>
      refine .passive (by simp [isCheck]) (by simp [isCheck]) rfl rfl ?_
      intro other bound isOther
      rw [unmarked other bound isOther]
      rfl
  | call isCall _ =>
      refine .passive (by simp [isCall]) (by simp [isCall]) rfl rfl ?_
      intro other bound isOther
      rw [unmarked other bound isOther, Hand.seat_callSeat _ _ _ bound, if_neg isOther]
  | raise total isRaise asked mayRaise atLeast atMost =>
      have bet : ((hand.raiseTo action.seat total).markActed action.seat).currentBet = total :=
        hand.raiseTo_currentBet action.seat total
      have size := hand.raiseTo_minRaiseSize action.seat total
      have higher := (raise_bounds mayRaise atLeast atMost).1
      by_cases isFull : hand.minRaiseSize ≤ total - hand.currentBet
      · rw [if_pos isFull] at size
        refine .full total isRaise asked mayRaise higher isFull bet size ?_
        intro other bound isOther
        rw [unmarked other bound isOther, Hand.seat_raiseTo _ _ _ bound, if_neg isOther,
          if_pos isFull]
      · rw [if_neg isFull] at size
        refine .short total isRaise asked mayRaise higher (by omega) bet size ?_
        intro other bound isOther
        rw [unmarked other bound isOther, Hand.seat_raiseTo _ _ _ bound, if_neg isOther,
          if_neg isFull]

/-! ## The stakes -/

/-- The betting invariant, with chips behind every seat that can act and a seat that
the bet to match is the commitment of. -/
structure Hand.Staked (hand : Hand) : Prop where
  betting : hand.Betting
  able : ∀ index, hand.canAct index → 0 < (hand.seat index).stack
  within : ∀ index < hand.seats.length,
    (hand.seat index).streetCommit ≤ (hand.seat index).handCommit
  attained : hand.currentBet = 0 ∨
    ∃ index < hand.seats.length, (hand.seat index).streetCommit = hand.currentBet

namespace Hand

/-- The highest commitment of the street. -/
def highestCommit (hand : Hand) : Nat :=
  (hand.seats.map Seat.streetCommit).foldl max 0

theorem Staked.matched
    {hand : Hand}
    (staked : hand.Staked)
    {index : Nat}
    (bound : index < hand.seats.length) :
    (hand.seat index).streetCommit ≤ hand.currentBet :=
  (staked.betting.sound _ (hand.seat_mem bound)).matched

/-- The bet to match is the highest commitment. -/
theorem Staked.highest
    {hand : Hand}
    (staked : hand.Staked) :
    hand.highestCommit = hand.currentBet := by
  apply Nat.le_antisymm
  · refine (Lib.foldl_max_le_iff _ _ _).mpr ⟨Nat.zero_le _, ?_⟩
    rw [List.forall_mem_map]
    exact fun seat member => (staked.betting.sound seat member).matched
  · rcases staked.attained with noBet | ⟨index, bound, attains⟩
    · rw [noBet]
      exact Nat.zero_le _
    · rw [← attains]
      exact Lib.le_foldl_max (List.mem_map_of_mem (hand.seat_mem bound))

/-- No commitment of a seat is more than it started with. -/
theorem Staked.currentBet_le
    {hand : Hand}
    (staked : hand.Staked) :
    hand.currentBet ≤ hand.startStacks := by
  rcases staked.attained with noBet | ⟨index, bound, attains⟩
  · rw [noBet]
    exact Nat.zero_le _
  · have within := staked.within index bound
    have balanced := (staked.betting.sound _ (hand.seat_mem bound)).balanced
    have counted : (hand.seat index).startStack ≤ hand.startStacks :=
      List.le_sum_of_mem (List.mem_map_of_mem (hand.seat_mem bound))
    omega

/-- An accepted action keeps the stakes. -/
theorem Staked.made
    {hand applied : Hand}
    {action : Action}
    (staked : hand.Staked)
    (made : Made hand action applied) :
    (applied.markActed action.seat).Staked where
  betting := (staked.betting.applied made.applied).markActed action.seat
  able := by
    intro index canAct
    have bound : index < hand.seats.length := by
      rw [← made.length_seats]
      exact lt_of_inHand (inHand_of_canAct canAct)
    rw [Hand.canAct] at canAct
    by_cases own : index = action.seat
    · subst own
      rcases made.own_seat bound (staked.matched bound) with
        folded | ⟨_, _, checked⟩ | ⟨amount, put, _⟩
      · rw [folded] at canAct
        simp [Seat.canAct, Seat.inHand] at canAct
      · rw [checked] at canAct ⊢
        exact staked.able _ canAct
      · rw [put] at canAct ⊢
        have committed : ((hand.seat action.seat).commit amount).canAct := canAct
        have covered := (canAct_of_commit committed).2
        simp only [Seat.commit]
        omega
    · obtain ⟨canRaise, acted, same⟩ := made.other_seat bound own
      rw [same] at canAct ⊢
      exact staked.able index canAct
  within := by
    intro index bound
    rw [made.length_seats] at bound
    have within := staked.within index bound
    by_cases own : index = action.seat
    · subst own
      rcases made.own_seat bound (staked.matched bound) with
        folded | ⟨_, _, checked⟩ | ⟨amount, put, _⟩
      · rw [folded]
        exact within
      · rw [checked]
        exact within
      · rw [put]
        exact Nat.add_le_add_right within _
    · obtain ⟨canRaise, acted, same⟩ := made.other_seat bound own
      rw [same]
      exact within
  attained := by
    have betting := (staked.betting.applied made.applied).markActed action.seat
    have kept : (applied.markActed action.seat).currentBet = hand.currentBet →
        (applied.markActed action.seat).currentBet = 0 ∨
          ∃ index < (applied.markActed action.seat).seats.length,
            ((applied.markActed action.seat).seat index).streetCommit =
              (applied.markActed action.seat).currentBet := by
      intro sameBet
      refine staked.attained.imp (fun noBet => sameBet.trans noBet) ?_
      rintro ⟨index, bound, attains⟩
      have stillBound := made.length_seats ▸ bound
      have atMost := (betting.sound _ (seat_mem _ stillBound)).matched
      have atLeast := made.streetCommit_le staked.betting bound
      exact ⟨index, stillBound, by omega⟩
    cases made with
    | fold _ => exact kept rfl
    | check _ _ => exact kept rfl
    | call _ _ => exact kept rfl
    | raise total isRaise asked mayRaise atLeast atMost =>
        have bound := lt_of_mayRaise mayRaise
        obtain ⟨higher, covers, _⟩ := raise_bounds mayRaise atLeast atMost
        have matched := staked.matched bound
        have sameLength := (hand.sameTable_raiseTo action.seat total).length_seats
        refine .inr ⟨action.seat, ?_, ?_⟩
        · rw [(sameTable_markActed _ _).length_seats, sameLength]
          exact bound
        · rw [seat_markActed _ _ (sameLength ▸ bound), if_pos rfl, seat_raiseTo _ _ _ bound,
            if_pos rfl]
          change (hand.seat action.seat).streetCommit +
            min (total - (hand.seat action.seat).streetCommit) (hand.seat action.seat).stack =
              (hand.raiseTo action.seat total).currentBet
          rw [raiseTo_currentBet]
          unfold Seat.allChips at covers
          omega

theorem seat_enterStreet
    (hand : Hand)
    {index : Nat}
    (bound : index < hand.seats.length) :
    hand.enterStreet.seat index = (hand.seat index).resetStreet := by
  have nextBound : index < (hand.seats.map Seat.resetStreet).length := by
    rwa [List.length_map]
  rw [seat_eq_getElem _ (hand.enterStreet_seats ▸ nextBound), hand.seat_eq_getElem bound]
  simp only [enterStreet_seats, List.getElem_map]

/-- A new street keeps the stakes. -/
theorem Staked.enterStreet
    {hand : Hand}
    (staked : hand.Staked)
    (settled : hand.settled) :
    hand.enterStreet.Staked where
  betting := staked.betting.enterStreet settled
  able := by
    intro index canAct
    have bound : index < hand.seats.length := by
      rw [← hand.sameTable_enterStreet.length_seats]
      exact lt_of_inHand (inHand_of_canAct canAct)
    rw [Hand.canAct, seat_enterStreet hand bound] at canAct
    rw [seat_enterStreet hand bound]
    exact staked.able index canAct
  within := by
    intro index bound
    rw [hand.sameTable_enterStreet.length_seats] at bound
    rw [seat_enterStreet hand bound]
    exact Nat.zero_le _
  attained := .inl hand.enterStreet_currentBet

/-- The turn passes without moving chips. -/
theorem Staked.turnTo
    {hand : Hand}
    (staked : hand.Staked)
    (index : Nat) :
    (hand.turnTo index).Staked where
  betting := ⟨staked.betting.seated, staked.betting.sound, staked.betting.paidIn⟩
  able := staked.able
  within := staked.within
  attained := staked.attained

/-! ## The deal -/

/-- What holds of every seat of the table, and that chips and cards keep, holds of
every seat dealt in. -/
theorem forall_dealt
    {holds : Seat → Prop}
    (config : HandConfig)
    (deck : Deck)
    (atTable : ∀ seat ∈ config.seats, holds seat.seat)
    (commit : ∀ seat amount, holds seat → holds (seat.commit amount))
    (receive : ∀ seat card, holds seat → holds (seat.receive card)) :
    ∀ seat ∈ (config.dealt deck).seats, holds seat := by
  have committed : ∀ (hand : Hand) index amount why, (∀ seat ∈ hand.seats, holds seat) →
      ∀ seat ∈ (hand.commit index amount why).seats, holds seat := by
    intro hand index amount why all
    rw [commit_seats]
    exact Lib.forall_modify all (fun seat _ => commit seat amount) fun _ kept => kept
  have round : ∀ hand : Hand, (∀ seat ∈ hand.seats, holds seat) →
      ∀ seat ∈ hand.dealRound.seats, holds seat := by
    intro hand
    unfold dealRound
    generalize hand.order (hand.button + 1) = indices
    induction indices generalizing hand with
    | nil => exact id
    | cons index indices inductionHypothesis =>
        intro all
        rw [List.foldl_cons]
        split
        · exact inductionHypothesis hand all
        · exact inductionHypothesis _
            (Lib.forall_modify all (fun seat _ => receive seat _) fun _ kept => kept)
  have table : ∀ seat ∈ (config.table deck).seats, holds seat :=
    List.forall_mem_map.mpr atTable
  have antes : ∀ seat ∈ ((config.table deck).postAntes (config.table deck).dealtIn).seats,
      holds seat := by
    generalize config.table deck = hand at table
    generalize hand.dealtIn = live
    unfold postAntes
    split
    · rename_i positive
      clear positive
      induction live generalizing hand with
      | nil => exact table
      | cons index live inductionHypothesis =>
          exact inductionHypothesis _ (committed hand index _ _ table)
    · exact table
  exact round _ (round _ (committed _ _ _ _ (committed _ _ _ _ antes)))

theorem dealt_streetCommits
    (config : HandConfig)
    (deck : Deck) :
    (config.dealt deck).currentBet = (config.dealt deck).highestCommit := by
  obtain ⟨firstCommits, firstBet⟩ := (config.posted deck).dealRound_bets
  obtain ⟨secondCommits, secondBet⟩ := (config.posted deck).dealRound.dealRound_bets
  rw [highestCommit, HandConfig.dealt, openHand_seats, openHand_currentBet, secondCommits,
    firstCommits, secondBet, firstBet]
  rfl

/-- A dealt hand has its stakes in order. -/
theorem staked_dealt
    (config : HandConfig)
    (deck : Deck) :
    (config.dealt deck).Staked where
  betting := betting_dealt config deck
  able := by
    intro index canAct
    have bound := lt_of_inHand (inHand_of_canAct canAct)
    have funded : ∀ seat ∈ (config.dealt deck).seats, seat.canAct → 0 < seat.stack := by
      refine forall_dealt config deck ?_ ?_ fun seat card kept => kept
      · intro seat _ canAct
        simp only [SeatConfig.seat, Seat.canAct, Seat.inHand, Bool.not_false, Bool.and_true,
          Bool.not_eq_true', beq_eq_false_iff_ne] at canAct ⊢
        omega
      · intro seat amount _ canAct
        have covered := (canAct_of_commit canAct).2
        simp only [Seat.commit]
        omega
    exact funded _ (seat_mem _ bound) canAct
  within := by
    intro index bound
    have firstStreet := (posted_dealt config deck).firstStreet _ (seat_mem _ bound)
    rw [Seat.FirstStreet] at firstStreet
    omega
  attained := by
    rw [dealt_streetCommits, highestCommit]
    rcases List.eq_nil_or_concat (config.dealt deck).seats with none | ⟨rest, last, some⟩
    · left
      rw [none]
      rfl
    · right
      have nonempty : (config.dealt deck).seats.map Seat.streetCommit ≠ [] := by simp [some]
      obtain ⟨seat, member, attains⟩ := List.mem_map.mp (Lib.foldl_max_mem nonempty)
      obtain ⟨index, bound, rfl⟩ := List.getElem_of_mem member
      refine ⟨index, bound, ?_⟩
      rw [seat_eq_getElem _ bound]
      exact attains

end Hand

end Poker
end NostrBbs
