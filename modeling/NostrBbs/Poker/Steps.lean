import NostrBbs.Lib.Turns
import NostrBbs.Poker.Frames

/-!
# What one action can do

The seats going round the table and the inversion lemmas of the engine: an
accepted action is an open one by the seat to act, and a hand advances in one of
five ways.  Every invariant of the engine is derived from these.
-/

namespace NostrBbs
namespace Poker

namespace Hand

/-- Setup and table size agree. -/
def Seated (hand : Hand) : Prop :=
  hand.n = hand.seats.length

/-! ## Going round the table -/

/-- Going round the table meets every seat once. -/
theorem order_perm
    (hand : Hand)
    (start : Nat) :
    (hand.order start).Perm (List.range hand.n) :=
  Lib.around_perm hand.n start

theorem mem_order
    (hand : Hand)
    (start index : Nat) :
    index ∈ hand.order start ↔ index < hand.n := by
  rw [(hand.order_perm start).mem_iff, List.mem_range]

/-- A seat of the hand is one of its seats. -/
theorem seat_eq_getElem
    (hand : Hand)
    {index : Nat}
    (bound : index < hand.seats.length) :
    hand.seat index = hand.seats[index] := by
  simp [seat, bound]

theorem seat_mem
    (hand : Hand)
    {index : Nat}
    (bound : index < hand.seats.length) :
    hand.seat index ∈ hand.seats := by
  rw [hand.seat_eq_getElem bound]
  exact List.getElem_mem bound

/-- A seat in the hand is at the table. -/
theorem lt_of_inHand
    {hand : Hand}
    {index : Nat}
    (inHand : hand.inHand index) :
    index < hand.seats.length := by
  by_contra beyond
  have isAbsent : hand.seat index = Seat.absent := by
    simp [seat, Nat.le_of_not_lt beyond]
  simp [Hand.inHand, isAbsent, Seat.inHand, Seat.absent] at inHand

theorem mem_liveSeats
    (hand : Hand)
    (index : Nat) :
    index ∈ hand.liveSeats ↔ hand.inHand index := by
  rw [liveSeats, List.mem_filter, List.mem_range]
  exact ⟨fun member => member.2, fun inHand => ⟨lt_of_inHand inHand, inHand⟩⟩

theorem nodup_liveSeats (hand : Hand) : hand.liveSeats.Nodup :=
  List.nodup_range.filter _

theorem mem_actors
    (hand : Hand)
    (index : Nat) :
    index ∈ hand.actors ↔ hand.canAct index := by
  rw [actors, List.mem_filter, mem_liveSeats]
  refine ⟨fun member => member.2, fun canAct => ⟨?_, canAct⟩⟩
  simp only [Hand.canAct, Seat.canAct, Bool.and_eq_true] at canAct
  exact canAct.1

/-- The seats are read off in order. -/
theorem map_seat_range
    (hand : Hand) :
    (List.range hand.seats.length).map hand.seat = hand.seats := by
  apply List.ext_getElem
  · simp
  · intro index _ bound
    simp [hand.seat_eq_getElem bound]

/-- The live seats are counted seat by seat. -/
theorem length_liveSeats
    (hand : Hand) :
    hand.liveSeats.length = hand.seats.countP Seat.inHand := by
  conv_rhs => rw [← hand.map_seat_range, List.countP_map]
  rw [liveSeats, ← List.countP_eq_length_filter]
  rfl

theorem length_actors
    (hand : Hand) :
    hand.actors.length = hand.seats.countP Seat.canAct := by
  conv_rhs => rw [← hand.map_seat_range, List.countP_map]
  rw [actors, liveSeats, List.filter_filter, ← List.countP_eq_length_filter]
  congr 1
  funext index
  simp only [Hand.canAct, Hand.inHand, Seat.canAct, Function.comp]
  cases (hand.seat index).inHand <;> simp

/-- No seat can act exactly when there is no next actor. -/
theorem nextActor_eq_none_iff
    {hand : Hand}
    (seated : hand.Seated)
    (start : Nat) :
    hand.nextActor start = none ↔ hand.actors = [] := by
  rw [nextActor, List.find?_eq_none, List.eq_nil_iff_forall_not_mem]
  constructor
  · intro nobody index member
    have canAct := (hand.mem_actors index).mp member
    refine nobody index ((hand.mem_order start index).mpr ?_) canAct
    have inHand : hand.inHand index := by
      simp only [Hand.canAct, Seat.canAct, Bool.and_eq_true] at canAct
      exact canAct.1
    rw [seated]
    exact lt_of_inHand inHand
  · intro noActors index _ canAct
    exact noActors index ((hand.mem_actors index).mpr canAct)

/-- The next actor can act. -/
theorem canAct_of_nextActor
    {hand : Hand}
    {start next : Nat}
    (found : hand.nextActor start = some next) :
    hand.canAct next :=
  List.find?_some found

theorem inHand_of_canAct
    {hand : Hand}
    {index : Nat}
    (canAct : hand.canAct index) :
    hand.inHand index := by
  simp only [Hand.canAct, Seat.canAct, Bool.and_eq_true] at canAct
  exact canAct.1

/-! ## Advancing -/

theorem actors_enterStreet
    (hand : Hand) :
    hand.enterStreet.actors.length = hand.actors.length := by
  rw [length_actors, length_actors, enterStreet_seats, List.countP_map]
  rfl

/-- A street opens with a seat that can act. -/
theorem canAct_of_openStreet
    {hand : Hand}
    {first : Nat}
    (opened : hand.openStreet = some first) :
    hand.canAct first := by
  unfold openStreet at opened
  split at opened
  · cases opened
  · rename_i next found
    have nextCanAct := canAct_of_nextActor found
    split at opened
    · split at opened
      · split at opened
        · obtain rfl := Option.some.inj opened
          assumption
        · obtain rfl := Option.some.inj opened
          exact nextCanAct
      · obtain rfl := Option.some.inj opened
        exact nextCanAct
    · obtain rfl := Option.some.inj opened
      exact nextCanAct

theorem openStreet_ne_none
    {hand : Hand}
    (seated : hand.Seated)
    (hasActors : hand.actors ≠ []) :
    hand.openStreet ≠ none := by
  unfold openStreet
  cases found : hand.nextActor (hand.button + 1) with
  | none => exact absurd ((nextActor_eq_none_iff seated _).mp found) hasActors
  | some next =>
      dsimp only
      split
      · split
        · split <;> simp
        · simp
      · simp

/-- The ways in which a hand advances after an action. -/
inductive Advanced (hand : Hand) : Hand → Prop where
  | foldOut :
      hand.liveSeats.length = 1 →
      Advanced hand hand.finish
  | next (index : Nat) :
      hand.liveSeats.length ≠ 1 → hand.canAct index →
      Advanced hand (hand.turnTo index)
  | runOut :
      hand.liveSeats.length ≠ 1 → hand.settled → hand.actors.length ≤ 1 →
      Advanced hand hand.runOut
  | showdown :
      hand.liveSeats.length ≠ 1 → hand.settled → 2 ≤ hand.actors.length →
      hand.street = 3 → Advanced hand hand.finish
  | street (first : Nat) :
      hand.liveSeats.length ≠ 1 → hand.settled → 2 ≤ hand.actors.length →
      hand.street ≠ 3 → hand.enterStreet.canAct first →
      Advanced hand (hand.enterStreet.turnTo first)

theorem settled_of_no_actors
    {hand : Hand}
    (noActors : hand.actors = []) :
    hand.settled := by
  simp [settled, noActors]

theorem advance_of_alone
    {hand : Hand}
    (alone : hand.liveSeats.length = 1) :
    hand.advance = hand.finish := by
  rw [advance, if_pos alone]

/-- While a seat has something to answer, the turn passes to the next that can act. -/
theorem advance_of_unsettled
    {hand : Hand}
    (seated : hand.Seated)
    (several : hand.liveSeats.length ≠ 1)
    (unsettled : ¬hand.settled) :
    ∃ next, hand.nextActor (hand.toAct.elim 0 (· + 1)) = some next ∧
      hand.advance = hand.turnTo next := by
  cases found : hand.nextActor (hand.toAct.elim 0 (· + 1)) with
  | none =>
      exact absurd (settled_of_no_actors ((nextActor_eq_none_iff seated _).mp found)) unsettled
  | some next =>
      refine ⟨next, rfl, ?_⟩
      rw [advance, if_neg several, if_pos (by simpa using unsettled)]
      simp only [found]

/-- The ways in which a settled street closes. -/
inductive Closes (hand : Hand) : Hand → Prop where
  | runOut :
      hand.actors.length ≤ 1 → Closes hand hand.runOut
  | showdown :
      2 ≤ hand.actors.length → hand.street = 3 → Closes hand hand.finish
  | street (first : Nat) :
      2 ≤ hand.actors.length → hand.street ≠ 3 → hand.enterStreet.canAct first →
      Closes hand (hand.enterStreet.turnTo first)

theorem closes_of_settled
    {hand : Hand}
    (seated : hand.Seated)
    (several : hand.liveSeats.length ≠ 1)
    (settled : hand.settled) :
    Closes hand hand.advance := by
  rw [advance, if_neg several, if_neg (by simp [settled])]
  split
  · exact .runOut ‹_›
  · rename_i notFew
    have two : 2 ≤ hand.actors.length := by omega
    split
    · exact .showdown two ‹_›
    · rename_i notRiver
      have reseated : hand.enterStreet.Seated := by
        rw [Seated, enterStreet_seats, List.length_map]
        exact (congrArg Setup.n hand.enterStreet_setup).trans seated
      have stillActors : hand.enterStreet.actors ≠ [] := by
        intro noActors
        have counted := hand.actors_enterStreet
        rw [noActors, List.length_nil] at counted
        omega
      cases opened : hand.enterStreet.openStreet with
      | none => exact absurd opened (openStreet_ne_none reseated stillActors)
      | some first =>
          simp only [nextStreet, opened]
          exact .street first two notRiver (canAct_of_openStreet opened)

theorem advanced
    {hand : Hand}
    (seated : hand.Seated) :
    Advanced hand hand.advance := by
  by_cases alone : hand.liveSeats.length = 1
  · rw [advance_of_alone alone]
    exact .foldOut alone
  · by_cases settled : hand.settled
    · have closes := closes_of_settled seated alone settled
      generalize hand.advance = next at closes
      cases closes with
      | runOut few => exact .runOut alone settled few
      | showdown two river => exact .showdown alone settled two river
      | street first two notRiver canAct => exact .street first alone settled two notRiver canAct
    · obtain ⟨next, found, passed⟩ := advance_of_unsettled seated alone settled
      rw [passed]
      exact .next next alone (canAct_of_nextActor found)

end Hand

/-- A dealt hand is in play, or run out when the blinds left nobody to act. -/
theorem newHand_ok
    {config : HandConfig}
    {hand : Hand}
    (accepted : newHand config = .ok hand) :
    ∃ deck, shuffledDeck config.seedHex = .ok deck ∧
      2 ≤ (config.table deck).dealtIn.length ∧
      ((config.dealt deck).actors = [] ∧ hand = (config.dealt deck).runOut ∨
        (config.dealt deck).actors ≠ [] ∧ hand = config.dealt deck) := by
  unfold newHand at accepted
  split at accepted
  · cases accepted
  · rename_i deck shuffled
    split at accepted
    · cases accepted
    · rename_i enough
      refine ⟨deck, shuffled, by omega, ?_⟩
      dsimp only at accepted
      split at accepted
      · rename_i noActors
        exact .inl ⟨List.length_eq_zero_iff.mp noActors, (Except.ok.inj accepted).symm⟩
      · rename_i someActors
        exact .inr ⟨fun noActors => someActors (by simp [noActors]),
          (Except.ok.inj accepted).symm⟩

/-! ## Acting -/

/-- What the open actions of a seat make of a hand before it advances. -/
inductive Applied (hand : Hand) (index : Nat) : Hand → Prop where
  | fold : Applied hand index (hand.foldSeat index)
  | check :
      (legalFor hand index).callAmount = 0 →
      Applied hand index (hand.checkSeat index)
  | call : Applied hand index (hand.callSeat index (legalFor hand index).callAmount)
  | raise (amount : Nat) :
      hand.currentBet ≤ amount →
      amount ≤ (hand.seat index).allChips →
      hand.currentBet < (hand.seat index).allChips →
      Applied hand index (hand.raiseTo index amount)

theorem mayRaise_of_allows
    {hand : Hand}
    {index : Nat}
    (isOpen : (legalFor hand index).allows .bet ∨ (legalFor hand index).allows .raise) :
    hand.mayRaise index := by
  by_contra closed
  have noRaise : (legalFor hand index).actions =
      [.fold, if (legalFor hand index).callAmount = 0 then .check else .call] := by
    simp [legalFor, closed]
  simp only [Legal.allows, noRaise] at isOpen
  split at isOpen <;> simp at isOpen

theorem check_of_allows
    {hand : Hand}
    {index : Nat}
    (isOpen : (legalFor hand index).allows .check) :
    (legalFor hand index).callAmount = 0 := by
  by_contra toCall
  simp only [Legal.allows, List.contains_iff_mem, legalFor] at isOpen toCall
  rw [if_neg toCall] at isOpen
  split at isOpen
  · split at isOpen <;> simp at isOpen
  · simp at isOpen

/-- A total within an open raising envelope is no less than the bet and no more
than all the chips of the seat. -/
theorem raise_bounds
    {hand : Hand}
    {index amount : Nat}
    (mayRaise : hand.mayRaise index)
    (atLeast : (legalFor hand index).minRaiseTo ≤ amount)
    (atMost : amount ≤ (legalFor hand index).maxRaiseTo) :
    hand.currentBet ≤ amount ∧
      amount ≤ (hand.seat index).allChips ∧
      hand.currentBet < (hand.seat index).allChips := by
  have covers : hand.currentBet < (hand.seat index).allChips := by
    simp only [Hand.mayRaise, Bool.and_eq_true, decide_eq_true_eq] at mayRaise
    exact mayRaise.1.1
  simp only [legalFor, mayRaise, Bool.and_true, Bool.true_and, decide_eq_true_eq]
    at atLeast atMost
  cases limit : hand.limit with
  | true =>
      simp only [limit, if_true] at atLeast atMost
      generalize (if hand.street ≤ 1 then hand.bb else hand.bb * 2) = betSize at *
      split at atLeast <;> omega
  | false =>
      simp only [limit, Bool.false_eq_true, if_false] at atLeast atMost
      split at atLeast <;> omega

theorem applied_of_applyAction
    {hand applied : Hand}
    {action : Action}
    (allowed : (legalFor hand action.seat).allows action.action)
    (accepted : applyAction hand (legalFor hand action.seat) action = .ok applied) :
    Applied hand action.seat applied := by
  have raising : ∀ (isOpen : hand.mayRaise action.seat),
      (raiseAmount (legalFor hand action.seat) action.amount).map
        (hand.raiseTo action.seat) = .ok applied →
      Applied hand action.seat applied := by
    intro isOpen raised
    unfold raiseAmount at raised
    split at raised
    · split at raised
      · rename_i total isTotal within
        obtain ⟨atLeast, atMost, covers⟩ := raise_bounds isOpen within.1 within.2
        obtain rfl := Except.ok.inj raised
        exact .raise total atLeast atMost covers
      · cases raised
    · cases raised
  unfold applyAction at accepted
  split at accepted
  · obtain rfl := Except.ok.inj accepted
    exact .fold
  · rename_i isCheck
    obtain rfl := Except.ok.inj accepted
    exact .check (check_of_allows (isCheck ▸ allowed))
  · obtain rfl := Except.ok.inj accepted
    exact .call
  · rename_i notFold notCheck notCall
    refine raising (mayRaise_of_allows ?_) accepted
    cases named : action.action with
    | fold => exact absurd named notFold
    | check => exact absurd named notCheck
    | call => exact absurd named notCall
    | bet => exact .inl (named ▸ allowed)
    | raise => exact .inr (named ▸ allowed)
    | other text unknown =>
        rw [named] at allowed
        simp only [Legal.allows, List.contains_iff_mem, legalFor] at allowed
        split at allowed <;> split at allowed <;> (try split at allowed) <;> simp at allowed

/-- An accepted action is an open one by the seat to act. -/
theorem act_ok
    {hand next : Hand}
    {action : Action}
    (accepted : act hand action = .ok next) :
    hand.phase = .act ∧ hand.toAct = some action.seat ∧
      (legalFor hand action.seat).allows action.action ∧
      ∃ applied, applyAction hand (legalFor hand action.seat) action = .ok applied ∧
        next = (applied.markActed action.seat).advance := by
  unfold act at accepted
  split at accepted
  · cases accepted
  · rename_i playing
    split at accepted
    · cases accepted
    · rename_i turn
      rw [not_not] at turn
      have inPlay : hand.inPlay = true := by simpa using playing
      rw [legal, inPlay, if_pos rfl, turn] at accepted
      simp only [Option.map_some] at accepted
      split at accepted
      · cases accepted
      · rename_i allowed
        cases result : applyAction hand (legalFor hand action.seat) action with
        | error refusal =>
            rw [result] at accepted
            cases accepted
        | ok applied =>
            rw [result] at accepted
            refine ⟨by simpa [Hand.inPlay] using inPlay, turn, by simpa using allowed,
              applied, rfl, ?_⟩
            exact (Except.ok.inj accepted).symm

end Poker
end NostrBbs
