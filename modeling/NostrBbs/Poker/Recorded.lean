import NostrBbs.Poker.Showdown
import NostrBbs.Poker.Unnamed

/-!
# What a log leaves in a record

A record keeps the actions of a hand and the streets that were dealt between
them.  An action adds one entry, with a marker when it opens a street; dealing
and finishing add none.
-/

namespace NostrBbs
namespace Poker

/-! ## Actions -/

/-- An action as a record keeps it: only a bet or a raise has its amount. -/
def Action.recorded (action : Action) : Action :=
  { action with
    amount := if action.action = .bet ∨ action.action = .raise then action.amount else none }

/-- An open action has one of the five names. -/
theorem named_of_allows
    {hand : Hand}
    {index : Nat}
    {name : ActionName}
    (allowed : (legalFor hand index).allows name) :
    ∃ act : Act, name = act.name := by
  cases name with
  | fold => exact ⟨.fold, rfl⟩
  | check => exact ⟨.check, rfl⟩
  | call => exact ⟨.call, rfl⟩
  | bet => exact ⟨.bet, rfl⟩
  | raise => exact ⟨.raise, rfl⟩
  | other text unknown =>
      simp only [Legal.allows, List.contains_iff_mem, legalFor] at allowed
      split at allowed <;> split at allowed <;> (try split at allowed) <;> simp at allowed

/-- The engine reads the amounts of bets and raises only. -/
theorem applyAction_recorded
    (hand : Hand)
    {index : Nat}
    {action : Action}
    (allowed : (legalFor hand index).allows action.action) :
    applyAction hand (legalFor hand index) action.recorded =
      applyAction hand (legalFor hand index) action := by
  obtain ⟨act, named⟩ := named_of_allows allowed
  unfold applyAction Action.recorded
  dsimp only
  rw [named]
  cases act <;> rfl

/-- An accepted action is accepted as a record keeps it. -/
theorem act_recorded
    {hand next : Hand}
    {action : Action}
    (accepted : act hand action = .ok next) :
    act hand action.recorded = .ok next := by
  obtain ⟨phase, turn, allowed, applied, result, rfl⟩ := act_ok accepted
  have inPlay : hand.inPlay = true := by simp [Hand.inPlay, phase]
  have isLegal : legal hand = some (legalFor hand action.seat) := by
    rw [legal, if_pos inPlay, turn]
    rfl
  have recordedResult := (applyAction_recorded hand allowed).trans result
  have seat : action.recorded.seat = action.seat := rfl
  have name : action.recorded.action = action.action := rfl
  unfold act
  rw [inPlay, isLegal, seat, name, turn]
  simp [allowed, recordedResult, Except.map]

/-! ## Entries -/

namespace Hand

/-- The entries that a record keeps of a hand's log. -/
def marks (hand : Hand) : List HandAction :=
  hand.log.filterMap LogEntry.handAction

variable (hand : Hand)

theorem record_marks
    (entry : LogEntry) :
    (hand.record entry).marks = hand.marks ++ entry.handAction.toList := by
  unfold marks record
  rw [List.filterMap_append]
  cases kept : entry.handAction <;> simp [kept]

/-- A hand with the same log has the same entries. -/
theorem marks_congr
    {first second : Hand}
    (sameLog : first.log = second.log) :
    first.marks = second.marks := by
  unfold marks
  rw [sameLog]

/-- A commitment is only logged as an ante or a blind, which no record keeps. -/
theorem commit_marks
    (index amount : Nat)
    {why : Option Ev}
    (forced : ∀ ev ∈ why, ev = .ante ∨ ev = .sb ∨ ev = .bb) :
    (hand.commit index amount why).marks = hand.marks := by
  cases why with
  | none => rfl
  | some ev =>
      unfold commit
      dsimp only
      rw [record_marks]
      rcases forced ev rfl with rfl | rfl | rfl <;> exact List.append_nil _

theorem refundUncalled_marks : hand.refundUncalled.marks = hand.marks := by
  unfold refundUncalled
  split
  · rw [record_marks]
    exact List.append_nil _
  · rfl

theorem payAll_log
    (payments : List Winner) :
    (hand.payAll payments).log = hand.log := by
  unfold payAll
  induction payments generalizing hand with
  | nil => rfl
  | cons payment payments inductionHypothesis => exact inductionHypothesis (hand.pay payment)

theorem foldOut_marks
    (winner : Nat) :
    (hand.foldOut winner).marks = hand.marks := by
  have recorded := (hand.pay ⟨winner, hand.committed⟩).record_marks
    { ev := .win, seat := some winner, amount := some hand.committed, showdown := some false }
  exact recorded.trans (List.append_nil _)

theorem showdown_marks
    (live : List Nat) :
    (hand.showdown live).marks = hand.marks := by
  have log : (hand.showdown live).log = hand.log ++
      [{ ev := .showdown, winners := some (hand.showdownResult live).winners }] := by
    simp only [showdown, record, payAll_log]
  unfold marks
  rw [log, List.filterMap_append]
  exact List.append_nil _

/-- Finishing a hand adds no entry. -/
theorem finish_marks : hand.finish.marks = hand.marks := by
  have refunded : hand.close.refundUncalled.marks = hand.marks :=
    hand.close.refundUncalled_marks
  unfold finish
  dsimp only
  split
  · rw [foldOut_marks, refunded]
  · rw [showdown_marks, refunded]

theorem dealStreetCards_log : hand.dealStreetCards.log = hand.log := by
  unfold dealStreetCards
  split <;> rfl

theorem dealOut_log
    (remaining : Nat) :
    (dealOut remaining hand).log = hand.log := by
  induction remaining generalizing hand with
  | zero => rfl
  | succ remaining inductionHypothesis =>
      unfold dealOut
      rw [inductionHypothesis]
      exact dealStreetCards_log _

/-- Running the board out adds no entry. -/
theorem runOut_marks : hand.runOut.marks = hand.marks := by
  unfold runOut
  dsimp only
  rw [finish_marks, record_marks]
  exact (List.append_nil _).trans (marks_congr (hand.dealOut_log _))

theorem runOut_phase : hand.runOut.phase = .done :=
  finish_phase _

/-- A new street adds its marker. -/
theorem enterStreet_marks
    (before : hand.street < 3) :
    ∃ street : BoardStreet, street.index = hand.street + 1 ∧
      hand.enterStreet.marks = hand.marks ++ [.street street] := by
  have kept : ∀ street : BoardStreet,
      (streetOf (hand.street + 1)).marked = some street →
      hand.enterStreet.marks = hand.marks ++ [.street street] := by
    intro street isMarked
    have opened : hand.enterStreet.marks = hand.marks ++
        ((some (streetOf hand.enterStreet.street)).bind Street.marked |>.map
          HandAction.street).toList := by
      unfold enterStreet
      dsimp only
      rw [record_marks]
      exact congrArg (· ++ _) (marks_congr (dealStreetCards_log _))
    rw [opened, enterStreet_street, Option.bind_some, isMarked]
    rfl
  have cases : hand.street = 0 ∨ hand.street = 1 ∨ hand.street = 2 := by omega
  rcases cases with street | street | street <;> rw [street] at kept ⊢
  · exact ⟨.flop, rfl, kept .flop rfl⟩
  · exact ⟨.turn, rfl, kept .turn rfl⟩
  · exact ⟨.river, rfl, kept .river rfl⟩

end Hand

/-! ## One action -/

/-- The entries that an action adds to a hand's. -/
inductive Hand.Marked (hand : Hand) (entry : HandAction) (next : Hand) : Prop where
  | ended :
      next.phase = .done → next.marks = hand.marks ++ [entry] → Marked hand entry next
  | sameStreet :
      next.phase = .act → next.street = hand.street → next.marks = hand.marks ++ [entry] →
      Marked hand entry next
  | newStreet (street : BoardStreet) :
      next.phase = .act → street.index = hand.street + 1 → next.street = street.index →
      next.marks = hand.marks ++ [entry, .street street] → Marked hand entry next

theorem raiseTo_log
    (hand : Hand)
    (index amount : Nat) :
    (hand.raiseTo index amount).log = (hand.putIn index amount).log := by
  unfold Hand.raiseTo
  dsimp only
  split <;> rfl

/-- An open action is recorded with what a verifier needs to apply it again. -/
theorem applyAction_marks
    {hand applied : Hand}
    {action : Action}
    (allowed : (legalFor hand action.seat).allows action.action)
    (result : applyAction hand (legalFor hand action.seat) action = .ok applied) :
    ∃ (act : Act) (raisedTo amount : Option Nat),
      applied.marks = hand.marks ++ [.act action.seat act raisedTo amount] ∧
      act.action action.seat raisedTo = action.recorded := by
  obtain ⟨act, named⟩ := named_of_allows allowed
  have raised : ∀ name : ActionName, action.action = name → name = .bet ∨ name = .raise →
      (raiseAmount (legalFor hand action.seat) action.amount).map
        (hand.raiseTo action.seat) = .ok applied →
      ∃ total, action.amount = some total ∧
        applied.marks = hand.marks ++
          [.act action.seat (if hand.currentBet = 0 then .bet else .raise) (some total) none] := by
    intro name _ _ isRaised
    unfold raiseAmount at isRaised
    split at isRaised
    · split at isRaised
      · rename_i total isTotal _
        obtain rfl := Except.ok.inj isRaised
        refine ⟨total, isTotal, ?_⟩
        rw [Hand.marks_congr (raiseTo_log hand action.seat total)]
        have logged : (hand.putIn action.seat total).log = hand.log ++
            [{ ev := if hand.currentBet = 0 then Ev.bet else Ev.raise, seat := some action.seat,
               raisedTo := some total }] := rfl
        unfold Hand.marks
        rw [logged, List.filterMap_append]
        split <;> rfl
      · cases isRaised
    · cases isRaised
  unfold applyAction at result
  cases act with
  | fold =>
      rw [named] at result
      obtain rfl := Except.ok.inj result
      refine ⟨.fold, none, none, Hand.record_marks _ _, ?_⟩
      simp [Act.action, Action.recorded, named, Act.name]
  | check =>
      rw [named] at result
      obtain rfl := Except.ok.inj result
      refine ⟨.check, none, none, Hand.record_marks _ _, ?_⟩
      simp [Act.action, Action.recorded, named, Act.name]
  | call =>
      rw [named] at result
      obtain rfl := Except.ok.inj result
      refine ⟨.call, none, _, Hand.record_marks _ _, ?_⟩
      simp [Act.action, Action.recorded, named, Act.name]
  | bet =>
      rw [named] at result allowed
      obtain ⟨total, isTotal, marks⟩ := raised .bet named (.inl rfl) result
      have noBet : hand.currentBet = 0 := by
        by_contra someBet
        simp only [Legal.allows, List.contains_iff_mem, legalFor, if_neg someBet, Act.name]
          at allowed
        split at allowed <;> (try split at allowed) <;> simp at allowed
      rw [if_pos noBet] at marks
      refine ⟨.bet, some total, none, marks, ?_⟩
      simp [Act.action, Action.recorded, named, Act.name, isTotal]
  | raise =>
      rw [named] at result allowed
      obtain ⟨total, isTotal, marks⟩ := raised .raise named (.inr rfl) result
      have someBet : hand.currentBet ≠ 0 := by
        intro noBet
        simp only [Legal.allows, List.contains_iff_mem, legalFor, if_pos noBet, Act.name]
          at allowed
        split at allowed <;> (try split at allowed) <;> simp at allowed
      rw [if_neg someBet] at marks
      refine ⟨.raise, some total, none, marks, ?_⟩
      simp [Act.action, Action.recorded, named, Act.name, isTotal]

/-- Advancing adds a marker exactly when it opens a street. -/
theorem advance_marked
    {hand : Hand}
    {before : Hand}
    {entry : HandAction}
    (seated : hand.Seated)
    (onStreet : hand.street ≤ 3)
    (phase : hand.phase = .act)
    (sameStreet : hand.street = before.street)
    (marks : hand.marks = before.marks ++ [entry]) :
    before.Marked entry hand.advance := by
  have outcome := Hand.advanced seated
  generalize hand.advance = next at outcome
  cases outcome with
  | foldOut _ => exact .ended hand.finish_phase (hand.finish_marks.trans marks)
  | next index _ _ => exact .sameStreet phase sameStreet marks
  | runOut _ _ _ => exact .ended hand.runOut_phase (hand.runOut_marks.trans marks)
  | showdown _ _ _ _ => exact .ended hand.finish_phase (hand.finish_marks.trans marks)
  | street first _ _ _ notRiver _ =>
      obtain ⟨street, index, opened⟩ :=
        hand.enterStreet_marks (Nat.lt_of_le_of_ne onStreet notRiver)
      refine .newStreet street (hand.enterStreet_phase.trans phase) (sameStreet ▸ index)
        (hand.enterStreet_street.trans index.symm) ?_
      calc hand.enterStreet.marks
          = hand.marks ++ [.street street] := opened
        _ = before.marks ++ [entry, .street street] := by rw [marks, List.append_assoc]; rfl

/-- What an accepted action adds to the record. -/
theorem act_marked
    {hand next : Hand}
    {action : Action}
    (inOrder : hand.InOrder)
    (accepted : act hand action = .ok next) :
    ∃ (act : Act) (raisedTo amount : Option Nat),
      hand.Marked (.act action.seat act raisedTo amount) next ∧
        act.action action.seat raisedTo = action.recorded := by
  obtain ⟨phase, _, allowed, applied, result, rfl⟩ := act_ok accepted
  cases inOrder with
  | finished closing _ _ _ isFinished =>
      obtain rfl := isFinished
      rw [Hand.finish_phase] at phase
      cases phase
  | playing _ _ seated dealing =>
      have isApplied := applied_of_applyAction allowed result
      have same : Hand.SameTable (applied.markActed action.seat) hand :=
        (applied.sameTable_markActed action.seat).trans (sameTable_applied isApplied)
      have street : applied.street = hand.street :=
        congrArg Spread.street (applied_spread isApplied).1
      obtain ⟨act, raisedTo, amount, marks, again⟩ := applyAction_marks allowed result
      refine ⟨act, raisedTo, amount, ?_, again⟩
      exact advance_marked (seated.congr same) (street.trans_le dealing.onStreet)
        ((applied_phase isApplied).trans phase) street marks

/-! ## The deal -/

/-- What neither a forced commitment nor a card for a seat nor the bet and the turn
that are set changes is as the table had it. -/
theorem read_dealt
    {Value : Type}
    {read : Hand → Value}
    (commit : ∀ (hand : Hand) (index amount : Nat) (ev : Ev),
      ev = .ante ∨ ev = .sb ∨ ev = .bb → read (hand.commit index amount (some ev)) = read hand)
    (dealTo : ∀ (hand : Hand) (index : Nat), read (hand.dealTo index) = read hand)
    (betTo : ∀ (hand : Hand) (bet size : Nat),
      read { hand with currentBet := bet, minRaiseSize := size } = read hand)
    (openHand : ∀ (hand : Hand) (headsUp : Bool) (sbSeat bbSeat : Nat),
      read (hand.openHand headsUp sbSeat bbSeat) = read hand)
    (config : HandConfig)
    (deck : Deck) :
    read (config.dealt deck) = read (config.table deck) := by
  have folded : ∀ (change : Hand → Nat → Hand) (_ : ∀ hand index,
      read (change hand index) = read hand) (indices : List Nat) (hand : Hand),
      read (indices.foldl change hand) = read hand := by
    intro change same indices
    induction indices with
    | nil => exact fun _ => rfl
    | cons index indices inductionHypothesis =>
        intro hand
        exact (inductionHypothesis (change hand index)).trans (same hand index)
  have antes : ∀ (hand : Hand) (live : List Nat), read (hand.postAntes live) = read hand := by
    intro hand live
    unfold Hand.postAntes
    split
    · exact folded _ (fun hand index => commit hand index _ .ante (.inl rfl)) live hand
    · rfl
  have blinds : ∀ (hand : Hand) (sbSeat bbSeat : Nat),
      read (hand.postBlinds sbSeat bbSeat) = read hand := by
    intro hand sbSeat bbSeat
    unfold Hand.postBlinds
    dsimp only
    rw [betTo, commit _ _ _ .bb (.inr (.inr rfl)), commit _ _ _ .sb (.inr (.inl rfl))]
  have rounds : ∀ hand : Hand, read hand.dealRound = read hand := by
    intro hand
    refine folded _ (fun dealt index => ?_) _ hand
    split
    · rfl
    · exact dealTo dealt index
  unfold HandConfig.dealt HandConfig.posted
  rw [openHand, rounds, rounds, blinds, antes]

theorem dealt_marks
    (config : HandConfig)
    (deck : Deck) :
    (config.dealt deck).marks = [] :=
  read_dealt
    (fun hand index amount ev forced =>
      hand.commit_marks index amount fun _ isEv => Option.some.inj isEv ▸ forced)
    (fun _ _ => rfl) (fun _ _ _ => rfl)
    (fun hand _ sbSeat bbSeat => by
      unfold Hand.openHand
      rw [Hand.record_marks]
      exact List.append_nil _) config deck

/-- A dealt hand has no entry yet, and is before the flop while it is in play. -/
theorem newHand_marks
    {config : HandConfig}
    {hand : Hand}
    (accepted : newHand config = .ok hand) :
    hand.marks = [] ∧ (hand.phase = .act → hand.street = 0) := by
  obtain ⟨deck, _, _, outcome⟩ := newHand_ok accepted
  have marks := dealt_marks config deck
  rcases outcome with ⟨_, ranOut⟩ | ⟨_, isDealt⟩
  · rw [ranOut]
    refine ⟨(Hand.runOut_marks _).trans marks, fun phase => ?_⟩
    rw [Hand.runOut_phase] at phase
    cases phase
  · rw [isDealt]
    refine ⟨marks, fun _ => ?_⟩
    exact read_dealt (fun hand index amount ev _ =>
        congrArg Spread.street (hand.commit_spread index amount (some ev)))
      (fun _ _ => rfl) (fun _ _ _ => rfl) (fun _ _ _ _ => rfl) config deck

/-- The names and the stacks that a hand was dealt with. -/
def Hand.places (hand : Hand) : List SeatConfig :=
  hand.identities.map fun identity => ⟨identity.name, identity.startStack⟩

/-- The terms that a hand was dealt under. -/
def Hand.terms (hand : Hand) : HandConfig where
  seats := hand.places
  button := hand.button
  sb := hand.sb
  bb := hand.bb
  ante := hand.ante
  seedHex := hand.seedHex
  limit := hand.limit

theorem Hand.SameTable.terms
    {first second : Hand}
    (same : Hand.SameTable first second) :
    first.terms = second.terms := by
  have setup := same.setup
  unfold Hand.terms Hand.places
  rw [same.identities]
  exact congrArg (fun setup : Setup => ({
    seats := second.places
    button := setup.button
    sb := setup.sb
    bb := setup.bb
    ante := setup.ante
    seedHex := setup.seedHex
    limit := setup.limit } : HandConfig)) setup

/-- A dealt hand is under the terms of its configuration. -/
theorem newHand_terms
    {config : HandConfig}
    {hand : Hand}
    (accepted : newHand config = .ok hand) :
    hand.terms = config := by
  obtain ⟨deck, _, _, outcome⟩ := newHand_ok accepted
  have places : ∀ (hand : Hand) (index : Nat) (change : Seat → Seat),
      (∀ seat, (change seat).name = seat.name ∧ (change seat).startStack = seat.startStack) →
      (hand.modifySeat index change).places = hand.places := by
    intro hand index change same
    unfold Hand.places Hand.identities
    rw [List.map_map, List.map_map, Hand.modifySeat_seats]
    refine Lib.map_modify_of_eq hand.seats index change _ fun seat => ?_
    simp [Seat.identity, same seat]
  have dealt : (config.dealt deck).terms = (config.table deck).terms := by
    refine read_dealt ?_ ?_ (fun _ _ _ => rfl) (fun _ _ _ _ => rfl) config deck
    · intro hand index amount ev _
      exact (hand.sameTable_commit index amount (some ev)).terms
    · intro hand index
      exact congrArg (fun seats => { hand.terms with seats := seats })
        (places hand index (fun seat => seat.receive hand.topCard) fun _ => ⟨rfl, rfl⟩)
  have table : (config.table deck).terms = config := by
    unfold Hand.terms Hand.places Hand.identities HandConfig.table
    rw [List.map_map, List.map_map]
    exact congrArg (fun seats => { config with seats := seats }) (List.map_id'' (fun _ => rfl) _)
  rcases outcome with ⟨_, ranOut⟩ | ⟨_, isDealt⟩
  · rw [ranOut]
    exact ((Hand.sameTable_runOut _).terms.trans dealt).trans table
  · rw [isDealt]
    exact dealt.trans table

/-- A hand stays under its terms. -/
theorem step_terms
    (hand : Hand)
    (action : Action) :
    (step hand action).terms = hand.terms := by
  unfold step
  split
  · rename_i next accepted
    obtain ⟨_, _, allowed, applied, result, rfl⟩ := act_ok accepted
    have isApplied := applied_of_applyAction allowed result
    exact ((Hand.sameTable_advance _).trans ((applied.sameTable_markActed action.seat).trans
      (sameTable_applied isApplied))).terms
  · rfl

end Poker
end NostrBbs
