import NostrBbs.Poker.Moves

/-!
# The seat to act

While a hand is in play the turn is with a seat that can act and has something to
answer, unless the deal itself gave the turn to a seat that the blinds left without
chips.
-/

namespace NostrBbs
namespace Poker

namespace Hand

/-- Not yet acted on the street, or behind the bet. -/
def pending (hand : Hand) (index : Nat) : Prop :=
  (hand.seat index).acted = false ∨ (hand.seat index).streetCommit < hand.currentBet

/-- The turn of a seat that has something to answer: going round from it the seats
that have come before those that have not. -/
structure Turn (hand : Hand) (index : Nat) : Prop where
  named : hand.toAct = some index
  canAct : hand.canAct index
  pending : hand.pending index
  ordered : Lib.PendingFirst hand.canAct hand.pending (Lib.around hand.n index)

/-- The turn of a seat without chips, with every seat that can act still to act. -/
structure Stranded (hand : Hand) (index : Nat) : Prop where
  named : hand.toAct = some index
  broke : (hand.seat index).stack = 0
  cannotAct : hand.canAct index = false
  fresh : ∀ other, hand.canAct other → (hand.seat other).acted = false

/-- A hand in play between two actions. -/
structure Between (hand : Hand) : Prop where
  phase : hand.phase = .act
  staked : hand.Staked
  live : 2 ≤ hand.liveSeats.length

/-- Over, or in play with the turn at a seat that has something to answer. -/
inductive Awaits (hand : Hand) : Prop where
  | ended : hand.phase = .done → Awaits hand
  | turn (index : Nat) : hand.Between → hand.Turn index → Awaits hand

end Hand

/-! ## After an action -/

namespace Made

variable {hand applied : Hand} {action : Action}

theorem canAct_other
    (made : Made hand action applied)
    {other : Nat}
    (isOther : other ≠ action.seat)
    (canAct : (applied.markActed action.seat).canAct other) :
    hand.canAct other := by
  have bound : other < hand.seats.length := by
    rw [← made.length_seats]
    exact Hand.lt_of_inHand (Hand.inHand_of_canAct canAct)
  obtain ⟨canRaise, acted, same⟩ := made.other_seat bound isOther
  rw [Hand.canAct, same] at canAct
  exact canAct

theorem bound_of_canAct
    (made : Made hand action applied)
    {index : Nat}
    (canAct : (applied.markActed action.seat).canAct index) :
    index < hand.seats.length := by
  rw [← made.length_seats]
  exact Hand.lt_of_inHand (Hand.inHand_of_canAct canAct)

/-- The seat that acted has nothing more to answer. -/
theorem not_pending
    (made : Made hand action applied)
    (staked : hand.Staked)
    (canAct : (applied.markActed action.seat).canAct action.seat) :
    ¬(applied.markActed action.seat).pending action.seat := by
  have bound := made.bound_of_canAct canAct
  have matched := staked.matched bound
  rw [Hand.canAct] at canAct
  unfold Hand.pending
  change ¬(_ ∨ _ < applied.currentBet)
  rcases made.own_seat bound matched with folded | ⟨nothing, sameBet, checked⟩ | ⟨amount, put, _, covers⟩
  · rw [folded] at canAct
    simp [Seat.canAct, Seat.inHand] at canAct
  · rw [checked] at canAct ⊢
    have behind := staked.able action.seat canAct
    simp only [legalFor] at nothing
    simp only [Bool.true_eq_false, false_or, not_lt, sameBet]
    omega
  · rw [put] at canAct ⊢
    have committed : ((hand.seat action.seat).commit amount).canAct := canAct
    have reached := covers (Hand.canAct_of_commit committed).2
    simp only [Bool.true_eq_false, false_or, not_lt, Seat.commit]
    have := (Hand.canAct_of_commit committed).2
    omega

/-- A raise leaves every other seat something to answer, and any other action leaves
them what they had. -/
theorem pending_others
    (made : Made hand action applied)
    (staked : hand.Staked) :
    (∀ other, other ≠ action.seat → (applied.markActed action.seat).canAct other →
        ((applied.markActed action.seat).pending other ↔ hand.pending other)) ∨
      ∀ other, other ≠ action.seat → (applied.markActed action.seat).canAct other →
        (applied.markActed action.seat).pending other := by
  have wager := made.wager
  unfold Hand.pending
  cases wager with
  | passive _ _ sameBet _ others =>
      left
      intro other isOther canAct
      rw [others other (made.bound_of_canAct canAct) isOther, sameBet]
  | full total _ _ _ _ _ _ _ others =>
      right
      intro other isOther canAct
      rw [others other (made.bound_of_canAct canAct) isOther]
      exact .inl rfl
  | short total _ _ _ atLeast _ bet _ others =>
      rcases Nat.lt_or_eq_of_le atLeast with higher | same
      · right
        intro other isOther canAct
        have bound := made.bound_of_canAct canAct
        have matched := staked.matched bound
        right
        rw [others other bound isOther, bet]
        split
        · exact Nat.lt_of_le_of_lt matched higher
        · exact Nat.lt_of_le_of_lt matched higher
      · left
        intro other isOther canAct
        rw [others other (made.bound_of_canAct canAct) isOther, bet, ← same]
        split
        · exact Iff.rfl
        · exact Iff.rfl

theorem toAct
    (made : Made hand action applied) :
    (applied.markActed action.seat).toAct = hand.toAct := by
  cases made with
  | fold _ => rfl
  | check _ _ => rfl
  | call _ _ => rfl
  | raise total _ _ _ _ _ =>
      change (hand.raiseTo action.seat total).toAct = hand.toAct
      unfold Hand.raiseTo
      dsimp only
      split <;> rfl

/-- Once a seat has acted, the pending seats come first from its left. -/
theorem ordered
    (made : Made hand action applied)
    (staked : hand.Staked)
    (awaited : hand.Turn action.seat ∨ hand.Stranded action.seat) :
    Lib.PendingFirst (applied.markActed action.seat).canAct
      (applied.markActed action.seat).pending
      (Lib.around (applied.markActed action.seat).n (action.seat + 1)) := by
  have sameTable : Hand.SameTable (applied.markActed action.seat) hand :=
    (Hand.sameTable_markActed _ _).trans (sameTable_applied made.applied)
  rw [sameTable.n_eq]
  rcases awaited with turn | stranded
  · have bound : action.seat < hand.n := by
      rw [staked.betting.seated]
      exact Hand.lt_of_inHand (Hand.inHand_of_canAct turn.canAct)
    exact turn.ordered.passed bound (fun other isOther => made.canAct_other isOther)
      (made.pending_others staked) (made.not_pending staked)
  · apply Lib.pendingFirst_of_all
    intro other _ canAct
    by_cases own : other = action.seat
    · subst own
      have bound := made.bound_of_canAct canAct
      have couldAct : hand.canAct action.seat := by
        rw [Hand.canAct] at canAct ⊢
        rcases made.own_seat bound (staked.matched bound) with
          folded | ⟨_, _, checked⟩ | ⟨amount, put, _⟩
        · rw [folded] at canAct
          simp [Seat.canAct, Seat.inHand] at canAct
        · rw [checked] at canAct
          exact canAct
        · rw [put] at canAct
          have committed : ((hand.seat action.seat).commit amount).canAct := canAct
          exact (Hand.canAct_of_commit committed).1
      rw [stranded.cannotAct] at couldAct
      cases couldAct
    · have wasPending : hand.pending other :=
        .inl (stranded.fresh other (made.canAct_other own canAct))
      rcases made.pending_others staked with same | all
      · exact (same other own canAct).mpr wasPending
      · exact all other own canAct

end Made

namespace Hand

/-- Every seat that can act is pending on a new street. -/
theorem pending_enterStreet
    {hand : Hand}
    {index : Nat}
    (canAct : hand.enterStreet.canAct index) :
    hand.enterStreet.pending index := by
  have bound : index < hand.seats.length := by
    rw [← hand.sameTable_enterStreet.length_seats]
    exact lt_of_inHand (inHand_of_canAct canAct)
  left
  rw [seat_enterStreet hand bound]
  rfl

theorem length_liveSeats_enterStreet
    (hand : Hand) :
    hand.enterStreet.liveSeats.length = hand.liveSeats.length := by
  rw [length_liveSeats, length_liveSeats, enterStreet_seats, List.countP_map]
  rfl

/-- The turn of the first seat of a street. -/
theorem turn_of_fresh
    {hand : Hand}
    {first : Nat}
    (canAct : hand.canAct first)
    (fresh : ∀ other, hand.canAct other → hand.pending other) :
    (hand.turnTo first).Turn first :=
  ⟨rfl, canAct, fresh first canAct, Lib.pendingFirst_of_all fun other _ => fresh other⟩

/-- A seat left to answer keeps the street open. -/
theorem waiting_of_unsettled
    {hand : Hand}
    (staked : hand.Staked)
    (unsettled : ¬hand.settled) :
    ∃ index < hand.n, hand.canAct index ∧ hand.pending index := by
  by_contra nobody
  push Not at nobody
  refine unsettled (hand.settled_iff.mpr ?_)
  intro seat member canAct
  obtain ⟨index, bound, rfl⟩ := List.getElem_of_mem member
  rw [← hand.seat_eq_getElem bound] at canAct ⊢
  have answered := nobody index (by rw [staked.betting.seated]; exact bound) canAct
  unfold pending at answered
  have matched := staked.matched bound
  push Not at answered
  exact ⟨by simpa using answered.1, by omega⟩

/-- Advancing ends the hand or gives the turn to a seat with something to answer. -/
theorem awaits_advance
    {hand : Hand}
    (phase : hand.phase = .act)
    (staked : hand.Staked)
    (live : 1 ≤ hand.liveSeats.length)
    {last : Nat}
    (named : hand.toAct = some last)
    (ordered : Lib.PendingFirst hand.canAct hand.pending (Lib.around hand.n (last + 1))) :
    hand.advance.Awaits := by
  by_cases alone : hand.liveSeats.length = 1
  · rw [advance_of_alone alone]
    exact .ended hand.finish_phase
  · by_cases settled : hand.settled
    · have closes := closes_of_settled staked.betting.seated alone settled
      generalize hand.advance = next at closes
      cases closes with
      | runOut _ => exact .ended (finish_phase _)
      | showdown _ _ => exact .ended hand.finish_phase
      | street first _ _ canAct =>
          have stillLive := hand.length_liveSeats_enterStreet
          refine .turn first ⟨hand.enterStreet_phase.trans phase,
            (staked.enterStreet settled).turnTo first, ?_⟩
            (turn_of_fresh canAct fun other => pending_enterStreet)
          change 2 ≤ hand.enterStreet.liveSeats.length
          omega
    · obtain ⟨next, found, passed⟩ :=
        advance_of_unsettled staked.betting.seated alone settled
      rw [named] at found
      obtain ⟨isPending, nextOrdered⟩ := ordered.next found (waiting_of_unsettled staked settled)
      have several : 2 ≤ hand.liveSeats.length := by omega
      rw [passed]
      exact .turn next ⟨phase, staked.turnTo next, several⟩
        ⟨rfl, canAct_of_nextActor found, isPending, nextOrdered⟩

/-- After an accepted action the hand is over or a seat with something to answer has
the turn. -/
theorem Between.act
    {hand next : Hand}
    {action : Action}
    (between : hand.Between)
    (awaited : ∃ index, hand.Turn index ∨ hand.Stranded index)
    (accepted : act hand action = .ok next) :
    next.Awaits := by
  obtain ⟨_, named, applied, made, rfl⟩ := (act_eq_ok_iff hand next action).mp accepted
  obtain ⟨index, awaits⟩ := awaited
  have isIndex : index = action.seat := by
    rcases awaits with turn | stranded
    · exact Option.some.inj (turn.named.symm.trans named)
    · exact Option.some.inj (stranded.named.symm.trans named)
  subst isIndex
  have stillLive := Hand.length_liveSeats_applied made.applied
  have live := between.live
  exact awaits_advance ((applied_phase made.applied).trans between.phase)
    (between.staked.made made) (by omega) (made.toAct.trans named)
    (made.ordered between.staked awaits)

theorem Awaits.step
    (hand : Hand)
    (action : Action)
    (awaits : hand.Awaits) :
    (step hand action).Awaits := by
  unfold Poker.step
  split
  · rename_i next accepted
    cases awaits with
    | ended done =>
        rw [act_of_done done] at accepted
        cases accepted
    | turn index between turn => exact between.act ⟨index, .inl turn⟩ accepted
  · exact awaits

/-! ## Someone to act -/

/-- In play, a live seat that is not all-in has the turn, has something to answer and
has another action open than folding. -/
def SomeoneToAct (hand : Hand) : Prop :=
  hand.phase = .act →
    ∃ index, hand.toAct = some index ∧
      hand.inHand index ∧ (hand.seat index).allIn = false ∧
      ((hand.seat index).streetCommit < hand.highestCommit ∨
        (hand.seat index).acted = false) ∧
      ∃ options, legal hand = some options ∧
        ∃ name ∈ options.actions, name ≠ .fold ∧
          ∃ next, Poker.act hand ⟨index, name, none⟩ = .ok next

/-- Checking or calling is open to the seat to act. -/
theorem answer_open
    {hand : Hand}
    {index : Nat}
    (phase : hand.phase = .act)
    (named : hand.toAct = some index) :
    ∃ name ∈ (legalFor hand index).actions, name ≠ .fold ∧
      ∃ next, Poker.act hand ⟨index, name, none⟩ = .ok next := by
  have listed : (if (legalFor hand index).callAmount = 0 then ActionName.check else .call) ∈
      (legalFor hand index).actions := by
    rw [← List.contains_iff_mem, ← Legal.allows, allows_iff]
    exact .inr (.inl rfl)
  refine ⟨_, listed, by split <;> simp, ?_⟩
  by_cases nothing : (legalFor hand index).callAmount = 0
  · rw [if_pos nothing]
    exact ⟨_, (act_eq_ok_iff _ _ _).mpr ⟨phase, named, _, .check rfl nothing, rfl⟩⟩
  · rw [if_neg nothing]
    exact ⟨_, (act_eq_ok_iff _ _ _).mpr
      ⟨phase, named, _, .call rfl (Nat.pos_of_ne_zero nothing), rfl⟩⟩

theorem legal_eq
    {hand : Hand}
    {index : Nat}
    (phase : hand.phase = .act)
    (named : hand.toAct = some index) :
    legal hand = some (legalFor hand index) := by
  have inPlay : hand.inPlay = true := by simp [Hand.inPlay, phase]
  rw [legal, if_pos inPlay, named]
  rfl

theorem Awaits.someoneToAct
    {hand : Hand}
    (awaits : hand.Awaits) :
    hand.SomeoneToAct := by
  intro phase
  cases awaits with
  | ended done =>
      rw [done] at phase
      cases phase
  | turn index between turn =>
      have canAct := turn.canAct
      simp only [Hand.canAct, Seat.canAct, Bool.and_eq_true, Bool.not_eq_true'] at canAct
      have facing := turn.pending.symm
      rw [← between.staked.highest] at facing
      exact ⟨index, turn.named, canAct.1, canAct.2, facing, _, legal_eq phase turn.named,
        answer_open phase turn.named⟩

end Hand

/-! ## The deal -/

/-- The chips that a seat of the configuration starts with. -/
def HandConfig.stackOf (config : HandConfig) (index : Nat) : Nat :=
  (config.seats.map SeatConfig.stack).getD index 0

/-- The seats that start with chips, from the left of the button. -/
def HandConfig.withChips (config : HandConfig) : List Nat :=
  (Lib.around config.seats.length (config.button + 1)).filter fun index =>
    0 < config.stackOf index

/-- The seat of the big blind when two seats have chips. -/
def HandConfig.headsUpBigBlind (config : HandConfig) : Nat :=
  (config.withChips.find? (· != config.button)).getD (config.withChips.getD 1 0)

/-- Two seats have chips, the ante and the small blind leave the button none, and
another seat has some left after what it posts. -/
def HandConfig.StrandsButton (config : HandConfig) : Prop :=
  config.withChips.length = 2 ∧
    config.stackOf config.button ≤ config.ante + config.sb ∧
    ∃ index ∈ config.withChips, index ≠ config.button ∧
      config.ante + (if index = config.headsUpBigBlind then config.bb else 0) <
        config.stackOf index

instance (config : HandConfig) : Decidable config.StrandsButton :=
  inferInstanceAs (Decidable (_ ∧ _ ∧ _))

namespace Hand

/-- The chips behind a seat. -/
def behind (hand : Hand) (index : Nat) : Nat :=
  (hand.seat index).stack

theorem behind_of_map
    {hand next : Hand}
    (sameStacks : next.seats.map Seat.stack = hand.seats.map Seat.stack)
    (index : Nat) :
    next.behind index = hand.behind index := by
  have read : ∀ hand : Hand, hand.behind index = (hand.seats.map Seat.stack).getD index 0 := by
    intro hand
    rw [behind, seat, List.getD_eq_getElem?_getD, List.getD_eq_getElem?_getD, List.getElem?_map]
    cases hand.seats[index]? <;> rfl
  rw [read, read, sameStacks]

theorem behind_commit
    (hand : Hand)
    (index amount : Nat)
    (why : Option Ev)
    (other : Nat) :
    (hand.commit index amount why).behind other =
      hand.behind other - if other = index then amount else 0 := by
  rcases Nat.lt_or_ge other hand.seats.length with bound | beyond
  · rw [behind, seat_of_modify (commit_seats ..) bound, behind]
    split
    · simp only [Seat.commit]
      omega
    · rfl
  · have absent : ∀ next : Hand, next.seats.length = hand.seats.length →
        next.behind other = 0 := by
      intro next same
      simp [behind, seat, same, beyond, Seat.absent]
    rw [absent _ (by simp), absent hand rfl, Nat.zero_sub]

theorem behind_postAntes
    (hand : Hand)
    {live : List Nat}
    (distinct : live.Nodup)
    (other : Nat) :
    (hand.postAntes live).behind other =
      hand.behind other - if other ∈ live then hand.ante else 0 := by
  unfold postAntes
  split
  · rename_i positive
    clear positive
    generalize anteEq : hand.ante = ante
    induction live generalizing hand with
    | nil => simp
    | cons index live inductionHypothesis =>
        obtain ⟨notLater, distinct⟩ := List.nodup_cons.mp distinct
        have sameAnte : (hand.commit index ante (some .ante)).ante = ante :=
          (congrArg Setup.ante (hand.commit_setup index ante (some .ante))).trans anteEq
        rw [List.foldl_cons, anteEq]
        rw [inductionHypothesis (hand.commit index ante (some .ante)) distinct sameAnte,
          behind_commit]
        by_cases here : other = index
        · simp [here, notLater]
        · simp [here]
  · rename_i none
    have noAnte : hand.ante = 0 := by omega
    simp [noAnte]

theorem behind_dealRound
    (hand : Hand)
    (index : Nat) :
    hand.dealRound.behind index = hand.behind index := by
  apply behind_of_map
  unfold dealRound
  generalize hand.order (hand.button + 1) = indices
  induction indices generalizing hand with
  | nil => rfl
  | cons index indices inductionHypothesis =>
      rw [List.foldl_cons]
      split
      · exact inductionHypothesis hand
      · exact (inductionHypothesis (hand.dealTo index)).trans
          (Lib.map_modify_of_eq hand.seats index _ Seat.stack fun _ => rfl)

end Hand

theorem seat_table
    (config : HandConfig)
    (deck : Deck)
    (index : Nat) :
    (config.table deck).behind index = config.stackOf index ∧
      ((config.table deck).seat index).out = (config.stackOf index == 0) := by
  simp only [Hand.behind, Hand.seat, HandConfig.table, HandConfig.stackOf,
    List.getD_eq_getElem?_getD, List.getElem?_map]
  cases config.seats[index]? <;> exact ⟨rfl, rfl⟩

/-- The seats dealt in are those that start with chips. -/
theorem dealtIn_eq
    (config : HandConfig)
    (deck : Deck) :
    (config.table deck).dealtIn = config.withChips := by
  unfold Hand.dealtIn HandConfig.withChips
  apply List.filter_congr
  intro index _
  rw [(seat_table config deck index).2, Bool.eq_iff_iff]
  simp [Nat.pos_iff_ne_zero]

theorem mem_withChips
    (config : HandConfig)
    (index : Nat) :
    index ∈ config.withChips ↔ 0 < config.stackOf index := by
  rw [HandConfig.withChips, List.mem_filter, Lib.mem_around, decide_eq_true_iff]
  refine and_iff_right_of_imp fun positive => ?_
  by_contra beyond
  simp [HandConfig.stackOf, Nat.le_of_not_lt beyond] at positive

/-- The chips behind a seat once antes and blinds are posted. -/
theorem behind_dealt
    (config : HandConfig)
    (deck : Deck)
    (index : Nat) :
    (config.dealt deck).behind index =
      config.stackOf index - config.ante -
        (if index = (config.blinds deck).1 then config.sb else 0) -
        (if index = (config.blinds deck).2 then config.bb else 0) := by
  have antes := (posted_table config deck).postAntes (config.table deck).dealtIn
  have smallBlind : ((config.table deck).postAntes (config.table deck).dealtIn).sb = config.sb :=
    congrArg Setup.sb antes.setup
  have bigBlind : ((config.table deck).postAntes (config.table deck).dealtIn).bb = config.bb :=
    congrArg Setup.bb antes.setup
  have distinct : (config.table deck).dealtIn.Nodup := by
    rw [dealtIn_eq]
    exact (Lib.nodup_around _ _).filter _
  have dealt : (config.dealt deck).behind index = (config.posted deck).behind index :=
    ((config.posted deck).dealRound.behind_dealRound index).trans
      ((config.posted deck).behind_dealRound index)
  have blinds : (config.posted deck).behind index =
      (((config.table deck).postAntes (config.table deck).dealtIn).behind index -
        if index = (config.blinds deck).1 then config.sb else 0) -
          if index = (config.blinds deck).2 then config.bb else 0 := by
    rw [← smallBlind, ← bigBlind, ← Hand.behind_commit _ _ _ (some .sb),
      ← Hand.behind_commit _ _ _ (some .bb)]
    rfl
  have ante : (config.table deck).ante = config.ante := rfl
  rw [dealt, blinds, Hand.behind_postAntes _ distinct, (seat_table config deck index).1,
    dealtIn_eq, ante]
  split
  · rfl
  · rename_i withoutChips
    rw [mem_withChips] at withoutChips
    omega

/-- Nobody has acted or folded at the deal, and who cannot act has no chips. -/
theorem dealt_seats
    (config : HandConfig)
    (deck : Deck) :
    ∀ seat ∈ (config.dealt deck).seats,
      seat.acted = false ∧ seat.folded = false ∧ (seat.canAct = false → seat.stack = 0) := by
  refine Hand.forall_dealt config deck ?_ ?_ fun seat card kept => kept
  · intro seat _
    refine ⟨rfl, rfl, ?_⟩
    simp [SeatConfig.seat, Seat.canAct, Seat.inHand]
  · rintro seat amount ⟨fresh, live, broke⟩
    refine ⟨fresh, live, ?_⟩
    intro cannotAct
    cases couldAct : seat.canAct with
    | false => simp [Seat.commit, broke couldAct]
    | true =>
        simp only [Seat.canAct, Seat.inHand, Seat.commit, Bool.and_eq_true,
          Bool.not_eq_true'] at couldAct cannotAct ⊢
        simpa [couldAct] using cannotAct

theorem canAct_dealt_iff
    (config : HandConfig)
    (deck : Deck)
    (index : Nat) :
    (config.dealt deck).canAct index ↔ 0 < (config.dealt deck).behind index := by
  refine ⟨(Hand.staked_dealt config deck).able index, fun positive => ?_⟩
  have bound : index < (config.dealt deck).seats.length := by
    by_contra beyond
    simp [Hand.behind, Hand.seat, Nat.le_of_not_lt beyond, Seat.absent] at positive
  by_contra cannotAct
  have broke := (dealt_seats config deck _ (Hand.seat_mem _ bound)).2.2
    (by simpa [Hand.canAct] using cannotAct)
  rw [Hand.behind, broke] at positive
  exact absurd positive (Nat.lt_irrefl 0)

theorem pending_dealt
    {config : HandConfig}
    {deck : Deck}
    {index : Nat}
    (canAct : (config.dealt deck).canAct index) :
    (config.dealt deck).pending index := by
  have bound := Hand.lt_of_inHand (Hand.inHand_of_canAct canAct)
  exact .inl (dealt_seats config deck _ (Hand.seat_mem _ bound)).1

theorem between_dealt
    (config : HandConfig)
    (deck : Deck)
    (enough : 2 ≤ (config.table deck).dealtIn.length) :
    (config.dealt deck).Between where
  phase := (Hand.posted_dealt config deck).phase
  staked := Hand.staked_dealt config deck
  live := by
    rw [Hand.length_liveSeats, (Hand.posted_dealt config deck).live, ← length_dealtIn]
    exact enough

theorem Hand.openHand_toAct (hand : Hand) (headsUp : Bool) (sbSeat bbSeat : Nat) :
    (hand.openHand headsUp sbSeat bbSeat).toAct =
      if headsUp then some sbSeat else hand.nextActor (bbSeat + 1) :=
  rfl

/-- The deal gives the turn to the button when two seats have chips, and otherwise to
the first that can act left of the big blind. -/
theorem dealt_toAct
    (config : HandConfig)
    (deck : Deck) :
    (config.dealt deck).toAct =
      if config.withChips.length = 2 then some config.button
      else (config.dealt deck).nextActor ((config.blinds deck).2 + 1) := by
  rw [← dealtIn_eq config deck]
  by_cases headsUp : (config.table deck).dealtIn.length = 2
  · have button : (config.blinds deck).1 = config.button := by
      rw [HandConfig.blinds, Hand.blindSeats, if_pos headsUp]
    rw [if_pos headsUp, ← button, HandConfig.dealt, Hand.openHand_toAct, if_pos (by simpa)]
  · rw [if_neg headsUp, HandConfig.dealt, Hand.openHand_toAct, if_neg (by simpa)]
    rfl

/-- When two seats have chips, the big blind is not on the button. -/
theorem bigBlind_headsUp
    {config : HandConfig}
    (deck : Deck)
    (headsUp : config.withChips.length = 2) :
    (config.blinds deck).1 = config.button ∧
      (config.blinds deck).2 = config.headsUpBigBlind ∧
      config.headsUpBigBlind ≠ config.button := by
  have dealtIn := dealtIn_eq config deck
  have distinct : config.withChips.Nodup := (Lib.nodup_around _ _).filter _
  rw [HandConfig.blinds, dealtIn, Hand.blindSeats, if_pos headsUp]
  refine ⟨rfl, rfl, ?_⟩
  unfold HandConfig.headsUpBigBlind
  cases found : config.withChips.find? (· != config.button) with
  | some other => simpa using List.find?_some found
  | none =>
      rw [List.find?_eq_none] at found
      obtain ⟨first, second, both⟩ := List.length_eq_two.mp headsUp
      rw [both] at found distinct
      simp only [List.mem_cons, List.not_mem_nil, or_false, bne_iff_ne, not_not] at found
      rw [found first (.inl rfl), found second (.inr rfl)] at distinct
      simp at distinct

/-- A dealt hand with somebody to act gives the turn to a seat that has something to
answer, or strands the button. -/
theorem awaited_dealt
    {config : HandConfig}
    {deck : Deck}
    (someone : (config.dealt deck).actors ≠ []) :
    (∃ index, (config.dealt deck).Turn index) ∨
      config.StrandsButton ∧ (config.dealt deck).Stranded config.button := by
  have seated := (Hand.staked_dealt config deck).betting.seated
  have turn : ∀ index, (config.dealt deck).toAct = some index →
      (config.dealt deck).canAct index → (config.dealt deck).Turn index := by
    intro index named canAct
    exact ⟨named, canAct, pending_dealt canAct,
      Lib.pendingFirst_of_all fun other _ canAct => pending_dealt canAct⟩
  have named := dealt_toAct config deck
  split at named
  · rename_i headsUp
    obtain ⟨button, bigBlind, notButton⟩ := bigBlind_headsUp deck headsUp
    cases canAct : (config.dealt deck).canAct config.button with
    | true => exact .inl ⟨config.button, turn _ named canAct⟩
    | false =>
        right
        have broke : (config.dealt deck).behind config.button = 0 := by
          by_contra some
          have able := (canAct_dealt_iff config deck _).mpr (Nat.pos_of_ne_zero some)
          rw [canAct] at able
          cases able
        obtain ⟨index, isActor⟩ := List.exists_mem_of_ne_nil _ someone
        have actor := (Hand.mem_actors _ _).mp isActor
        have positive := (canAct_dealt_iff config deck index).mp actor
        have isOther : index ≠ config.button := by
          intro same
          rw [same, canAct] at actor
          cases actor
        refine ⟨⟨headsUp, ?_, index, ?_, isOther, ?_⟩, named, broke, canAct, ?_⟩
        · rw [behind_dealt, button, bigBlind, if_pos rfl, if_neg notButton.symm] at broke
          omega
        · rw [mem_withChips]
          rw [behind_dealt] at positive
          omega
        · rw [behind_dealt, button, bigBlind, if_neg isOther] at positive
          omega
        · intro other otherCanAct
          have bound := Hand.lt_of_inHand (Hand.inHand_of_canAct otherCanAct)
          exact (dealt_seats config deck _ (Hand.seat_mem _ bound)).1
  · cases found : (config.dealt deck).nextActor ((config.blinds deck).2 + 1) with
    | none => exact absurd ((Hand.nextActor_eq_none_iff seated _).mp found) someone
    | some index =>
        exact .inl ⟨index, turn index (named.trans found) (Hand.canAct_of_nextActor found)⟩

/-- When the deal strands the button, it has the turn and cannot act. -/
theorem stranded_of_strandsButton
    {config : HandConfig}
    (deck : Deck)
    (strands : config.StrandsButton) :
    (config.dealt deck).actors ≠ [] ∧ (config.dealt deck).toAct = some config.button ∧
      (config.dealt deck).canAct config.button = false := by
  obtain ⟨headsUp, broke, index, _, isOther, positive⟩ := strands
  obtain ⟨button, bigBlind, notButton⟩ := bigBlind_headsUp deck headsUp
  refine ⟨?_, ?_, ?_⟩
  · have canAct : (config.dealt deck).canAct index := by
      rw [canAct_dealt_iff, behind_dealt, button, bigBlind, if_neg isOther]
      omega
    exact List.ne_nil_of_mem ((Hand.mem_actors _ _).mpr canAct)
  · rw [dealt_toAct, if_pos headsUp]
  · have noneLeft : ¬(config.dealt deck).canAct config.button := by
      rw [canAct_dealt_iff, behind_dealt, button, if_pos rfl]
      omega
    simpa using noneLeft

/-- A stranded button has the turn and is not in the hand with chips. -/
theorem not_someoneToAct
    {config : HandConfig}
    {dealt : Hand}
    (accepted : newHand config = .ok dealt)
    (strands : config.StrandsButton) :
    ¬dealt.SomeoneToAct := by
  intro someone
  obtain ⟨deck, _, _, outcome⟩ := newHand_ok accepted
  obtain ⟨hasActors, named, cannotAct⟩ := stranded_of_strandsButton deck strands
  rcases outcome with ⟨noActors, _⟩ | ⟨_, rfl⟩
  · exact hasActors noActors
  · obtain ⟨index, isNamed, inHand, notAllIn, _⟩ :=
      someone (Hand.posted_dealt config deck).phase
    have isButton : index = config.button := Option.some.inj (isNamed.symm.trans named)
    subst isButton
    have isIn : ((config.dealt deck).seat config.button).inHand = true := inHand
    rw [Hand.canAct, Seat.canAct, isIn, notAllIn] at cannotAct
    cases cannotAct

/-! ## Runs -/

/-- In every state that a dealt hand reaches there is someone to act, exactly when the
deal does not strand the button. -/
theorem someoneToAct_iff
    (config : HandConfig)
    (dealt : Hand)
    (accepted : newHand config = .ok dealt) :
    (∀ actions, (Lib.run step dealt actions).SomeoneToAct) ↔ ¬config.StrandsButton := by
  constructor
  · intro always strands
    exact not_someoneToAct accepted strands (always [])
  · intro noStrand actions
    obtain ⟨deck, _, enough, outcome⟩ := newHand_ok accepted
    have initially : dealt.Awaits := by
      rcases outcome with ⟨_, rfl⟩ | ⟨someone, rfl⟩
      · exact .ended (Hand.finish_phase _)
      · rcases awaited_dealt someone with ⟨index, turn⟩ | ⟨strands, _⟩
        · exact .turn index (between_dealt config deck enough) turn
        · exact absurd strands noStrand
    exact (Lib.invariant_run Hand.Awaits.step initially actions).someoneToAct

theorem someoneToAct_heads_up :
    ∃ dealt, newHand headsUpTable = .ok dealt ∧
      ((∀ actions, (Lib.run step dealt actions).SomeoneToAct) ↔
        ¬headsUpTable.StrandsButton) := by
  obtain ⟨dealt, accepted⟩ := headsUpTable_deals
  exact ⟨dealt, accepted, someoneToAct_iff headsUpTable dealt accepted⟩

/-- A heads-up table whose button has one chip, for the small blind. -/
def shortButton : HandConfig where
  seats := [⟨"You", 1⟩, ⟨"Bot", 100⟩]
  button := 0
  sb := 1
  bb := 2
  ante := 0
  seedHex := "cdcdcdcdcdcdcdcdcdcdcdcdcdcdcdcdcdcdcdcdcdcdcdcdcdcdcdcdcdcdcdcd"
  limit := false

/-- The turn is with the button, which the small blind put all-in. -/
theorem all_in_button_to_act :
    ¬∀ config dealt, newHand config = .ok dealt →
      ∀ actions, (Lib.run step dealt actions).SomeoneToAct := by
  intro always
  have strands : shortButton.StrandsButton := by decide
  cases outcome : newHand shortButton with
  | error refusal =>
      have deals : (newHand shortButton).isOk = true := by decide
      rw [outcome] at deals
      cases deals
  | ok dealt => exact not_someoneToAct outcome strands (always shortButton dealt outcome [])

end Poker
end NostrBbs
