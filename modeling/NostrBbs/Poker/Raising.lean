import NostrBbs.Poker.ToAct

/-!
# The raise rules

Who has acted on a street since its last full bet or raise, and how large that was,
is told from the accepted actions alone; in a no-limit hand it decides which raises
the seat to act may make.
-/

namespace NostrBbs
namespace Poker

/-! ## The history of a street -/

/-- The seats that have acted since the last full bet or raise of a street, and its
size; before there is one it is the big blind. -/
structure StreetHistory where
  acted : List Nat
  lastFull : Nat
deriving DecidableEq

namespace StreetHistory

def fresh (bb : Nat) : StreetHistory where
  acted := []
  lastFull := bb

/-- A bet or raise from the highest commitment to a total. -/
def hearRaise (history : StreetHistory) (seat highest total : Nat) : StreetHistory :=
  if history.lastFull ≤ total - highest then ⟨[seat], total - highest⟩
  else { history with acted := seat :: history.acted }

/-- An action taken when the highest commitment is known. -/
def hear (history : StreetHistory) (highest : Nat) (action : Action) : StreetHistory :=
  match action.action, action.amount with
  | .bet, some total => history.hearRaise action.seat highest total
  | .raise, some total => history.hearRaise action.seat highest total
  | _, _ => { history with acted := action.seat :: history.acted }

theorem hear_raise
    (history : StreetHistory)
    (highest : Nat)
    {action : Action}
    {total : Nat}
    (isRaise : action.action = .bet ∨ action.action = .raise)
    (asked : action.amount = some total) :
    history.hear highest action = history.hearRaise action.seat highest total := by
  unfold hear
  rcases isRaise with isBet | isRaise
  · rw [isBet, asked]
  · rw [isRaise, asked]

theorem hear_passive
    (history : StreetHistory)
    (highest : Nat)
    {action : Action}
    (notBet : action.action ≠ .bet)
    (notRaise : action.action ≠ .raise) :
    history.hear highest action =
      { history with acted := action.seat :: history.acted } := by
  unfold hear
  split
  · exact absurd ‹_› notBet
  · exact absurd ‹_› notRaise
  · rfl

/-- The seat that acts has acted. -/
theorem seat_mem_hear
    (history : StreetHistory)
    (highest : Nat)
    (action : Action) :
    action.seat ∈ (history.hear highest action).acted := by
  have raised : ∀ total, action.seat ∈ (history.hearRaise action.seat highest total).acted := by
    intro total
    unfold hearRaise
    split
    · exact List.mem_singleton_self _
    · exact List.mem_cons_self
  unfold hear
  split
  · exact raised _
  · exact raised _
  · exact List.mem_cons_self

end StreetHistory

/-- A hand with the history of its street. -/
structure Told where
  hand : Hand
  history : StreetHistory

/-- One action; a new street has no history yet. -/
def Told.step (told : Told) (action : Action) : Told :=
  match act told.hand action with
  | .error _ => told
  | .ok next =>
      { hand := next
        history :=
          if next.street = told.hand.street then
            told.history.hear told.hand.highestCommit action
          else .fresh next.bb }

namespace Hand

/-- The flags of a seat agree with the history of the street: who has not acted may
raise, and who has acted and is behind may not. -/
structure HeardAt (hand : Hand) (history : StreetHistory) (index : Nat) : Prop where
  acted : (hand.seat index).acted ↔ index ∈ history.acted
  unacted : (hand.seat index).acted = false → (hand.seat index).canRaise
  closed : (hand.seat index).acted → (hand.seat index).streetCommit < hand.currentBet →
    (hand.seat index).canRaise = false

/-- The hand agrees with the history of its street. -/
structure Heard (hand : Hand) (history : StreetHistory) : Prop where
  lastFull : hand.minRaiseSize = history.lastFull
  seats : ∀ index, hand.canAct index → hand.HeardAt history index

/-- The seat that acts is heard. -/
theorem heardAt_own
    {hand applied : Hand}
    {action : Action}
    (history : StreetHistory)
    (staked : hand.Staked)
    (made : Made hand action applied)
    (canAct : (applied.markActed action.seat).canAct action.seat) :
    (applied.markActed action.seat).HeardAt (history.hear hand.highestCommit action)
      action.seat := by
  have appliedBound : action.seat < applied.seats.length := by
    rw [(sameTable_applied made.applied).length_seats]
    exact made.bound_of_canAct canAct
  have hasActed : ((applied.markActed action.seat).seat action.seat).acted = true := by
    rw [seat_markActed _ _ appliedBound, if_pos rfl]
  refine ⟨iff_of_true hasActed (history.seat_mem_hear _ action), ?_, ?_⟩
  · intro notActed
    rw [hasActed] at notActed
    cases notActed
  · intro _ behind
    exact absurd (.inr behind) (made.not_pending staked canAct)

/-- Every accepted action is heard. -/
theorem Heard.made
    {hand applied : Hand}
    {action : Action}
    {history : StreetHistory}
    (heard : hand.Heard history)
    (staked : hand.Staked)
    (made : Made hand action applied) :
    (applied.markActed action.seat).Heard (history.hear hand.highestCommit action) := by
  have others : (∀ index, index ≠ action.seat → (applied.markActed action.seat).canAct index →
      (applied.markActed action.seat).HeardAt (history.hear hand.highestCommit action) index) →
      ∀ index, (applied.markActed action.seat).canAct index →
        (applied.markActed action.seat).HeardAt (history.hear hand.highestCommit action)
          index := by
    intro otherHeard index canAct
    by_cases own : index = action.seat
    · subst own
      exact heardAt_own history staked made canAct
    · exact otherHeard index own canAct
  have wager := made.wager
  cases wager with
  | passive notBet notRaise sameBet sameRaise kept =>
      refine ⟨?_, others ?_⟩
      · rw [history.hear_passive _ notBet notRaise]
        exact sameRaise.trans heard.lastFull
      · intro index isOther canAct
        obtain ⟨acted, unacted, closed⟩ := heard.seats index (made.canAct_other isOther canAct)
        have same := kept index (made.bound_of_canAct canAct) isOther
        rw [history.hear_passive _ notBet notRaise]
        refine ⟨?_, ?_, ?_⟩
        · rw [same, acted]
          simp [isOther]
        · rw [same]
          exact unacted
        · rw [same, sameBet]
          exact closed
  | full total isRaise asked _ _ isFull _ size reopened =>
      have told : history.hear hand.highestCommit action =
          ⟨[action.seat], total - hand.currentBet⟩ := by
        rw [history.hear_raise _ (isRaise ▸ hand.raiseName_eq) asked, StreetHistory.hearRaise,
          staked.highest, ← heard.lastFull, if_pos isFull]
      refine ⟨told ▸ size, others ?_⟩
      intro index isOther canAct
      have fresh := reopened index (made.bound_of_canAct canAct) isOther
      rw [told]
      refine ⟨?_, ?_, ?_⟩
      · rw [fresh]
        simp [isOther]
      · rw [fresh]
        exact fun _ => rfl
      · rw [fresh]
        intro notActed
        cases notActed
  | short total isRaise asked _ _ isShort _ sameRaise closedTo =>
      have told : history.hear hand.highestCommit action =
          { history with acted := action.seat :: history.acted } := by
        rw [history.hear_raise _ (isRaise ▸ hand.raiseName_eq) asked, StreetHistory.hearRaise,
          staked.highest, ← heard.lastFull, if_neg (Nat.not_le.mpr isShort)]
      refine ⟨?_, others ?_⟩
      · rw [told]
        exact sameRaise.trans heard.lastFull
      intro index isOther canAct
      obtain ⟨acted, unacted, _⟩ := heard.seats index (made.canAct_other isOther canAct)
      have changed := closedTo index (made.bound_of_canAct canAct) isOther
      rw [told]
      -- only a seat that has acted loses its raise
      cases hasActed : (hand.seat index).acted with
      | true =>
          rw [hasActed, if_pos rfl] at changed
          rw [hasActed] at acted
          refine ⟨?_, ?_, ?_⟩
          · rw [changed, hasActed]
            simp [isOther, ← acted]
          · rw [changed]
            intro notActed
            rw [hasActed] at notActed
            cases notActed
          · rw [changed]
            exact fun _ _ => rfl
      | false =>
          rw [hasActed, if_neg Bool.false_ne_true] at changed
          refine ⟨?_, ?_, ?_⟩
          · rw [changed, acted]
            simp [isOther]
          · rw [changed]
            exact unacted
          · rw [changed, hasActed]
            intro acted
            cases acted

theorem enterStreet_minRaiseSize (hand : Hand) : hand.enterStreet.minRaiseSize = hand.bb := by
  unfold enterStreet dealNextStreet
  dsimp only [record]
  unfold dealStreetCards
  split <;> rfl

/-- A street starts without history. -/
theorem heard_enterStreet
    (hand : Hand)
    (first : Nat) :
    (hand.enterStreet.turnTo first).Heard (.fresh hand.bb) where
  lastFull := hand.enterStreet_minRaiseSize
  seats := by
    intro index canAct
    have bound : index < hand.seats.length := by
      rw [← hand.sameTable_enterStreet.length_seats]
      exact lt_of_inHand (inHand_of_canAct canAct)
    have reset : (hand.enterStreet.turnTo first).seat index = (hand.seat index).resetStreet :=
      hand.seat_enterStreet bound
    refine ⟨?_, ?_, ?_⟩
    · rw [reset]
      simp [Seat.resetStreet, StreetHistory.fresh]
    · rw [reset]
      exact fun _ => rfl
    · rw [reset]
      intro acted
      cases acted

/-- A hand that goes on keeps its history, or starts a street without one. -/
theorem Heard.advance
    {hand : Hand}
    {history : StreetHistory}
    (heard : hand.Heard history)
    (seated : hand.Seated)
    (playing : hand.advance.phase = .act) :
    hand.advance.Heard
      (if hand.advance.street = hand.street then history else .fresh hand.advance.bb) := by
  have notDone : ∀ closing : Hand, closing.finish.phase ≠ .act := by
    intro closing
    rw [closing.finish_phase]
    simp
  have outcome := advanced seated
  generalize hand.advance = next at outcome playing
  cases outcome with
  | foldOut _ => exact absurd playing (notDone hand)
  | next index _ _ =>
      have sameStreet : (hand.turnTo index).street = hand.street := rfl
      rw [if_pos sameStreet]
      exact ⟨heard.lastFull, fun other canAct =>
        ⟨(heard.seats other canAct).acted, (heard.seats other canAct).unacted,
          (heard.seats other canAct).closed⟩⟩
  | runOut _ _ _ => exact absurd playing (notDone _)
  | showdown _ _ _ _ => exact absurd playing (notDone hand)
  | street first _ _ _ _ _ =>
      have later : (hand.enterStreet.turnTo first).street ≠ hand.street := by
        change hand.enterStreet.street ≠ hand.street
        rw [enterStreet_street]
        omega
      have sameBlind : (hand.enterStreet.turnTo first).bb = hand.bb :=
        congrArg Setup.bb hand.enterStreet_setup
      rw [if_neg later, sameBlind]
      exact hand.heard_enterStreet first

end Hand

/-! ## Runs -/

/-- Over, or in play with its history and the betting of the table. -/
inductive Told.Sound (limit : Bool) (told : Told) : Prop where
  | ended : told.hand.phase = .done → Told.Sound limit told
  | playing :
      told.hand.Between → told.hand.limit = limit →
      (∃ index, told.hand.Turn index ∨ told.hand.Stranded index) →
      told.hand.Heard told.history → Told.Sound limit told

theorem Told.Sound.step
    {limit : Bool}
    (told : Told)
    (action : Action)
    (sound : told.Sound limit) :
    (told.step action).Sound limit := by
  unfold Told.step
  split
  · exact sound
  · rename_i next accepted
    cases sound with
    | ended done =>
        rw [act_of_done done] at accepted
        cases accepted
    | playing between sameLimit awaited heard =>
        have awaits := between.act awaited accepted
        have sameTable := sameTable_act accepted
        have stillLimit : next.limit = limit :=
          (congrArg Setup.limit sameTable.setup).trans sameLimit
        cases awaits with
        | ended done => exact .ended done
        | turn index nextBetween turn =>
            refine .playing nextBetween stillLimit ⟨index, .inl turn⟩ ?_
            obtain ⟨_, _, applied, made, rfl⟩ := (act_eq_ok_iff told.hand next action).mp accepted
            have sameStreet : (applied.markActed action.seat).street = told.hand.street :=
              congrArg Spread.street (applied_spread made.applied).1
            have onward := (heard.made between.staked made).advance
              (between.staked.made made).betting.seated nextBetween.phase
            rw [sameStreet] at onward
            exact onward

theorem dealRound_minRaiseSize
    (hand : Hand) :
    hand.dealRound.minRaiseSize = hand.minRaiseSize := by
  unfold Hand.dealRound
  generalize hand.order (hand.button + 1) = indices
  induction indices generalizing hand with
  | nil => rfl
  | cons index indices inductionHypothesis =>
      rw [List.foldl_cons]
      split
      · exact inductionHypothesis hand
      · exact inductionHypothesis (hand.dealTo index)

/-- A dealt hand agrees with a street that has no history yet. -/
theorem heard_dealt
    (config : HandConfig)
    (deck : Deck) :
    (config.dealt deck).Heard (.fresh config.bb) where
  lastFull := by
    have blind : (config.posted deck).minRaiseSize = config.bb :=
      congrArg Setup.bb (Hand.posted_posted config deck).setup
    exact ((dealRound_minRaiseSize _).trans (dealRound_minRaiseSize _)).trans blind
  seats := by
    intro index canAct
    have member := Hand.seat_mem _ (Hand.lt_of_inHand (Hand.inHand_of_canAct canAct))
    have notActed := (dealt_seats config deck _ member).1
    have mayRaise : ∀ seat ∈ (config.dealt deck).seats, seat.canRaise = true :=
      Hand.forall_dealt config deck (fun _ _ => rfl) (fun _ _ kept => kept) fun _ _ kept => kept
    refine ⟨?_, fun _ => mayRaise _ member, ?_⟩
    · rw [notActed]
      simp [StreetHistory.fresh]
    · rw [notActed]
      intro acted
      cases acted

theorem told_newHand
    {config : HandConfig}
    {dealt : Hand}
    (accepted : newHand config = .ok dealt) :
    Told.Sound config.limit ⟨dealt, .fresh config.bb⟩ := by
  obtain ⟨deck, _, enough, outcome⟩ := newHand_ok accepted
  rcases outcome with ⟨_, rfl⟩ | ⟨someone, rfl⟩
  · exact .ended (Hand.finish_phase _)
  · have setup := (Hand.posted_dealt config deck).setup
    refine .playing (between_dealt config deck enough)
      (congrArg Setup.limit setup) ?_ (heard_dealt config deck)
    rcases awaited_dealt someone with ⟨index, turn⟩ | ⟨_, stranded⟩
    · exact ⟨index, .inl turn⟩
    · exact ⟨config.button, .inr stranded⟩

/-! ## The rules -/

namespace Told

/-- A bet or raise of a seat to a total is accepted. -/
def AcceptsRaise (told : Told) (index total : Nat) : Prop :=
  ∃ name, (name = .bet ∨ name = .raise) ∧
    ∃ next, act told.hand ⟨index, name, some total⟩ = .ok next

/-- A total within the chips of a seat that is a full raise, or all of them and above
the highest commitment. -/
def InRange (told : Told) (index total : Nat) : Prop :=
  total ≤ (told.hand.seat index).allChips ∧
    (told.hand.highestCommit + told.history.lastFull ≤ total ∨
      total = (told.hand.seat index).allChips ∧ told.hand.highestCommit < total)

/-- An action that stays on the street and is no full raise. -/
def Short (told : Told) (action : Action) : Prop :=
  (told.step action).hand.street = told.hand.street ∧
    (action.action = .bet ∨ action.action = .raise →
      ∀ total, action.amount = some total →
        total - told.hand.highestCommit < told.history.lastFull)

theorem acceptsRaise_iff_made
    (told : Told)
    (index total : Nat) :
    told.AcceptsRaise index total ↔
      told.hand.phase = .act ∧ told.hand.toAct = some index ∧
        told.hand.mayRaise index ∧
        (legalFor told.hand index).minRaiseTo ≤ total ∧
        total ≤ (legalFor told.hand index).maxRaiseTo := by
  constructor
  · rintro ⟨name, isRaise, next, accepted⟩
    obtain ⟨phase, named, applied, made, _⟩ := (act_eq_ok_iff _ _ _).mp accepted
    refine ⟨phase, named, ?_⟩
    cases made with
    | fold isFold => rcases isRaise with rfl | rfl <;> cases isFold
    | check isCheck _ => rcases isRaise with rfl | rfl <;> cases isCheck
    | call isCall _ => rcases isRaise with rfl | rfl <;> cases isCall
    | raise asked _ isTotal mayRaise atLeast atMost =>
        obtain rfl := Option.some.inj isTotal
        exact ⟨mayRaise, atLeast, atMost⟩
  · rintro ⟨phase, named, mayRaise, atLeast, atMost⟩
    exact ⟨told.hand.raiseName, told.hand.raiseName_eq, _, (act_eq_ok_iff _ _ _).mpr
      ⟨phase, named, _, .raise total rfl rfl mayRaise atLeast atMost, rfl⟩⟩

/-- In a no-limit hand a seat that may raise may raise to any total in range. -/
theorem raise_range_iff
    {hand : Hand}
    {index : Nat}
    (noLimit : hand.limit = false)
    (mayRaise : hand.mayRaise index)
    (total : Nat) :
    (legalFor hand index).minRaiseTo ≤ total ∧ total ≤ (legalFor hand index).maxRaiseTo ↔
      total ≤ (hand.seat index).allChips ∧
        (hand.currentBet + hand.minRaiseSize ≤ total ∨ total = (hand.seat index).allChips) := by
  simp only [legalFor, mayRaise, noLimit, Bool.false_and, Bool.true_and,
    Bool.false_eq_true, if_false, decide_eq_true_eq]
  split <;> omega

theorem mayRaise_iff
    {hand : Hand}
    (noLimit : hand.limit = false)
    (index : Nat) :
    hand.mayRaise index ↔
      hand.currentBet < (hand.seat index).allChips ∧ (hand.seat index).canRaise := by
  simp [Hand.mayRaise, noLimit]

/-- The seat to act may raise exactly when it has not acted since the last full raise
and has chips above the highest commitment. -/
theorem Sound.mayRaise_iff
    {told : Told}
    (sound : told.Sound false)
    (phase : told.hand.phase = .act)
    {index : Nat}
    (named : told.hand.toAct = some index) :
    told.hand.mayRaise index ↔
      index ∉ told.history.acted ∧
        told.hand.highestCommit < (told.hand.seat index).allChips := by
  cases sound with
  | ended done =>
      rw [done] at phase
      cases phase
  | playing between noLimit awaited heard =>
      rw [Told.mayRaise_iff noLimit, between.staked.highest]
      obtain ⟨seat, turn | stranded⟩ := awaited
      · have isSeat : seat = index := Option.some.inj (turn.named.symm.trans named)
        subst isSeat
        obtain ⟨acted, unacted, closed⟩ := heard.seats seat turn.canAct
        have isOpen : (told.hand.seat seat).canRaise ↔ seat ∉ told.history.acted := by
          cases hasActed : (told.hand.seat seat).acted with
          | false =>
              rw [← acted, hasActed]
              simp [unacted hasActed]
          | true =>
              have behind := turn.pending.resolve_left (by simp [hasActed])
              rw [← acted, hasActed, closed hasActed behind]
              simp
        rw [isOpen]
        exact and_comm
      · have isSeat : seat = index := Option.some.inj (stranded.named.symm.trans named)
        subst isSeat
        have noChips : ¬told.hand.currentBet < (told.hand.seat seat).allChips := by
          rw [Seat.allChips, stranded.broke]
          rcases Nat.lt_or_ge seat told.hand.seats.length with bound | beyond
          · have matched := between.staked.matched bound
            omega
          · simp [Hand.seat, beyond, Seat.absent]
        simp [noChips]

/-- What the street's history says of raising. -/
structure RaiseRules (told : Told) : Prop where
  accepted : ∀ index total, told.hand.phase = .act → told.hand.toAct = some index →
    (told.AcceptsRaise index total ↔
      index ∉ told.history.acted ∧
        told.hand.highestCommit < (told.hand.seat index).allChips ∧
        told.InRange index total)
  neverReopened : ∀ index ∈ told.history.acted, ∀ later,
    Lib.Along Told.step Short told later →
      ∀ total, ¬(Lib.run Told.step told later).AcceptsRaise index total

theorem Sound.acceptsRaise_iff
    {told : Told}
    (sound : told.Sound false)
    (phase : told.hand.phase = .act)
    {index : Nat}
    (named : told.hand.toAct = some index)
    (total : Nat) :
    told.AcceptsRaise index total ↔
      index ∉ told.history.acted ∧
        told.hand.highestCommit < (told.hand.seat index).allChips ∧
        told.InRange index total := by
  have mayRaise := sound.mayRaise_iff phase named
  have cases := sound
  cases cases with
  | ended done =>
      rw [done] at phase
      cases phase
  | playing between noLimit _ heard =>
      rw [acceptsRaise_iff_made, mayRaise]
      constructor
      · rintro ⟨_, _, ⟨notActed, covers⟩, inRange⟩
        have range := (raise_range_iff noLimit (mayRaise.mpr ⟨notActed, covers⟩) total).mp inRange
        refine ⟨notActed, covers, range.1, ?_⟩
        rw [between.staked.highest, ← heard.lastFull] at *
        omega
      · rintro ⟨notActed, covers, within, least⟩
        refine ⟨phase, named, ⟨notActed, covers⟩, ?_⟩
        refine (raise_range_iff noLimit (mayRaise.mpr ⟨notActed, covers⟩) total).mpr
          ⟨within, ?_⟩
        rw [between.staked.highest, ← heard.lastFull] at least
        omega

/-- An action that is no full raise reopens the street to nobody. -/
theorem acted_step
    {told : Told}
    {action : Action}
    {index : Nat}
    (isShort : told.Short action)
    (hasActed : index ∈ told.history.acted) :
    index ∈ (told.step action).history.acted := by
  obtain ⟨sameStreet, notFull⟩ := isShort
  unfold Told.step at sameStreet ⊢
  split
  · exact hasActed
  · rename_i next accepted
    rw [accepted] at sameStreet
    dsimp only at sameStreet ⊢
    rw [if_pos sameStreet]
    have raised : ∀ total, total - told.hand.highestCommit < told.history.lastFull →
        index ∈ (told.history.hearRaise action.seat told.hand.highestCommit total).acted := by
      intro total notReached
      rw [StreetHistory.hearRaise, if_neg (Nat.not_le.mpr notReached)]
      exact List.mem_cons_of_mem _ hasActed
    unfold StreetHistory.hear
    split
    · rename_i total isBet asked
      exact raised total (notFull (.inl isBet) total asked)
    · rename_i total isRaise asked
      exact raised total (notFull (.inr isRaise) total asked)
    · exact List.mem_cons_of_mem _ hasActed

theorem Sound.raiseRules
    {told : Told}
    (sound : told.Sound false) :
    told.RaiseRules where
  accepted := fun _ total phase named => sound.acceptsRaise_iff phase named total
  neverReopened := by
    intro index hasActed later allShort total accepts
    have laterSound : (Lib.run Told.step told later).Sound false :=
      Lib.invariant_run Told.Sound.step sound later
    have preserved : ∀ (told : Told) action, index ∈ told.history.acted → told.Short action →
        index ∈ (told.step action).history.acted :=
      fun _ _ acted isShort => acted_step isShort acted
    have stillActed : index ∈ (Lib.run Told.step told later).history.acted :=
      Lib.invariant_run_along preserved hasActed allShort
    obtain ⟨phase, named, _⟩ := (acceptsRaise_iff_made _ _ _).mp accepts
    exact ((laterSound.acceptsRaise_iff phase named total).mp accepts).1 stillActed

/-- The hand of a told run is the hand of the run. -/
theorem run_hand
    (told : Told)
    (actions : List Action) :
    (Lib.run Told.step told actions).hand = Lib.run Poker.step told.hand actions := by
  induction actions generalizing told with
  | nil => rfl
  | cons action actions inductionHypothesis =>
      have stepped : (told.step action).hand = Poker.step told.hand action := by
        unfold Told.step Poker.step
        split <;> simp_all
      change (Lib.run Told.step (told.step action) actions).hand = _
      rw [inductionHypothesis, stepped]
      rfl

end Told

/-- In every state that a dealt no-limit hand reaches, its street's history alone says
which raises of the seat to act are accepted. -/
theorem raise_rules
    (config : HandConfig)
    (dealt : Hand)
    (noLimit : config.limit = false)
    (accepted : newHand config = .ok dealt)
    (actions : List Action) :
    (Lib.run Told.step ⟨dealt, .fresh config.bb⟩ actions).hand = Lib.run step dealt actions ∧
      (Lib.run Told.step ⟨dealt, .fresh config.bb⟩ actions).RaiseRules :=
  ⟨Told.run_hand _ actions,
    (Lib.invariant_run Told.Sound.step (noLimit ▸ told_newHand accepted) actions).raiseRules⟩

/-- A no-limit table with a short stack. -/
def threeHanded : HandConfig where
  seats := [⟨"Ann", 2000⟩, ⟨"Bob", 2000⟩, ⟨"Cat", 70⟩]
  button := 0
  sb := 10
  bb := 20
  ante := 0
  seedHex := "cdcdcdcdcdcdcdcdcdcdcdcdcdcdcdcdcdcdcdcdcdcdcdcdcdcdcdcdcdcdcdcd"
  limit := false

theorem raise_rules_three_handed :
    ∃ dealt, newHand threeHanded = .ok dealt ∧
      (Lib.run Told.step ⟨dealt, .fresh 20⟩
        [⟨0, .raise, some 60⟩, ⟨1, .call, none⟩, ⟨2, .raise, some 70⟩]).RaiseRules := by
  cases outcome : newHand threeHanded with
  | ok dealt => exact ⟨dealt, rfl, (raise_rules threeHanded dealt rfl outcome _).2⟩
  | error refusal =>
      have deals : (newHand threeHanded).isOk = true := by decide
      rw [outcome] at deals
      cases deals

/-- A table without a big blind, with a stack of just the small blind. -/
def noBigBlind : HandConfig where
  seats := [⟨"Ann", 5⟩, ⟨"Bob", 100⟩, ⟨"Cat", 100⟩]
  button := 0
  sb := 5
  bb := 0
  ante := 0
  seedHex := "cdcdcdcdcdcdcdcdcdcdcdcdcdcdcdcdcdcdcdcdcdcdcdcdcdcdcdcdcdcdcdcd"
  limit := false

theorem noBigBlind_dealt :
    (newHand noBigBlind).toOption.map (fun hand =>
        (hand.phase, hand.toAct, (hand.seat 0).allChips, hand.highestCommit)) =
      some (.act, some 0, 5, 5) := by
  decide

/-- Without a big blind a call for the whole stack is in range, and no raise. -/
theorem whole_stack_call_no_raise :
    ¬∀ config dealt, config.limit = false → newHand config = .ok dealt →
      ∀ actions index total,
        (Lib.run Told.step ⟨dealt, .fresh config.bb⟩ actions).hand.phase = .act →
        (Lib.run Told.step ⟨dealt, .fresh config.bb⟩ actions).hand.toAct = some index →
        ((Lib.run Told.step ⟨dealt, .fresh config.bb⟩ actions).AcceptsRaise index total ↔
          index ∉ (Lib.run Told.step ⟨dealt, .fresh config.bb⟩ actions).history.acted ∧
            (Lib.run Told.step ⟨dealt, .fresh config.bb⟩ actions).InRange index total) := by
  intro always
  have facts := noBigBlind_dealt
  cases outcome : newHand noBigBlind with
  | error refusal =>
      rw [outcome] at facts
      cases facts
  | ok dealt =>
      rw [outcome] at facts
      have read : (dealt.phase, dealt.toAct, (dealt.seat 0).allChips, dealt.highestCommit) =
          (Phase.act, some 0, 5, 5) := Option.some.inj facts
      simp only [Prod.mk.injEq] at read
      obtain ⟨phase, named, chips, highest⟩ := read
      have rule := always noBigBlind dealt rfl outcome [] 0 5 phase named
      have accepts : Told.AcceptsRaise ⟨dealt, .fresh 0⟩ 0 5 := by
        refine rule.mpr ⟨List.not_mem_nil, ?_⟩
        change 5 ≤ (dealt.seat 0).allChips ∧ (dealt.highestCommit + 0 ≤ 5 ∨ _)
        rw [chips, highest]
        exact ⟨Nat.le_refl 5, .inl (Nat.le_refl 5)⟩
      have sound : Told.Sound false ⟨dealt, .fresh 0⟩ := told_newHand outcome
      obtain ⟨_, covers, _⟩ := (sound.acceptsRaise_iff phase named 5).mp accepts
      change dealt.highestCommit < (dealt.seat 0).allChips at covers
      rw [chips, highest] at covers
      exact Nat.lt_irrefl 5 covers

end Poker
end NostrBbs
