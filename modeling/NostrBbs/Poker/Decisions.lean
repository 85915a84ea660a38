import NostrBbs.Poker.Recorded

/-!
# Decisions as a record keeps them

A bot's decision names an amount with a bet or a raise, and in one case with a
call: a short stack that goes in before the flop where no raise is open.  A record
keeps every decision but that one.
-/

namespace NostrBbs
namespace Poker

/-- A short stack goes in before the flop where no raise is open. -/
def SeatView.shovesUnraised
    (view : SeatView)
    (legal : Legal)
    (profileName : String)
    (rng : Rng) : Bool :=
  match view.seats[view.seat]? with
  | none => false
  | some me =>
      let spot := view.spot legal me
      2 ≤ spot.hole.length && view.street == .preflop && spot.stackBb ≤ 10.0 &&
        spot.shoveAt (profile profileName) ≤ (spot.strength rng).1 && !legal.allows .raise

/-- A short stack goes in before the flop by a call. -/
def SeatView.shovesIntoCall
    (view : SeatView)
    (legal : Legal)
    (profileName : String)
    (rng : Rng) : Bool :=
  view.shovesUnraised legal profileName rng && legal.allows .call

namespace Spot

variable (spot : Spot) (legal : Legal) (style : Profile) (rng : Rng)

theorem does_recorded
    {name : ActionName}
    {amount : Option Nat}
    (kept : name = .bet ∨ name = .raise ∨ amount = none) :
    (spot.does name amount).recorded = spot.does name amount := by
  unfold Action.recorded does
  rcases kept with rfl | rfl | rfl
  · simp
  · simp
  · simp

theorem openPot_recorded
    (strength : Float) :
    (spot.openPot legal style rng strength).recorded = spot.openPot legal style rng strength := by
  unfold openPot
  dsimp only
  split
  · split
    · exact spot.does_recorded (.inr (.inl rfl))
    · exact spot.does_recorded (.inl rfl)
  · repeat' split
    all_goals exact spot.does_recorded (by simp)

theorem faceRaise_recorded
    (strength : Float) :
    (spot.faceRaise legal style rng strength).recorded =
      spot.faceRaise legal style rng strength := by
  unfold faceRaise
  repeat' split
  all_goals exact spot.does_recorded (by simp)

theorem aggressive_recorded
    (fraction : Float) :
    (spot.aggressive legal fraction).recorded = spot.aggressive legal fraction := by
  unfold aggressive
  split
  · exact spot.does_recorded (.inl rfl)
  · exact spot.does_recorded (.inr (.inl rfl))

theorem leadOut_recorded
    (strong monster : Bool) :
    (spot.leadOut legal style rng strong monster).recorded =
      spot.leadOut legal style rng strong monster := by
  unfold leadOut
  dsimp only
  repeat' split
  all_goals first
    | exact spot.aggressive_recorded legal _
    | exact spot.does_recorded (.inr (.inr rfl))

theorem faceBet_recorded
    (equity : Float)
    (strong monster : Bool) :
    (spot.faceBet legal style rng equity strong monster).recorded =
      spot.faceBet legal style rng equity strong monster := by
  unfold faceBet
  dsimp only
  repeat' split
  all_goals exact spot.does_recorded (by simp)

theorem postflop_recorded
    (rollouts : Nat) :
    (spot.postflop legal style rng rollouts).recorded =
      spot.postflop legal style rng rollouts := by
  unfold postflop
  dsimp only
  split
  · exact spot.leadOut_recorded ..
  · exact spot.faceBet_recorded ..

/-- Pushing or folding is kept unless it goes in without a raise. -/
theorem pushFold_recorded
    (strength : Float)
    (kept : spot.shoveAt style ≤ strength → legal.allows .raise) :
    (spot.pushFold legal style strength).recorded = spot.pushFold legal style strength := by
  unfold pushFold
  split
  · rename_i strong
    rw [if_pos (kept strong)]
    exact spot.does_recorded (.inr (.inl rfl))
  · repeat' split
    all_goals exact spot.does_recorded (.inr (.inr rfl))

end Spot

theorem firstOpen_recorded
    (legal : Legal)
    (seat : Nat)
    (names : List ActionName) :
    (firstOpen legal seat names).recorded = firstOpen legal seat names := by
  induction names with
  | nil => rfl
  | cons name names inductionHypothesis =>
      unfold firstOpen
      split
      · exact inductionHypothesis
      · split
        · rename_i raising
          simp [Action.recorded, raising]
        · simp [Action.recorded]

section

variable (view : SeatView) (legal : Legal) (profileName : String) (rng : Rng)

/-- A raw decision is kept unless a short stack goes in without a raise. -/
theorem decideRaw_recorded
    (rollouts : Nat)
    (noShove : view.shovesUnraised legal profileName rng = false) :
    (decideRaw view legal profileName rng rollouts).recorded =
      decideRaw view legal profileName rng rollouts := by
  unfold SeatView.shovesUnraised at noShove
  unfold decideRaw
  cases seated : view.seats[view.seat]? with
  | none => rfl
  | some me =>
      rw [seated] at noShove
      dsimp only at noShove ⊢
      generalize view.spot legal me = spot at noShove ⊢
      split
      · exact spot.does_recorded (.inr (.inr rfl))
      · rename_i enough
        have two : 2 ≤ spot.hole.length := by omega
        split
        · rename_i preflop
          unfold Spot.preflop
          dsimp only
          split
          · rename_i shallow
            refine spot.pushFold_recorded legal _ _ fun strong => ?_
            simpa [two, preflop, shallow, strong] using noShove
          · split
            · exact spot.openPot_recorded ..
            · exact spot.faceRaise_recorded ..
        · exact spot.postflop_recorded ..

/-- A short stack that goes in without a raise calls, and says how much. -/
theorem decideRaw_of_shovesUnraised
    (rollouts : Nat)
    (shoves : view.shovesUnraised legal profileName rng) :
    ∃ seat amount, decideRaw view legal profileName rng rollouts = ⟨seat, .call, some amount⟩ := by
  unfold SeatView.shovesUnraised at shoves
  unfold decideRaw
  cases seated : view.seats[view.seat]? with
  | none =>
      rw [seated] at shoves
      cases shoves
  | some me =>
      rw [seated] at shoves
      dsimp only at shoves ⊢
      generalize view.spot legal me = spot at shoves ⊢
      simp only [Bool.and_eq_true, decide_eq_true_eq, beq_iff_eq, Bool.not_eq_true'] at shoves
      obtain ⟨⟨⟨⟨two, preflop⟩, shallow⟩, strong⟩, noRaise⟩ := shoves
      refine ⟨spot.seat, legal.maxRaiseTo, ?_⟩
      rw [if_neg (by omega), if_pos preflop]
      unfold Spot.preflop
      dsimp only
      rw [if_pos shallow]
      unfold Spot.pushFold
      rw [if_pos strong, noRaise]
      rfl

/-- A decision is kept unless a short stack goes in by a call. -/
theorem decide_recorded_iff :
    (decide view legal profileName rng).recorded = decide view legal profileName rng ↔
      view.shovesIntoCall legal profileName rng = false := by
  unfold decide decideWith SeatView.shovesIntoCall
  dsimp only
  cases shoves : view.shovesUnraised legal profileName rng with
  | false =>
      refine iff_of_true ?_ rfl
      split
      · exact decideRaw_recorded view legal profileName rng 60 shoves
      · exact firstOpen_recorded ..
  | true =>
      obtain ⟨seat, amount, calls⟩ :=
        decideRaw_of_shovesUnraised view legal profileName rng 60 shoves
      rw [calls, Bool.true_and]
      split
      · rename_i isOpen
        refine iff_of_false ?_ (by simpa using isOpen)
        simp [Action.recorded]
      · rename_i closed
        exact iff_of_true (firstOpen_recorded ..) (by simpa using closed)

end

end Poker
end NostrBbs
