import NostrBbs.HouseSeat.Payouts
import NostrBbs.HouseSeat.Seating

/-!
# How a hand is put in the book

A hand that is over has a result, its two stacks hold the two buy-ins, and the loser owes
the winner what the winner has won.  All of it is put in the book, unless the record of
the hand cannot be rooted.
-/

namespace NostrBbs
namespace HouseSeat

/-! ## Obligations -/

/-- What one player owes another for a hand. -/
structure Obligation where
  debtor : String
  creditor : String
  root : String
  amount : Nat
deriving DecidableEq, Repr

def Owed.obligation (owed : Owed) : Obligation :=
  ⟨owed.hero, owed.creditor, owed.root, owed.amount⟩

def Owing.obligation (house : String) (owing : Owing) : Obligation :=
  ⟨house, owing.hero, owing.root, owing.amount⟩

/-- The loser of a hand owes its winner what the winner has won. -/
def Live.obligations (live : Live) (root : String) : List Obligation :=
  if 0 < live.won 1 then [⟨live.seats.1, live.seats.2, root, live.won 1⟩]
  else if 0 < live.won 0 then [⟨live.seats.2, live.seats.1, root, live.won 0⟩]
  else []

/-- A hand is put in the book: one entry of the history, and the debt of the loser to the
winner. -/
structure Enters (setting : Setting) (before after : Ledger) (live : Live) (root : String)
    (now : Nat) : Prop where
  hands : after.hands = before.hands + 1
  history : after.history =
    (⟨live.seats.1, root, ((live.hand.seat 0).stack : Int) - live.buyin, none, now⟩ ::
      before.history).take historyCap
  debts : ∃ owed owing, after.owed = before.owed ++ owed ∧ after.owing = before.owing ++ owing ∧
    owed.map Owed.obligation ++ owing.map (Owing.obligation setting.house.pubkey) =
      live.obligations root

/-- A hand that is over is put in the book when its record can be rooted, and leaves the
book as it was when not. -/
def EnteredIfRooted (setting : Setting) (before after : Ledger) (live : Live) (now : Nat) :
    Prop :=
  ∃ record, Poker.recordOf live.hand (some [live.seats.1, live.seats.2]) = some record ∧
    (∀ root, setting.root record = .ok root → Enters setting before after live root now) ∧
    ∀ why, setting.root record = .error why → after = before

/-! ## Stacks -/

section Stacks

variable {setting : Setting} {live : Live}

/-- The stacks of a hand for two that is over are the two buy-ins. -/
theorem bothStacks_of_over
    {hand : Poker.Hand}
    {buyin : Nat}
    (twoSeats : hand.seats.length = 2)
    (chips : hand.Conserving (2 * buyin))
    (isOver : hand.inPlay = false) :
    (hand.seat 0).stack + (hand.seat 1).stack = 2 * buyin := by
  have paid : hand.chipsBehind = 2 * buyin := by
    apply chips.chipsConserved.paidOut
    cases phase : hand.phase with
    | act => simp [Poker.Hand.inPlay, phase] at isOver
    | done => rfl
  obtain ⟨first, second, seats⟩ := List.length_eq_two.mp twoSeats
  unfold Poker.Hand.chipsBehind at paid
  unfold Poker.Hand.seat
  rw [seats] at paid ⊢
  simpa using paid

/-- The stacks of a hand that is over are the two buy-ins. -/
theorem Live.Sound.bothStacks
    (sound : live.Sound setting)
    (isOver : live.hand.inPlay = false) :
    (live.hand.seat 0).stack + (live.hand.seat 1).stack = 2 * live.buyin :=
  bothStacks_of_over sound.twoSeats sound.chips isOver

/-- A side of a hand that is over can be settled. -/
theorem settlement_eq
    {stack other buyin : Nat}
    (positive : 0 < buyin)
    (bothStacks : stack + other = 2 * buyin) :
    settlement true stack buyin = .ok
      (if 0 < other - buyin then some ⟨.hero, .citizen, other - buyin⟩
      else if 0 < stack - buyin then some ⟨.citizen, .hero, stack - buyin⟩
      else none) := by
  unfold settlement
  dsimp only
  rw [if_neg (by simp), if_neg (by omega), if_neg (by omega)]
  by_cases less : stack < buyin
  · rw [if_neg (by omega), if_neg (by omega), if_pos (by omega)]
    congr 3
    omega
  · by_cases more : buyin < stack
    · rw [if_neg (by omega), if_pos (by omega), if_neg (by omega), if_pos (by omega)]
      congr 3
      omega
    · rw [if_pos (by omega), if_neg (by omega), if_neg (by omega)]

end Stacks

namespace Citizen

variable {setting : Setting} {citizen : Citizen} {live : Live} {commit : String}

/-! ## The book -/

/-- A hand that is over is put in the book. -/
theorem enters_bookHand
    (citizen : Citizen)
    (sound : live.Sound setting)
    (isOver : live.hand.inPlay = false)
    (root : String)
    (now : Nat) :
    Enters setting citizen.ledger (citizen.bookHand setting live root now).1.ledger live root
      now := by
  have bothStacks := sound.bothStacks isOver
  unfold bookHand
  dsimp only
  rw [settlement_eq sound.buyin bothStacks]
  by_cases lost : 0 < (live.hand.seat 1).stack - live.buyin
  · rw [if_pos lost]
    refine ⟨rfl, rfl, [⟨live.seats.1, live.seats.2, root, _, now, none⟩], [], rfl,
      (List.append_nil _).symm, ?_⟩
    unfold Live.obligations Live.won
    rw [if_pos lost]
    rfl
  · rw [if_neg lost]
    by_cases won : 0 < (live.hand.seat 0).stack - live.buyin
    · rw [if_pos won]
      unfold book
      dsimp only
      by_cases againstHouse : live.house
      · rw [if_pos againstHouse]
        refine ⟨rfl, rfl, [], [⟨live.seats.1, root, _, now, 0, 0, none⟩],
          (List.append_nil _).symm, rfl, ?_⟩
        unfold Live.obligations Live.won
        rw [if_neg lost, if_pos won, sound.house againstHouse]
        rfl
      · rw [if_neg againstHouse]
        refine ⟨rfl, rfl, [⟨live.seats.2, live.seats.1, root, _, now, none⟩], [], rfl,
          (List.append_nil _).symm, ?_⟩
        unfold Live.obligations Live.won
        rw [if_neg lost, if_pos won]
        rfl
    · rw [if_neg won]
      refine ⟨rfl, rfl, [], [], (List.append_nil _).symm, (List.append_nil _).symm, ?_⟩
      unfold Live.obligations Live.won
      rw [if_neg lost, if_neg won]
      rfl

/-- The players of a hand that is over can be told of its end. -/
theorem doneMessages_ok
    (commit root : String)
    (sound : live.Sound setting)
    (isOver : live.hand.inPlay = false)
    (record : Poker.HandRecord) :
    ∃ messages, doneMessages commit live record root live.memberSeats = .ok messages := by
  have bothStacks := sound.bothStacks isOver
  have first := settlement_eq sound.buyin bothStacks
  have second := settlement_eq sound.buyin ((Nat.add_comm _ _).trans bothStacks)
  unfold Live.memberSeats
  by_cases againstHouse : live.house
  · rw [if_pos againstHouse]
    unfold doneMessages
    rw [first]
    exact ⟨_, rfl⟩
  · rw [if_neg againstHouse]
    unfold doneMessages
    rw [first]
    unfold doneMessages
    rw [second]
    exact ⟨_, rfl⟩

/-- Settling a hand that is over puts it in the book when its record can be rooted. -/
theorem enteredIfRooted_settle
    (stored : citizen.hand commit = some live)
    (sound : live.Sound setting)
    (isOver : live.hand.inPlay = false)
    (now : Nat) :
    EnteredIfRooted setting citizen.ledger (citizen.settle setting commit now).1.ledger live
      now := by
  obtain ⟨result, hasResult⟩ := sound.chips.result_of_over isOver
  have hasRecord : ∃ record,
      Poker.recordOf live.hand (some [live.seats.1, live.seats.2]) = some record := by
    unfold Poker.recordOf
    rw [hasResult]
    exact ⟨_, rfl⟩
  obtain ⟨record, isRecord⟩ := hasRecord
  unfold settle
  rw [stored]
  dsimp only
  rw [isRecord]
  refine ⟨record, isRecord, fun root rooted => ?_, fun why unrooted => ?_⟩
  · obtain ⟨messages, isDone⟩ :=
      doneMessages_ok commit root sound isOver record
    dsimp only
    rw [rooted]
    dsimp only
    rw [isDone]
    dsimp only
    rw [(ledger_offers setting _ live now live.memberSeats).1]
    have enters := enters_bookHand (citizen.release commit live) sound isOver root now
    rw [ledger_release] at enters
    exact enters
  · dsimp only
    rw [unrooted]
    exact ledger_release citizen commit live

end Citizen

end HouseSeat
end NostrBbs
