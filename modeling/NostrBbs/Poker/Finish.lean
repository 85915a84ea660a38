import NostrBbs.Poker.Hand

/-!
# Finishing a hand

The uncalled tail of the highest commitment goes back, a lone seat scoops the
rest, and otherwise side pots are cut from the capped live commitments and
each is split among its best hands, odd chips clockwise from the button.
-/

namespace NostrBbs
namespace Poker

/-- An amount and the seats that may win it, before the hands are compared. -/
abbrev Slice := Nat × List Nat

/-- The distinct positive live commitments, ascending. -/
def potLevels (hand : Hand) (live : List Nat) : List Nat :=
  (((live.map fun index => (hand.seat index).handCommit).filter (0 < ·)).insertionSort
    (· ≤ ·)).dedup

/-- The chips between two commitment levels, over all seats. -/
def layer (hand : Hand) (previous level : Nat) : Nat :=
  (hand.seats.map fun seat => min seat.handCommit level - previous).sum

/-- One slice for each level, contested by the live seats that reached it. -/
def slices (hand : Hand) (live : List Nat) : List Nat → Nat → List Slice
  | [], _ => []
  | level :: levels, previous =>
      let amount := layer hand previous level
      let contenders := live.filter fun index => level ≤ (hand.seat index).handCommit
      if contenders ≠ [] ∧ 0 < amount then
        (amount, contenders) :: slices hand live levels level
      else slices hand live levels level

/-- Chips above the last live level are dead money for the last pot. -/
def addToLast (leftover : Nat) : List Slice → List Slice
  | [] => []
  | [last] => [(last.1 + leftover, last.2)]
  | first :: second :: rest => first :: addToLast leftover (second :: rest)

/-- Neighbouring pots with the same contenders become one. -/
def mergeInto (current : Slice) : List Slice → List Slice
  | [] => [current]
  | next :: rest =>
      if current.2 = next.2 then mergeInto (current.1 + next.1, current.2) rest
      else current :: mergeInto next rest

def mergeSlices : List Slice → List Slice
  | [] => []
  | first :: rest => mergeInto first rest

/-- The amounts and contenders of the pots. -/
def sidePots (hand : Hand) (live : List Nat) : List Slice :=
  let cut := slices hand live (potLevels hand live) 0
  let sliced := (cut.map Prod.fst).sum
  let leftover := hand.committed - sliced
  mergeSlices (if 0 < leftover then addToLast leftover cut else cut)

/-- The cards a seat shows down with. -/
def shownCards (hand : Hand) (index : Nat) : List Card :=
  (hand.seat index).hole.getD [] ++ hand.board

/-- The strength a seat shows down. -/
def shownEval (hand : Hand) (index : Nat) : Eval :=
  evaluate (shownCards hand index)

/-- A pot won by the contenders with the greatest score. -/
def awardPot (hand : Hand) (slice : Slice) : Pot :=
  let best := (slice.2.map fun index => (shownEval hand index).score).foldl max 0
  { amount := slice.1
    contenders := slice.2
    winners := slice.2.filter fun index => (shownEval hand index).score == best }

/-- Equal shares with one odd chip each to the first seats. -/
def dealShares (share : Nat) : Nat → List Nat → List Winner
  | _, [] => []
  | remainder, index :: rest =>
      let extra := if 0 < remainder then 1 else 0
      ⟨index, share + extra⟩ :: dealShares share (remainder - extra) rest

/-- What each winner of a pot collects from it: odd chips go first to the
earliest winner left of the button. -/
def potShares (hand : Hand) (pot : Pot) : List Winner :=
  let share := pot.amount / pot.winners.length
  let remainder := pot.amount - share * pot.winners.length
  let clockwise := (hand.order (hand.button + 1)).filter pot.winners.contains
  dealShares share remainder clockwise

namespace Hand

/-- Chips added to a seat's stack. -/
def pay (hand : Hand) (payment : Winner) : Hand :=
  hand.modifySeat payment.seat fun seat =>
    { seat with stack := seat.stack + payment.amount }

def payAll (hand : Hand) (payments : List Winner) : Hand :=
  payments.foldl pay hand

/-- What every paid seat collected in total, by seat. -/
def collected (hand : Hand) (payments : List Winner) : List Winner :=
  ((List.range hand.seats.length).filter fun index =>
      payments.any fun payment => payment.seat == index).map fun index =>
    ⟨index, ((payments.filter fun payment => payment.seat == index).map
      Winner.amount).sum⟩

/-- How much of the highest commitment nobody called, and whose it is. -/
def uncalled (hand : Hand) : Option (Nat × Nat) :=
  let commits := hand.seats.map Seat.handCommit
  match sortDesc commits with
  | first :: second :: _ =>
      let top := commits.findIdx (· == first)
      if second < first ∧ hand.inHand top then some (top, first - second) else none
  | _ => none

/-- Return the uncalled tail of the highest commitment to a live seat; a
folded seat's chips are dead money and stay in the pots. -/
def refundUncalled (hand : Hand) : Hand :=
  match hand.uncalled with
  | some (top, refund) =>
      (hand.modifySeat top fun seat =>
        { seat with
          stack := seat.stack + refund
          handCommit := seat.handCommit - refund }).record
        { ev := .refund, seat := some top, amount := some refund }
  | none => hand

/-- A single live seat scoops without showdown. -/
def foldOut (hand : Hand) (winner : Nat) : Hand :=
  let total := hand.committed
  let payment : Winner := ⟨winner, total⟩
  { (hand.pay payment).record
      { ev := .win, seat := some winner, amount := some total, showdown := some false } with
    result := some
      { showdown := false
        pots := [⟨total, [winner], [winner]⟩]
        evals := none
        winners := [payment] } }

/-- The pots of a showdown with their winners. -/
def showdownPots (hand : Hand) (live : List Nat) : List Pot :=
  (sidePots hand live).map (awardPot hand)

/-- Every payment of a showdown, pot by pot. -/
def showdownPayments (hand : Hand) (live : List Nat) : List Winner :=
  (hand.showdownPots live).flatMap (potShares hand)

/-- The compared hands, the pots and what every paid seat collected. -/
def showdownResult (hand : Hand) (live : List Nat) : HandResult where
  showdown := true
  pots := hand.showdownPots live
  evals := some (live.map fun index =>
    (index, ⟨shownEval hand index, handName (shownEval hand index)⟩))
  winners := hand.collected (hand.showdownPayments live)

/-- The live hands are compared and every pot is paid. -/
def showdown (hand : Hand) (live : List Nat) : Hand :=
  let result := hand.showdownResult live
  { (hand.payAll (hand.showdownPayments live)).record
      { ev := .showdown, winners := some result.winners } with
    result := some result }

/-- The hand closed to further actions. -/
def close (hand : Hand) : Hand :=
  { hand with phase := .done, toAct := none }

def finish (hand : Hand) : Hand :=
  let live := hand.liveSeats
  let hand := hand.close.refundUncalled
  match live with
  | [winner] => hand.foldOut winner
  | _ => hand.showdown live

end Hand

end Poker
end NostrBbs
