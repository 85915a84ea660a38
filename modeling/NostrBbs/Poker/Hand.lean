import NostrBbs.Poker.Evaluate

/-!
# The hand state

The data of a Texas hold'em hand as `engine.rs` keeps it, and the operations
that move chips and deal cards within it.  Amounts are natural numbers; a seat
to act of `-1` is `none`.
-/

namespace NostrBbs
namespace Poker

/-- A seat as the engine keeps it. -/
structure Seat where
  name : String
  startStack : Nat
  stack : Nat
  hole : Option (List Card)
  folded : Bool
  allIn : Bool
  out : Bool
  streetCommit : Nat
  handCommit : Nat
  canRaise : Bool
  acted : Bool
deriving DecidableEq, Repr

namespace Seat

/-- What reading a seat beyond the table gives; the source stops there. -/
def absent : Seat where
  name := ""
  startStack := 0
  stack := 0
  hole := none
  folded := true
  allIn := true
  out := true
  streetCommit := 0
  handCommit := 0
  canRaise := false
  acted := true

/-- Dealt in and not folded. -/
def inHand (seat : Seat) : Bool :=
  !seat.out && !seat.folded

/-- In the hand with chips behind. -/
def canAct (seat : Seat) : Bool :=
  seat.inHand && !seat.allIn

/-- Chips moved from the stack to the commitments, at most the whole stack. -/
def commit (seat : Seat) (amount : Nat) : Seat :=
  let put := min amount seat.stack
  { seat with
    stack := seat.stack - put
    streetCommit := seat.streetCommit + put
    handCommit := seat.handCommit + put
    allIn := seat.allIn || decide (seat.stack - put = 0) }

/-- A card dealt face down. -/
def receive (seat : Seat) (card : Card) : Seat :=
  { seat with hole := some (seat.hole.getD [] ++ [card]) }

/-- A seat at the start of a street after the first. -/
def resetStreet (seat : Seat) : Seat :=
  { seat with streetCommit := 0, acted := false, canRaise := true }

end Seat

/-- The streets, in order. -/
inductive Street where
  | preflop | flop | turn | river
deriving DecidableEq, Repr

/-- The street of an index. -/
def streetOf : Nat → Street
  | 0 => .preflop
  | 1 => .flop
  | 2 => .turn
  | _ => .river

/-- The events of the hand log. -/
inductive Ev where
  | deal | ante | sb | bb | fold | check | call | bet | raise
  | street | runout | refund | win | showdown
deriving DecidableEq, Repr

/-- Chips a seat collected. -/
structure Winner where
  seat : Nat
  amount : Nat
deriving DecidableEq, Repr

/-- One entry of the hand log; each event sets its own subset of the fields. -/
structure LogEntry where
  ev : Ev
  seat : Option Nat := none
  amount : Option Nat := none
  raisedTo : Option Nat := none
  street : Option Street := none
  board : Option (List Card) := none
  sb : Option Nat := none
  bb : Option Nat := none
  showdown : Option Bool := none
  winners : Option (List Winner) := none
deriving DecidableEq, Repr

/-- A pot, who could win it and who did. -/
structure Pot where
  amount : Nat
  contenders : List Nat
  winners : List Nat
deriving DecidableEq, Repr

/-- A shown hand: its evaluation and spoken name. -/
structure NamedEval where
  eval : Eval
  name : String
deriving DecidableEq, Repr

/-- How a finished hand came out. -/
structure HandResult where
  showdown : Bool
  pots : List Pot
  evals : Option (List (Nat × NamedEval))
  winners : List Winner
deriving DecidableEq, Repr

/-- Whether the hand is still being played. -/
inductive Phase where
  | act | done
deriving DecidableEq, Repr

/-- The whole hand state. -/
structure Hand where
  n : Nat
  button : Nat
  sb : Nat
  bb : Nat
  ante : Nat
  seedHex : String
  deck : Deck
  deckPos : Nat
  board : List Card
  street : Nat
  seats : List Seat
  currentBet : Nat
  minRaiseSize : Nat
  limit : Bool
  limitCap : Nat
  streetRaises : Nat
  toAct : Option Nat
  phase : Phase
  log : List LogEntry
  result : Option HandResult
  headsUp : Bool
  sbSeat : Nat
  bbSeat : Nat
deriving DecidableEq, Repr

namespace Hand

/-- Whether the hand is still being played. -/
def inPlay (hand : Hand) : Bool :=
  hand.phase == .act

/-- The seat at an index. -/
def seat (hand : Hand) (index : Nat) : Seat :=
  hand.seats.getD index Seat.absent

/-- Every seat once, going round the table. -/
def order (hand : Hand) (start : Nat) : List Nat :=
  (List.range hand.n).map fun offset => (start + offset) % hand.n

def inHand (hand : Hand) (index : Nat) : Bool :=
  (hand.seat index).inHand

def canAct (hand : Hand) (index : Nat) : Bool :=
  (hand.seat index).canAct

/-- The first seat that can act, going round from a seat. -/
def nextActor (hand : Hand) (start : Nat) : Option Nat :=
  (hand.order start).find? hand.canAct

/-- The seats still in the hand. -/
def liveSeats (hand : Hand) : List Nat :=
  (List.range hand.seats.length).filter hand.inHand

/-- One seat replaced. -/
def modifySeat (hand : Hand) (index : Nat) (change : Seat → Seat) : Hand :=
  { hand with seats := hand.seats.modify index change }

/-- An entry added to the log. -/
def record (hand : Hand) (entry : LogEntry) : Hand :=
  { hand with log := hand.log ++ [entry] }

/-- Chips committed by a seat, with a log entry when a reason is given. -/
def commit (hand : Hand) (index amount : Nat) (why : Option Ev) : Hand :=
  let put := min amount (hand.seat index).stack
  let hand := hand.modifySeat index fun seat => seat.commit amount
  match why with
  | some ev => hand.record { ev, seat := some index, amount := some put }
  | none => hand

/-- The next card of the deck; the source stops beyond the last one. -/
def topCard (hand : Hand) : Card :=
  hand.deck.cards.getD hand.deckPos 0

/-- The next card dealt to a seat. -/
def dealTo (hand : Hand) (index : Nat) : Hand :=
  { hand.modifySeat index fun seat => seat.receive hand.topCard with
    deckPos := hand.deckPos + 1 }

/-- The next card dealt to the board. -/
def dealBoard (hand : Hand) : Hand :=
  { hand with board := hand.board ++ [hand.topCard], deckPos := hand.deckPos + 1 }

/-- Three cards on the flop, one on the turn and on the river. -/
def dealStreetCards (hand : Hand) : Hand :=
  if hand.street = 1 then hand.dealBoard.dealBoard.dealBoard else hand.dealBoard

/-- Every chip committed this hand. -/
def committed (hand : Hand) : Nat :=
  (hand.seats.map Seat.handCommit).sum

/-- Every chip behind. -/
def chipsBehind (hand : Hand) : Nat :=
  (hand.seats.map Seat.stack).sum

/-- The chips the seats started the hand with. -/
def startStacks (hand : Hand) : Nat :=
  (hand.seats.map Seat.startStack).sum

end Hand

end Poker
end NostrBbs
