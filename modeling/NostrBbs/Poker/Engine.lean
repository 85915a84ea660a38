import NostrBbs.Poker.Finish

/-!
# The hand engine

Dealing a hand, the actions open to the seat to act, applying an action and
advancing to the next actor, the next street or the end of the hand, and what
one seat may see.
-/

namespace NostrBbs
namespace Poker

namespace Hand

/-! ## Advancing -/

/-- A street begun with its cards dealt. -/
def dealNextStreet (hand : Hand) : Hand :=
  { hand with street := hand.street + 1 }.dealStreetCards

/-- A number of further streets dealt at once. -/
def dealOut : Nat → Hand → Hand
  | 0, hand => hand
  | remaining + 1, hand => dealOut remaining hand.dealNextStreet

/-- The board completed without further betting. -/
def runOut (hand : Hand) : Hand :=
  let hand := dealOut (3 - hand.street) hand
  (hand.record { ev := .runout, board := some hand.board }).finish

/-- The next street with its cards dealt and its betting reset. -/
def enterStreet (hand : Hand) : Hand :=
  let hand :=
    { hand with
      seats := hand.seats.map Seat.resetStreet
      currentBet := 0
      minRaiseSize := hand.bb
      streetRaises := 0 }.dealNextStreet
  hand.record
    { ev := .street, street := some (streetOf hand.street), board := some hand.board }

/-- The first to act on a street after the first. -/
def openStreet (hand : Hand) : Option Nat :=
  match hand.nextActor (hand.button + 1) with
  | none => none
  | some first =>
      if hand.headsUp then
        match hand.liveSeats.find? (· != hand.button) with
        | some nonButton => if hand.canAct nonButton then some nonButton else some first
        | none => some first
      else some first

/-- The turn passed to a seat. -/
def turnTo (hand : Hand) (index : Nat) : Hand :=
  { hand with toAct := some index }

def nextStreet (hand : Hand) : Hand :=
  let hand := hand.enterStreet
  match hand.openStreet with
  | none => hand.runOut
  | some first => hand.turnTo first

/-- The live seats that still have chips behind. -/
def actors (hand : Hand) : List Nat :=
  hand.liveSeats.filter hand.canAct

/-- Every seat that can act has acted and matched the bet. -/
def settled (hand : Hand) : Bool :=
  hand.actors.all fun index =>
    (hand.seat index).acted && (hand.seat index).streetCommit == hand.currentBet

def advance (hand : Hand) : Hand :=
  if hand.liveSeats.length = 1 then hand.finish
  else if !hand.settled then
    match hand.nextActor (hand.toAct.elim 0 (· + 1)) with
    | none => hand.runOut
    | some next => hand.turnTo next
  else if hand.actors.length ≤ 1 then hand.runOut
  else if hand.street = 3 then hand.finish
  else hand.nextStreet

end Hand

/-! ## Dealing -/

/-- A seat in a new hand's configuration. -/
structure SeatConfig where
  name : String
  stack : Nat
deriving DecidableEq, Repr

/-- Everything a new hand needs. -/
structure HandConfig where
  seats : List SeatConfig
  button : Nat
  sb : Nat
  bb : Nat
  ante : Nat
  seedHex : String
  limit : Bool
deriving DecidableEq, Repr

/-- A seat before the deal; a seat without chips sits out. -/
def SeatConfig.seat (config : SeatConfig) : Seat where
  name := config.name
  startStack := config.stack
  stack := config.stack
  hole := none
  folded := false
  allIn := false
  out := config.stack == 0
  streetCommit := 0
  handCommit := 0
  canRaise := true
  acted := false

/-- The table before antes, blinds and cards. -/
def HandConfig.table (config : HandConfig) (deck : Deck) : Hand where
  n := config.seats.length
  button := config.button
  sb := config.sb
  bb := config.bb
  ante := config.ante
  seedHex := config.seedHex
  deck := deck
  deckPos := 0
  board := []
  street := 0
  seats := config.seats.map SeatConfig.seat
  currentBet := 0
  minRaiseSize := config.bb
  limit := config.limit
  limitCap := 4
  streetRaises := if config.limit then 1 else 0
  toAct := none
  phase := .act
  log := []
  result := none
  headsUp := false
  sbSeat := 0
  bbSeat := 0

namespace Hand

/-- Every seat dealt in posts the ante. -/
def postAntes (hand : Hand) (live : List Nat) : Hand :=
  if 0 < hand.ante then
    live.foldl (fun hand index => hand.commit index hand.ante (some .ante)) hand
  else hand

/-- The blinds posted and the bet to match set. -/
def postBlinds (hand : Hand) (sbSeat bbSeat : Nat) : Hand :=
  let hand := (hand.commit sbSeat hand.sb (some .sb)).commit bbSeat hand.bb (some .bb)
  { hand with
    currentBet := (hand.seats.map Seat.streetCommit).foldl max 0
    minRaiseSize := hand.bb }

/-- One card to every seat dealt in, from the left of the button. -/
def dealRound (hand : Hand) : Hand :=
  (hand.order (hand.button + 1)).foldl
    (fun hand index => if (hand.seat index).out then hand else hand.dealTo index) hand

/-- The seats of the blinds, from the live seats left of the button. -/
def blindSeats (live : List Nat) (button : Nat) : Nat × Nat :=
  let first := live.getD 0 0
  let second := live.getD 1 0
  if live.length = 2 then (button, (live.find? (· != button)).getD second)
  else (first, second)

/-- The first to act before the flop. -/
def openHand (hand : Hand) (headsUp : Bool) (sbSeat bbSeat : Nat) : Hand :=
  { hand with
    toAct := if headsUp then some sbSeat else hand.nextActor (bbSeat + 1)
    headsUp
    sbSeat
    bbSeat }.record { ev := .deal, sb := some sbSeat, bb := some bbSeat }

end Hand

/-- The seats with chips, from the left of the button. -/
def Hand.dealtIn (hand : Hand) : List Nat :=
  (hand.order (hand.button + 1)).filter fun index => !(hand.seat index).out

/-- The seats of the small and the big blind. -/
def HandConfig.blinds (config : HandConfig) (deck : Deck) : Nat × Nat :=
  Hand.blindSeats (config.table deck).dealtIn config.button

/-- The table with antes and blinds posted. -/
def HandConfig.posted (config : HandConfig) (deck : Deck) : Hand :=
  ((config.table deck).postAntes (config.table deck).dealtIn).postBlinds
    (config.blinds deck).1 (config.blinds deck).2

/-- Two cards dealt to every seat with chips and the first to act named. -/
def HandConfig.dealt (config : HandConfig) (deck : Deck) : Hand :=
  (config.posted deck).dealRound.dealRound.openHand
    ((config.table deck).dealtIn.length = 2) (config.blinds deck).1 (config.blinds deck).2

/-- Deal a hand from the shuffle of its seed. -/
def newHand (config : HandConfig) : Except EngineError Hand :=
  match shuffledDeck config.seedHex with
  | .error refusal => .error refusal
  | .ok deck =>
      if (config.table deck).dealtIn.length < 2 then .error ⟨"need two players"⟩
      else
        let hand := config.dealt deck
        -- the blinds may have put everyone all-in before any action
        if hand.actors.length = 0 then .ok hand.runOut else .ok hand

/-! ## Acting -/

/-- The action names the engine knows. -/
def knownActions : List String :=
  ["fold", "check", "call", "bet", "raise"]

/-- The name of an action; any other text is never legal. -/
inductive ActionName where
  | fold | check | call | bet | raise
  | other (text : String) (unknown : text ∉ knownActions)
deriving DecidableEq

def ActionName.text : ActionName → String
  | .fold => "fold"
  | .check => "check"
  | .call => "call"
  | .bet => "bet"
  | .raise => "raise"
  | .other text _ => text

/-- An action message: what a seat does, and the total a bet or raise goes
to. -/
structure Action where
  seat : Nat
  action : ActionName
  amount : Option Nat
deriving DecidableEq

/-- The actions open to the seat to act. -/
structure Legal where
  seat : Nat
  actions : List ActionName
  callAmount : Nat
  minRaiseTo : Nat
  maxRaiseTo : Nat
  currentBet : Nat
deriving DecidableEq

/-- Whether an action is open. -/
def Legal.allows (legal : Legal) (action : ActionName) : Bool :=
  legal.actions.contains action

/-- Every total a seat can reach on this street. -/
def Seat.allChips (seat : Seat) : Nat :=
  seat.streetCommit + seat.stack

/-- Raising takes more chips than the bet, an open seat and, in fixed-limit, a
street that is not capped. -/
def Hand.mayRaise (hand : Hand) (index : Nat) : Bool :=
  hand.currentBet < (hand.seat index).allChips && (hand.seat index).canRaise &&
    !(hand.limit && hand.limitCap ≤ hand.streetRaises)

/-- The legal envelope of a seat; in fixed-limit the raise total is one
number. -/
def legalFor (hand : Hand) (index : Nat) : Legal :=
  let seat := hand.seat index
  let callAmount := min (hand.currentBet - seat.streetCommit) seat.stack
  let betSize := if hand.street ≤ 1 then hand.bb else hand.bb * 2
  let mayRaise := hand.mayRaise index
  let minTo :=
    if hand.limit then min (hand.currentBet + betSize) seat.allChips
    else hand.currentBet + hand.minRaiseSize
  let maxTo := if hand.limit && mayRaise then minTo else seat.allChips
  { seat := index
    actions :=
      [.fold, if callAmount = 0 then .check else .call] ++
        if mayRaise then [if hand.currentBet = 0 then .bet else .raise] else []
    callAmount
    -- all-in for less than a min-raise
    minRaiseTo := if mayRaise && maxTo < minTo then maxTo else minTo
    maxRaiseTo := maxTo
    currentBet := hand.currentBet }

/-- The legal envelope for the seat to act, `none` once the hand is over. -/
def legal (hand : Hand) : Option Legal :=
  if hand.inPlay then hand.toAct.map (legalFor hand) else none

namespace Hand

/-- The chips of a bet or raise put in and the bet to match set. -/
def putIn (hand : Hand) (index amount : Nat) : Hand :=
  let ev := if hand.currentBet = 0 then Ev.bet else Ev.raise
  { (hand.commit index (amount - (hand.seat index).streetCommit) none).record
      { ev, seat := some index, raisedTo := some amount } with
    streetRaises := hand.streetRaises + 1
    currentBet := amount }

/-- After a full raise the other seats may act and raise again. -/
def reopen (hand : Hand) (raiser raiseSize : Nat) : Hand :=
  { hand with
    minRaiseSize := raiseSize
    seats := hand.seats.mapIdx fun index seat =>
      if index ≠ raiser then { seat with canRaise := true, acted := false } else seat }

/-- Seats that already acted may call an under-raise but not raise it. -/
def closeRaising (hand : Hand) (raiser : Nat) : Hand :=
  { hand with
    seats := hand.seats.mapIdx fun index seat =>
      if index ≠ raiser ∧ seat.acted then { seat with canRaise := false } else seat }

/-- A bet or raise to a total within the legal envelope. -/
def raiseTo (hand : Hand) (index amount : Nat) : Hand :=
  let raiseSize := amount - hand.currentBet
  let raised := hand.putIn index amount
  if hand.minRaiseSize ≤ raiseSize then raised.reopen index raiseSize
  else raised.closeRaising index

/-- The acting seat marked as having acted on this street. -/
def markActed (hand : Hand) (index : Nat) : Hand :=
  hand.modifySeat index fun seat => { seat with acted := true }

/-- A fold, check or call, recorded. -/
def foldSeat (hand : Hand) (index : Nat) : Hand :=
  (hand.modifySeat index fun seat => { seat with folded := true }).record
    { ev := .fold, seat := some index }

def checkSeat (hand : Hand) (index : Nat) : Hand :=
  hand.record { ev := .check, seat := some index }

def callSeat (hand : Hand) (index amount : Nat) : Hand :=
  (hand.commit index amount none).record
    { ev := .call, seat := some index, amount := some amount }

end Hand

/-- A bet or raise total checked against the envelope. -/
def raiseAmount (legal : Legal) (amount : Option Nat) : Except EngineError Nat :=
  match amount with
  | some total =>
      if legal.minRaiseTo ≤ total ∧ total ≤ legal.maxRaiseTo then .ok total
      else .error
        ⟨s!"raise to {total} outside [{legal.minRaiseTo}, {legal.maxRaiseTo}]"⟩
  | none =>
      .error ⟨s!"raise to undefined outside [{legal.minRaiseTo}, {legal.maxRaiseTo}]"⟩

/-- What an open action does before the hand advances. -/
def applyAction (hand : Hand) (legal : Legal) (action : Action) :
    Except EngineError Hand :=
  match action.action with
  | .fold => .ok (hand.foldSeat action.seat)
  | .check => .ok (hand.checkSeat action.seat)
  | .call => .ok (hand.callSeat action.seat legal.callAmount)
  | _ => (raiseAmount legal action.amount).map (hand.raiseTo action.seat)

/-- Apply an action, giving the advanced hand. -/
def act (hand : Hand) (action : Action) : Except EngineError Hand :=
  if !hand.inPlay then .error ⟨"hand is over"⟩
  else if hand.toAct ≠ some action.seat then
    .error ⟨s!"not seat {action.seat}'s turn"⟩
  else
    match legal hand with
    | none => .error ⟨"hand is over"⟩
    | some legal =>
        if !legal.allows action.action then
          let name := action.action.text
          let names := ",".intercalate (legal.actions.map ActionName.text)
          .error ⟨s!"illegal {name} (legal: {names})"⟩
        else
          (applyAction hand legal action).map fun hand =>
            (hand.markActed action.seat).advance

/-- One action of a run; a refused action leaves the hand as it was. -/
def step (hand : Hand) (action : Action) : Hand :=
  match act hand action with
  | .ok next => next
  | .error _ => hand

/-! ## Viewing -/

/-- A seat as another seat may see it. -/
structure ViewSeat where
  name : String
  stack : Nat
  folded : Bool
  allIn : Bool
  out : Bool
  streetCommit : Nat
  handCommit : Nat
  hole : Option (List Card)
deriving DecidableEq, Repr

/-- What one seat may see of a hand. -/
structure SeatView where
  seat : Nat
  street : Street
  board : List Card
  phase : Phase
  toAct : Option Nat
  currentBet : Nat
  minRaiseTo : Option Nat
  button : Nat
  sb : Nat
  bb : Nat
  hole : Option (List Card)
  pot : Nat
  seats : List ViewSeat
  result : Option HandResult
deriving DecidableEq, Repr

/-- A seat's cards are seen by itself, and by all once they were shown down. -/
def Hand.shown (hand : Hand) (viewer index : Nat) (seat : Seat) : Bool :=
  index == viewer ||
    (!hand.inPlay && hand.result.any HandResult.showdown && !seat.folded && !seat.out)

/-- What a seat may see of the hand. -/
def seatView (hand : Hand) (viewer : Nat) : SeatView where
  seat := viewer
  street := streetOf hand.street
  board := hand.board
  phase := hand.phase
  toAct := hand.toAct
  currentBet := hand.currentBet
  minRaiseTo :=
    if hand.inPlay && hand.toAct == some viewer then (legal hand).map Legal.minRaiseTo else none
  button := hand.button
  sb := hand.sb
  bb := hand.bb
  hole := hand.seats[viewer]?.bind Seat.hole
  pot := hand.committed
  seats := hand.seats.mapIdx fun index seat =>
    { name := seat.name
      stack := seat.stack
      folded := seat.folded
      allIn := seat.allIn
      out := seat.out
      streetCommit := seat.streetCommit
      handCommit := seat.handCommit
      hole := if hand.shown viewer index seat then seat.hole else none }
  result := if hand.inPlay then none else hand.result

end Poker
end NostrBbs
