import NostrBbs.Poker.Engine

/-!
# The table's characters

A bot sees what its seat may see, the legal envelope and a random generator, and
returns an action.  The arithmetic is the source's, in doubles and operation for
operation, so that a decision can be evaluated.
-/

namespace NostrBbs
namespace Poker

/-! ## Numbers -/

/-- The greater of two doubles; a number beats what is not one. -/
def fmax (first second : Float) : Float :=
  if first != first then second
  else if second != second then first
  else if first < second then second
  else first

/-- The smaller of two doubles; a number beats what is not one. -/
def fmin (first second : Float) : Float :=
  if first != first then second
  else if second != second then first
  else if second < first then second
  else first

/-- The greatest integer below a double; from `2^52` on doubles are
integers. -/
def floorOf (value : Float) : Float :=
  if value < 4503599627370496.0 && -4503599627370496.0 < value then
    if 0.0 ≤ value then value.toUInt64.toFloat
    else
      let truncated := -((-value).toUInt64.toFloat)
      if value < truncated then truncated - 1.0 else truncated
  else value

/-- Halves round up. -/
def jsRound (value : Float) : Float :=
  let floored := floorOf value
  if value - floored ≥ 0.5 then floored + 1.0 else floored

/-- The next draw as a double below one. -/
def Rng.drawFloat (rng : Rng) : Float × Rng :=
  let (numerator, rng) := rng.draw
  (numerator.toFloat / 4294967296.0, rng)

/-- A number spread by a draw. -/
def jitter (value : Float) (rng : Rng) : Float × Rng :=
  let (drawn, rng) := rng.drawFloat
  (value * (0.92 + drawn * 0.16), rng)

/-! ## Characters -/

/-- A playing style. -/
structure Profile where
  vpip : Float
  aggro : Float
  bluff : Float
  cap : Float

/-- The named profiles. -/
def profiles : List (String × Profile) :=
  [("rock", ⟨0.13, 0.45, 0.03, 0.75⟩),
    ("tag", ⟨0.21, 0.75, 0.09, 0.95⟩),
    ("lag", ⟨0.32, 0.85, 0.16, 1.00⟩),
    ("station", ⟨0.44, 0.22, 0.02, 0.60⟩),
    ("maniac", ⟨0.55, 0.95, 0.24, 1.00⟩)]

/-- The profile of a name; an unknown one plays `tag`. -/
def profile (name : String) : Profile :=
  (profiles.lookup name).getD ⟨0.21, 0.75, 0.09, 0.95⟩

/-! ## Strengths -/

/-- The points of a rank in the Chen formula. -/
def chenPoints (rank : Nat) : Float :=
  match rank with
  | 12 => 10.0
  | 11 => 8.0
  | 10 => 7.0
  | 9 => 6.0
  | _ => (rank.toFloat + 2.0) / 2.0

/-- The Chen formula over two cards, from zero to one. -/
def chen (hole : List Card) : Float :=
  let ranks := sortDesc (hole.map rankOf)
  let suited := 2 ≤ hole.length && suitOf (hole.getD 0 0) == suitOf (hole.getD 1 0)
  let first := ranks.getD 0 0
  let second := ranks.getD 1 0
  let score :=
    if first = second then fmax (chenPoints first * 2.0) 5.0
    else
      let score := chenPoints first
      let score := if suited then score + 2.0 else score
      let gap : Int := (first : Int) - second - 1
      let score :=
        if gap = 1 then score - 1.0
        else if gap = 2 then score - 2.0
        else if gap = 3 then score - 4.0
        else if 4 ≤ gap then score - 5.0
        else score
      if gap ≤ 1 && first ≤ 9 then score + 1.0 else score
  fmax (score / 20.0) 0.0

/-- The first draws of a shuffle of a pool. -/
def drawPool : Nat → Nat → List Card → Rng → List Card × Rng
  | _, 0, pool, rng => (pool, rng)
  | position, draws + 1, pool, rng =>
      let (offset, rng) := rng.below (pool.length - position)
      drawPool (position + 1) draws (swap pool position (position + offset)) rng

/-- The share of a pot that a score wins against others, two cards of the pool
each; nothing when one of them is better. -/
def rolloutShare (mine : Nat) (fullBoard pool : List Card) : Nat → Nat → Float → Float
  | 0, _, tie => 1.0 / tie
  | opponents + 1, position, tie =>
      let theirs := (evaluate ([pool.getD position 0, pool.getD (position + 1) 0] ++
        fullBoard)).score
      if mine < theirs then 0.0
      else rolloutShare mine fullBoard pool opponents (position + 2)
        (if theirs = mine then tie + 1.0 else tie)

/-- The wins of a number of roll-outs against unknown hands. -/
def rollOut (hole board pool : List Card) (opponents : Nat) :
    Nat → Float → Rng → Float × Rng
  | 0, win, rng => (win, rng)
  | rollouts + 1, win, rng =>
      let missing := 5 - board.length
      let (drawn, rng) := drawPool 0 (opponents * 2 + missing) pool rng
      let fullBoard := board ++ drawn.take missing
      let mine := (evaluate (hole ++ fullBoard)).score
      rollOut hole board pool opponents rollouts
        (win + rolloutShare mine fullBoard drawn opponents missing 1.0) rng

/-- The equity of a hand against unknown ones, by roll-outs. -/
def equityMc (hole board : List Card) (opponents : Nat) (rng : Rng) (rollouts : Nat) :
    Float × Rng :=
  let pool := (List.finRange 52).filter fun card => !hole.contains card && !board.contains card
  let (win, rng) := rollOut hole board pool opponents rollouts 0.0 rng
  (win / rollouts.toFloat, rng)

/-! ## Decisions -/

/-- The numbers that a decision reads of a view. -/
structure Spot where
  seat : Nat
  hole : List Card
  board : List Card
  pot : Float
  call : Float
  bb : Float
  stackBb : Float
  opponents : Nat
  streetCommit : Float
  facingRaise : Bool

/-- The spot of a seat at the table. -/
def SeatView.spot (view : SeatView) (legal : Legal) (me : ViewSeat) : Spot where
  seat := view.seat
  hole := view.hole.getD []
  board := view.board
  pot := view.pot.toFloat
  call := legal.callAmount.toFloat
  bb := view.bb.toFloat
  stackBb := me.stack.toFloat / view.bb.toFloat
  opponents := (view.seats.zipIdx.filter fun entry =>
    entry.2 != view.seat && !entry.1.folded && !entry.1.out).length
  streetCommit := me.streetCommit.toFloat
  facingRaise := view.bb.toFloat < view.currentBet.toFloat

namespace Spot

variable (spot : Spot) (legal : Legal) (style : Profile) (rng : Rng)

def does (action : ActionName) (amount : Option Nat) : Action :=
  ⟨spot.seat, action, amount⟩

/-- The share of the pot that a call has to win. -/
def potOdds : Float :=
  if 0.0 < spot.call then spot.call / (spot.pot + spot.call) else 0.0

/-- A total of about a fraction of the pot, within the legal envelope. -/
def raiseTo (fraction : Float) : Nat :=
  let target := jsRound ((spot.pot * fraction + spot.call + spot.streetCommit) / spot.bb) * spot.bb
  (fmax legal.minRaiseTo.toFloat (fmin legal.maxRaiseTo.toFloat target)).toUInt64.toNat

/-- The strength that a short stack goes in with. -/
def shoveAt : Float :=
  if spot.facingRaise then 0.42 else 0.33 - style.vpip * 0.15

/-- A short stack before the flop shoves or folds. -/
def pushFold (strength : Float) : Action :=
  if spot.shoveAt style ≤ strength then
    spot.does (if legal.allows .raise then .raise else .call) (some legal.maxRaiseTo)
  else if legal.allows .check then spot.does .check none
  else if spot.call ≤ spot.bb && 0.2 ≤ strength then spot.does .call none
  else spot.does .fold none

/-- Before the flop, in front of no raise. -/
def openPot (strength : Float) : Action :=
  let openThreshold := 0.30 - style.vpip * 0.35
  -- the draw happens only when the first test fails and the second holds
  let sure := openThreshold + 0.12 ≤ strength
  let maybe := openThreshold ≤ strength
  let (drawn, drawnRng) := rng.drawFloat
  let rng := if !sure && maybe then drawnRng else rng
  if (sure || (maybe && drawn < style.aggro)) && (legal.allows .raise || legal.allows .bet) then
    spot.does (if legal.allows .raise then .raise else .bet) (some (spot.raiseTo legal 1.0))
  else if legal.allows .check then spot.does .check none
  else if (openThreshold - 0.02 ≤ strength || spot.call ≤ spot.bb) &&
      spot.call / (spot.pot + spot.call) < strength * 0.9 then
    spot.does .call none
  else if rng.drawFloat.1 < style.bluff && legal.allows .raise then
    spot.does .raise (some (spot.raiseTo legal 1.0))
  else spot.does .fold none

/-- Before the flop, in front of a raise. -/
def faceRaise (strength : Float) : Action :=
  if 0.62 ≤ strength && legal.allows .raise then
    spot.does .raise (some (spot.raiseTo legal 1.2))
  else if 0.34 ≤ strength && spot.potOdds < strength * 0.8 then spot.does .call none
  else if legal.allows .check then spot.does .check none
  else if rng.drawFloat.1 < style.bluff * 0.5 && legal.allows .raise then
    spot.does .raise (some (spot.raiseTo legal 1.2))
  else spot.does .fold none

/-- The jittered strength of the hole cards. -/
def strength : Float × Rng :=
  jitter (chen spot.hole) rng

def preflop : Action :=
  let (strength, rng) := spot.strength rng
  if spot.stackBb ≤ 10.0 then spot.pushFold legal style strength
  else if !spot.facingRaise then spot.openPot legal style rng strength
  else spot.faceRaise legal style rng strength

def aggressive (fraction : Float) : Action :=
  spot.does (if legal.allows .bet then .bet else .raise) (some (spot.raiseTo legal fraction))

/-- After the flop, with nothing to call. -/
def leadOut (strong monster : Bool) : Action :=
  let (drawn, drawnRng) := rng.drawFloat
  let rng := if strong then drawnRng else rng
  if ((strong && drawn < style.aggro) || monster) &&
      (legal.allows .bet || legal.allows .raise) then
    spot.aggressive legal (if monster then 0.85 else 0.6)
  else if rng.drawFloat.1 < style.bluff && (legal.allows .bet || legal.allows .raise) then
    spot.aggressive legal 0.55
  else spot.does .check none

/-- After the flop, in front of a bet. -/
def faceBet (equity : Float) (strong monster : Bool) : Action :=
  let margin := 0.04 * (1.0 - style.vpip)
  let canPile := monster && legal.allows .raise
  let (drawn, drawnRng) := rng.drawFloat
  let rng := if canPile then drawnRng else rng
  if canPile && drawn < style.aggro * style.cap then
    spot.does .raise (some (spot.raiseTo legal 1.0))
  else if spot.potOdds + margin < equity then
    if strong && legal.allows .raise && rng.drawFloat.1 < style.aggro * 0.4 then
      spot.does .raise (some (spot.raiseTo legal 0.8))
    else spot.does .call none
  else if rng.drawFloat.1 < style.bluff * 0.35 && legal.allows .raise &&
      spot.call < spot.pot * 0.6 then
    spot.does .raise (some (spot.raiseTo legal 0.9))
  else spot.does .fold none

def postflop (rollouts : Nat) : Action :=
  let (equity, rng) := equityMc spot.hole spot.board spot.opponents rng rollouts
  let (equity, rng) := jitter equity rng
  let strong : Bool := 0.5 + 0.12 / (max spot.opponents 1).toFloat < equity
  let monster : Bool := 0.78 < equity
  if spot.call == 0.0 then spot.leadOut legal style rng strong monster
  else spot.faceBet legal style rng equity strong monster

end Spot

def decideRaw (view : SeatView) (legal : Legal) (profileName : String) (rng : Rng)
    (rollouts : Nat) : Action :=
  match view.seats[view.seat]? with
  | none => ⟨view.seat, .fold, none⟩
  | some me =>
      let spot := view.spot legal me
      if spot.hole.length < 2 then spot.does .fold none
      else if view.street = .preflop then spot.preflop legal (profile profileName) rng
      else spot.postflop legal (profile profileName) rng rollouts

/-- The first open action of a list; a bet or raise is the smallest one. -/
def firstOpen (legal : Legal) (seat : Nat) : List ActionName → Action
  | [] => ⟨seat, .fold, none⟩
  | name :: rest =>
      if !legal.allows name then firstOpen legal seat rest
      else if name = .bet ∨ name = .raise then ⟨seat, name, some legal.minRaiseTo⟩
      else ⟨seat, name, none⟩

def decideWith (view : SeatView) (legal : Legal) (profileName : String) (rng : Rng)
    (rollouts : Nat) : Action :=
  let raw := decideRaw view legal profileName rng rollouts
  if legal.allows raw.action then raw
  else
    firstOpen legal view.seat
      (if raw.action = .fold then [.check, .fold] else [.call, .check, .bet, .raise, .fold])

/-- A bot's decision: its choice, or what is open instead. -/
def decide (view : SeatView) (legal : Legal) (profileName : String) (rng : Rng) : Action :=
  decideWith view legal profileName rng 60

end Poker
end NostrBbs
