import NostrBbs.Poker.Bots
import NostrBbs.Poker.Engine

/-!
# Hand records and their replay

The document that a finished hand leaves: what a verifier needs, and none of the entries
that a replay derives again.  A verifier checks the commitment and the seed, deals from the
seed with the record's own seats and stakes, applies the record's actions one by one,
compares each action of the house with the bot's decision, and compares what the replay
leaves with the record.
-/

namespace NostrBbs
namespace Poker

/-! ## Hand records -/

/-- What a seat did. -/
inductive Act where
  | fold | check | call | bet | raise
deriving DecidableEq, Repr

/-- A street that a marker names. -/
inductive BoardStreet where
  | flop | turn | river
deriving DecidableEq, Repr

/-- One entry of a record's action log. -/
inductive HandAction where
  | act (seat : Nat) (act : Act) (raisedTo amount : Option Nat)
  | street (street : BoardStreet)
deriving DecidableEq, Repr

/-- One seat of a record; the agent marker is carried verbatim. -/
structure HandSeat where
  name : String
  startStack : Nat
  hole : Option (List String)
  agent : Option String
deriving DecidableEq, Repr

inductive Variant where
  | holdemLimit | holdemNoLimit
deriving DecidableEq, Repr

/-- How the chips moved. -/
structure RecordResult where
  showdown : Bool
  pot : Nat
  winners : List Winner
deriving DecidableEq, Repr

/-- The record of a hand. -/
structure HandRecord where
  context : Option String
  kind : String
  v : Nat
  variant : Variant
  seed : String
  sb : Nat
  bb : Nat
  ante : Nat
  button : Nat
  seats : List HandSeat
  board : List String
  actions : List HandAction
  result : RecordResult
deriving DecidableEq, Repr

def recordContext : String :=
  "https://librepoker.org/context.jsonld"

/-- The street that a log names; none is named before the flop. -/
def Street.marked : Street → Option BoardStreet
  | .preflop => none
  | .flop => some .flop
  | .turn => some .turn
  | .river => some .river

/-- What a record keeps of a log entry. -/
def LogEntry.handAction (entry : LogEntry) : Option HandAction :=
  let acted (act : Act) : Option HandAction :=
    some (.act (entry.seat.getD 0) act entry.raisedTo entry.amount)
  match entry.ev with
  | .fold => acted .fold
  | .check => acted .check
  | .call => acted .call
  | .bet => acted .bet
  | .raise => acted .raise
  | .street => (entry.street.bind Street.marked).map .street
  | _ => none

/-- What a record keeps of a seat, under another name when one is given. -/
def Seat.record (seat : Seat) (name : Option String) : HandSeat where
  name := name.getD seat.name
  startStack := seat.startStack
  hole := seat.hole.map fun cards => cards.map cardCode
  agent := none

/-- The record of a finished hand, under other names when they are given. -/
def recordOf (hand : Hand) (names : Option (List String)) : Option HandRecord :=
  hand.result.map fun result =>
    { context := some recordContext
      kind := "Hand"
      v := 0
      variant := if hand.limit then .holdemLimit else .holdemNoLimit
      seed := hand.seedHex
      sb := hand.sb
      bb := hand.bb
      ante := hand.ante
      button := hand.button
      seats := hand.seats.mapIdx fun index seat =>
        seat.record (names.bind fun names => names[index]?)
      board := hand.board.map cardCode
      actions := hand.log.filterMap LogEntry.handAction
      result :=
        { showdown := result.showdown
          pot := (result.pots.map Pot.amount).sum
          winners := result.winners } }

/-! ## Replay verification -/

section

/-! ## The fair deal -/

/-- Sixty-four lowercase hexadecimal characters. -/
def isHex64 (text : String) : Bool :=
  text.toList.length == 64 &&
    text.toList.all fun char => ('0' ≤ char && char ≤ '9') || ('a' ≤ char && char ≤ 'f')

/-- A digest of texts, in lowercase hexadecimal. -/
structure Digest where
  hash : String → String
  isHex : ∀ text, isHex64 (hash text)

namespace Digest

variable (digest : Digest)

def commit (secret : String) : String :=
  digest.hash secret

/-- A revealed secret matches its commitment. -/
def checkCommit (secret commitment : String) : Bool :=
  isHex64 secret && digest.commit secret == commitment

/-- The shuffle seed that the dealer's secret and the players' nonces fix. -/
def seedOfMany (secret : String) (nonces : List String) : String :=
  digest.hash (String.join (secret :: nonces))

/-- The seed of a bot's decision after so many log entries. -/
def botSeed (seed : String) (step : Nat) : String :=
  digest.hash s!"{seed}:bot:{step}"

/-- A digest given by some of its values; every other text has the zero digest. -/
def ofTable
    (values : List (String × String))
    (areHex : ∀ entry ∈ values, isHex64 entry.2) : Digest where
  hash text := ((values.find? fun entry => entry.1 == text).map Prod.snd).getD
    "0000000000000000000000000000000000000000000000000000000000000000"
  isHex text := by
    cases found : values.find? fun entry => entry.1 == text with
    | none => decide
    | some entry => exact areHex entry (List.mem_of_find?_eq_some found)

end Digest

/-! ## Engines -/

/-- An engine that a verifier replays with. -/
structure Engine where
  newHand : HandConfig → Except String Hand
  act : Hand → Action → Except String Hand
  botDecide : Hand → Nat → String → String → Except String Action

/-- The decision of a bot for a seat under a seed. -/
def botDecide (hand : Hand) (seat : Nat) (profileName seedHex : String) : Except String Action :=
  match legal hand with
  | none => .error "hand is over"
  | some envelope =>
      match Rng.fromSeed seedHex with
      | .error refusal => .error refusal.message
      | .ok rng => .ok (decide (seatView hand seat) envelope profileName rng)

/-- The engine of the crate. -/
def rustEngine : Engine where
  newHand config := (newHand config).mapError EngineError.message
  act hand action := (act hand action).mapError EngineError.message
  botDecide := botDecide

/-! ## Verification -/

/-- What a verifier is given. -/
structure Claim where
  commit : String
  secret : String
  nonces : List String
  seed : String
  record : HandRecord
  houseSeat : Option Nat
  profile : String

/-- Why a hand does not verify. -/
inductive VerifyError where
  | commitment
  | seed
  | recordSeed
  | engine (why : String)
  | action (index : Nat) (why : String)
  | housePlay (index : Nat) (played expected : String)
  | unfinished
  | mismatch (part : String)
deriving DecidableEq, Repr

/-- An action in words. -/
def Action.describe (action : Action) : String :=
  let name := action.action.text
  match action.amount with
  | some amount => s!"{name} {amount}"
  | none => name

/-- The hand that a record says was dealt. -/
def HandRecord.config (record : HandRecord) : HandConfig where
  seats := record.seats.map fun seat => ⟨seat.name, seat.startStack⟩
  button := record.button
  sb := record.sb
  bb := record.bb
  ante := record.ante
  seedHex := record.seed
  limit := record.variant == .holdemLimit

def BoardStreet.index : BoardStreet → Nat
  | .flop => 1
  | .turn => 2
  | .river => 3

def BoardStreet.text : BoardStreet → String
  | .flop => "Flop"
  | .turn => "Turn"
  | .river => "River"

def Act.name : Act → ActionName
  | .fold => .fold
  | .check => .check
  | .call => .call
  | .bet => .bet
  | .raise => .raise

/-- The action that an entry records; only a bet or a raise has an amount. -/
def Act.action (act : Act) (seat : Nat) (raisedTo : Option Nat) : Action where
  seat := seat
  action := act.name
  amount := if act = .bet ∨ act = .raise then raisedTo else none

section

variable (digest : Digest) (engine : Engine) (claim : Claim)

/-- The house's action is the bot's decision. -/
def checkHouse (index : Nat) (hand : Hand) (action : Action) : Except VerifyError Unit :=
  if some action.seat = claim.houseSeat then
    match engine.botDecide hand action.seat claim.profile
        (digest.botSeed claim.seed hand.log.length) with
    | .error why => .error (.engine why)
    | .ok expected =>
        if expected ≠ action then .error (.housePlay index action.describe expected.describe)
        else .ok ()
  else .ok ()

/-- One entry replayed: the hand after it and the street that the markers have
reached. -/
def replayEntry (index : Nat) (hand : Hand) (expectedStreet : Nat) :
    HandAction → Except VerifyError (Hand × Nat)
  | .street street =>
      let name := street.text
      if hand.street < street.index ∨ street.index ≠ expectedStreet + 1 then
        .error (.action index s!"street marker {name} does not fall where the replay dealt it")
      else .ok (hand, street.index)
  | .act seat act raisedTo _ =>
      if !hand.inPlay then .error (.action index "the hand is already over")
      else if hand.street ≠ expectedStreet then
        .error (.action index "a street was dealt without its marker")
      else
        let action := act.action seat raisedTo
        match checkHouse digest engine claim index hand action with
        | .error refusal => .error refusal
        | .ok () =>
            match engine.act hand action with
            | .error why => .error (.action index why)
            | .ok next => .ok (next, expectedStreet)

/-- The entries of a record replayed in order. -/
def replay : Nat → List HandAction → Hand → Nat → Except VerifyError Hand
  | _, [], hand, _ => .ok hand
  | index, entry :: entries, hand, expectedStreet =>
      match replayEntry digest engine claim index hand expectedStreet entry with
      | .error refusal => .error refusal
      | .ok (next, reached) => replay (index + 1) entries next reached

/-- A record without the names of its seats. -/
def HandRecord.strip (record : HandRecord) : HandRecord :=
  { record with
    context := none
    seats := record.seats.map fun seat => { seat with name := "" } }

/-- The first part in which a replay differs from a record. -/
def compareRecords (replayed record : HandRecord) : Except VerifyError Unit :=
  if replayed.seats ≠ record.seats then .error (.mismatch "hole cards or start stacks")
  else if replayed.board ≠ record.board then .error (.mismatch "board")
  else if replayed.result ≠ record.result then .error (.mismatch "result")
  else if replayed.actions ≠ record.actions then .error (.mismatch "actions")
  else .ok ()

/-- A hand is verified; the replayed hand is returned. -/
def verify : Except VerifyError Hand :=
  if !digest.checkCommit claim.secret claim.commit then .error .commitment
  else if digest.seedOfMany claim.secret claim.nonces ≠ claim.seed then .error .seed
  else if claim.record.seed ≠ claim.seed then .error .recordSeed
  else
    match engine.newHand claim.record.config with
    | .error why => .error (.engine why)
    | .ok dealt =>
        match replay digest engine claim 0 claim.record.actions dealt 0 with
        | .error refusal => .error refusal
        | .ok final =>
            if final.inPlay then .error .unfinished
            else
              match recordOf final none with
              | none => .error .unfinished
              | some replayed =>
                  match compareRecords replayed.strip claim.record.strip with
                  | .error refusal => .error refusal
                  | .ok () => .ok final

end

end

end Poker
end NostrBbs
