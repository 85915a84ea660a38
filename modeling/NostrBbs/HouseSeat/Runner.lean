import NostrBbs.Governance.Broker
import NostrBbs.HouseSeat.Table

/-!
# The runner

The process that joins the house seat to the relay, the chain's producer and the clock.
It carries out the effects of the house seat one after another, keeps the coins of its
own transfers back until the chain shows them, and saves the book in a file.  The
process can stop before any effect; a new one starts from the saved book.
-/

namespace NostrBbs
namespace HouseSeat

open Poker (isHex64)

/-! ## The chain -/

/-- An output of a transaction. -/
structure OutPoint where
  txid : String
  vout : Nat
deriving DecidableEq, Repr

/-- A coin of the house, with what it carries of the table's asset. -/
structure Coin where
  outpoint : OutPoint
  units : Nat
deriving DecidableEq, Repr

/-- What a scan of the chain leaves: the house's coins at the tip, what a member
holds, the transfers for hands and the transactions shown. -/
structure Facts where
  coins : List Coin
  unitsOf : String → Nat
  handPayments : HandPayments
  txids : List String

/-- Units of the house, less coins held back. -/
def Facts.houseUnits (facts : Facts) (held : List OutPoint) : Nat :=
  ((facts.coins.filter fun coin => !held.contains coin.outpoint).map Coin.units).sum

/-- The script that a key's coins pay. -/
def scriptOf (pubkey : String) : Option String :=
  let trimmed :=
    ((pubkey.toList.dropWhile Governance.isWhitespace).reverse.dropWhile
      Governance.isWhitespace).reverse
  let key := String.ofList (Relay.asciiLower (String.ofList trimmed))
  if isHex64 key then some ("5120" ++ key) else none

/-- The memo that a settlement carries. -/
def handMemo (root : String) : String :=
  "hand:" ++ root

/-- What the transfer builder is asked for. -/
structure TransferRequest where
  coins : List Coin
  recipient : String
  amount : Nat
  memo : String

/-- A signed transaction with the coins it spends. -/
structure Spend where
  txid : String
  inputs : List OutPoint
deriving DecidableEq, Repr

/-- The transfer builder: it selects coins, checks the transfer and signs it. -/
abbrev BuildTransfer := Facts → TransferRequest → Except String Spend

/-- What the producer makes of a transfer that is posted: it accepts it, refuses it, is
not reached, or accepts it while the house hears an error. -/
inductive Reply where
  | accepted
  | refused (why : String)
  | unreached (why : String)
  | lost (why : String)
deriving DecidableEq, Repr

/-- What the house hears of a post. -/
def Reply.heard : Reply → Except String Unit
  | accepted => .ok ()
  | refused why => .error s!"the producer refused: {why}"
  | unreached why => .error s!"producer: {why}"
  | lost why => .error why

/-- The producer has accepted the transfer. -/
def Reply.takes : Reply → Bool
  | accepted => true
  | lost _ => true
  | refused _ => false
  | unreached _ => false

/-! ## The process -/

/-- A transfer that the producer accepted and the chain has not shown: its coins are
held back. -/
structure Held where
  txid : String
  outpoints : List OutPoint
  heldAt : Nat

/-- Held coins are released after this long, in seconds. -/
def heldTtl : Nat := 30 * 60

/-- A failed payout is retried after this long, in seconds. -/
def payRetrySecs : Nat := 120

/-- The process; `queue` are the effects it has still to carry out. -/
structure Runner where
  citizen : Citizen
  facts : Option Facts
  scannedTip : Option String
  held : List Held
  botTurns : List String
  queue : List Effect

/-- A transfer that the producer accepted for a hand. -/
structure Transfer where
  root : String
  amount : Nat
  spend : Spend
deriving DecidableEq, Repr

namespace Runner

variable (setting : Setting) (buildTransfer : BuildTransfer) (runner : Runner)

/-- A process that starts from a saved book. -/
def start (ledger : Ledger) (drawn : Nat) : Runner :=
  ⟨{ Citizen.new ledger with drawn }, none, none, [], [], []⟩

def heldOutpoints : List OutPoint :=
  runner.held.flatMap Held.outpoints

/-- The chain is scanned again unless its tip is the one already scanned. -/
def refreshChain (tip : Option String) (scanned : Except String Facts) (now : Nat) : Runner :=
  if runner.facts.isSome && tip.isSome && tip == runner.scannedTip then runner
  else
    match scanned with
    | .error _ => runner
    | .ok facts =>
        { runner with
          held := runner.held.filter fun held =>
            !facts.txids.contains held.txid && now - held.heldAt < heldTtl
          facts := some facts
          scannedTip := tip }

def balancesFor (member : String) : Balances :=
  match runner.facts with
  | none => ⟨0, 0⟩
  | some facts => ⟨facts.unitsOf member, facts.houseUnits runner.heldOutpoints⟩

/-- The house's transfer for a hand, from its coins less those held back. -/
def buildPayment (facts : Facts) (hero : String) (amount : Nat) (root : String) :
    Except String Spend :=
  match scriptOf hero with
  | none => .error "the member's pubkey is not 64 hex characters"
  | some recipient =>
      if recipient = setting.house.scriptHex then .error "the house would pay itself"
      else
        buildTransfer facts
          { coins := facts.coins.filter fun coin => !runner.heldOutpoints.contains coin.outpoint
            recipient
            amount
            memo := handMemo root }

/-- The transfer that a payment posts, if it comes to that. -/
def payment (hero root : String) (amount : Nat) : Except String Spend :=
  match runner.facts with
  | none => .error "the chain is not loaded"
  | some facts => runner.buildPayment setting buildTransfer facts hero amount root

/-- A payment that failed stays owed. -/
def payFailed (root why : String) (now : Nat) : Runner × List Effect :=
  let (citizen, effects) := runner.citizen.housePayFailed root why now
  ({ runner with citizen }, effects)

/-- A settlement is paid; the effects that follow are for the front of the queue. -/
def pay (hero root : String) (amount : Nat) (reply : Reply) (now : Nat) :
    Runner × List Effect :=
  match runner.payment setting buildTransfer hero root amount with
  | .error why => runner.payFailed root why now
  | .ok spend =>
      match reply.heard with
      | .error why => runner.payFailed root why now
      | .ok _ =>
          let (citizen, effects) := runner.citizen.housePaid hero root spend.txid now
          ({ runner with citizen, held := runner.held ++ [⟨spend.txid, spend.inputs, now⟩] },
            effects)

/-- A message from a member. -/
def onEvent (member : String) (message : ToCitizen) (now : Nat) : Runner :=
  let (citizen, effects) :=
    runner.citizen.handle setting member message now (runner.balancesFor member)
  { runner with citizen, queue := effects }

/-- The next of the house's turns comes up. -/
def onBotTurn (now : Nat) : Runner :=
  match runner.botTurns with
  | [] => runner
  | commit :: botTurns =>
      let (citizen, effects) := runner.citizen.botTurn setting commit now
      { runner with citizen, botTurns, queue := effects }

/-- The chain is read, the table's time passes, and what is due is paid. -/
def onPoll (tip : Option String) (scanned : Except String Facts) (scannedAt now : Nat) : Runner :=
  let runner := runner.refreshChain tip scanned scannedAt
  let (ticked, lapsed) := runner.citizen.tick setting now
  let (citizen, seen) :=
    match runner.facts with
    | none => (ticked, [])
    | some facts => ticked.paymentsSeen facts.handPayments
  { runner with
    citizen
    queue := lapsed ++ seen ++ citizen.payable setting now payRetrySecs }

end Runner

/-! ## The process in the world -/

/-- The process, what outlives it, and what is watched beside it: the debts that the
house ever put in its book. -/
structure World where
  runner : Runner
  saved : Ledger
  accepted : List Transfer
  booked : List Owing

/-- What happens to the process.  It waits for nothing while it has effects to carry
out, and can be stopped and started at any time. -/
inductive Happening where
  | message (member : String) (message : ToCitizen) (now : Nat)
  | botTurn (now : Nat)
  | poll (tip : Option String) (scanned : Except String Facts) (scannedAt now : Nat)
  | effect (reply : Reply) (written : Bool) (now : Nat)
  | restart (tip : Option String) (scanned : Except String Facts) (written : Bool) (now : Nat)

namespace World

variable (setting : Setting) (buildTransfer : BuildTransfer) (world : World)

/-- A first process, started from a book. -/
def begin (ledger : Ledger) : World :=
  ⟨.start ledger 0, ledger, [], ledger.owing⟩

/-- The book as the process has it. -/
def book : Ledger :=
  world.runner.citizen.ledger

/-- A transfer that the producer accepted; one it has is not another. -/
def accept (transfer : Transfer) : World :=
  if world.accepted.any fun other => other.spend.txid == transfer.spend.txid then world
  else { world with accepted := world.accepted ++ [transfer] }

/-- The book is saved, when the file can be written. -/
def persist (written : Bool) : World :=
  if written then { world with saved := world.book } else world

/-- The process goes on to what the house seat left; the debts that were put in the book
are watched. -/
def played (runner : Runner) : World :=
  { world with
    runner
    booked := world.booked ++ runner.citizen.ledger.owing.drop world.book.owing.length }

/-- The transfer that the next effect posts, if it posts one. -/
def posts : Option Transfer :=
  match world.runner.queue with
  | .pay hero root amount :: _ =>
      (world.runner.payment setting buildTransfer hero root amount).toOption.map fun spend =>
        ⟨root, amount, spend⟩
  | _ => none

/-- The next effect is carried out. -/
def carryOut (reply : Reply) (written : Bool) (now : Nat) : World :=
  match world.runner.queue with
  | [] => world
  | effect :: queue =>
      let rest := { world with runner := { world.runner with queue } }
      match effect with
      | .send _ _ => rest
      | .botTurn commit =>
          { rest with
            runner := { rest.runner with botTurns := rest.runner.botTurns ++ [commit] } }
      | .persist => rest.persist written
      | .pay hero root amount =>
          let taken :=
            match world.posts setting buildTransfer with
            | some transfer => if reply.takes then rest.accept transfer else rest
            | none => rest
          let (runner, follow) := rest.runner.pay setting buildTransfer hero root amount reply now
          { taken with runner := { runner with queue := follow ++ queue } }

/-- A new process reads the saved book and the chain, and saves the book. -/
def restart (tip : Option String) (scanned : Except String Facts) (written : Bool) (now : Nat) :
    World :=
  let started := Runner.start world.saved world.runner.citizen.drawn
  { world with runner := started.refreshChain tip scanned now }.persist written

def step (happening : Happening) : World :=
  match happening with
  | .effect reply written now => world.carryOut setting buildTransfer reply written now
  | .restart tip scanned written now => world.restart tip scanned written now
  | .message member message now =>
      if world.runner.queue.isEmpty then world.played (world.runner.onEvent setting member message now)
      else world
  | .botTurn now =>
      if world.runner.queue.isEmpty then world.played (world.runner.onBotTurn setting now)
      else world
  | .poll tip scanned scannedAt now =>
      if world.runner.queue.isEmpty then
        { world with runner := world.runner.onPoll setting tip scanned scannedAt now }
      else world

end World

end HouseSeat
end NostrBbs
