import Mathlib
import NostrBbs.Lib.Table

/-!
# Stakes, settlements and the house's book

What a table is played for, what a finished hand owes, and the book of the house:
what members owe, what the house owes, what it paid out by day, and the settled
hands.
-/

namespace NostrBbs
namespace HouseSeat

/-! ## Stakes -/

/-- One table size. -/
structure Stakes where
  bb : Nat
  sb : Nat
  buyin : Nat
  label : String
deriving DecidableEq, Repr

/-- The stakes of an even big blind; the buy-in is a machine word. -/
def stakesOf (bb buyinBb : Nat) : Option Stakes :=
  if bb = 0 ∨ bb % 2 ≠ 0 ∨ buyinBb = 0 then none
  else if 2 ^ 64 ≤ buyinBb * bb then none
  else
    let sb := bb / 2
    some ⟨bb, sb, buyinBb * bb, s!"{sb}/{bb}"⟩

/-- The stakes of every big blind once, without those that are refused. -/
def stakesTable (stakesBb : List Nat) (buyinBb : Nat) : List Stakes :=
  stakesBb.foldl
    (fun table bb =>
      if table.any fun stakes => stakes.bb == bb then table
      else
        match stakesOf bb buyinBb with
        | some stakes => table ++ [stakes]
        | none => table)
    []

/-! ## Settlements -/

/-- A seat at a heads-up table. -/
inductive Side where
  | hero | citizen
deriving DecidableEq, Repr

/-- One transfer from the loser to the winner. -/
structure Settlement where
  payer : Side
  payee : Side
  amount : Nat
deriving DecidableEq, Repr

/-- Why a hand cannot be settled. -/
inductive SettlementError where
  | handNotOver
  | badStakes (why : String)
  | exceedsBuyin (delta : Int) (buyin : Nat)
deriving DecidableEq, Repr

def SettlementError.message : SettlementError → String
  | .handNotOver => "the hand is not over"
  | .badStakes why => s!"bad stakes: {why}"
  | .exceedsBuyin delta buyin =>
      s!"a hand cannot move more than its buy-in (delta {delta}, buy-in {buyin})"

/-- What a hand owes once it is over. -/
def settlement (handOver : Bool) (heroStackAfter buyin : Nat) :
    Except SettlementError (Option Settlement) :=
  if !handOver then .error .handNotOver
  else if buyin = 0 then .error (.badStakes "the buy-in is zero")
  else
    let delta : Int := (heroStackAfter : Int) - buyin
    if buyin < delta.natAbs then .error (.exceedsBuyin delta buyin)
    else if delta = 0 then .ok none
    else if 0 < delta then .ok (some ⟨.citizen, .hero, delta.natAbs⟩)
    else .ok (some ⟨.hero, .citizen, delta.natAbs⟩)

/-! ## The book -/

/-- A member's report that a transfer was sent. -/
structure PaymentClaim where
  txid : String
  reportedAt : Nat
deriving DecidableEq, Repr

/-- A settled hand that a member has not yet paid for. -/
structure Owed where
  hero : String
  creditor : String
  root : String
  amount : Nat
  since : Nat
  claimed : Option PaymentClaim
deriving DecidableEq, Repr

/-- A settled hand that the house has not yet paid for. -/
structure Owing where
  hero : String
  root : String
  amount : Nat
  since : Nat
  attempts : Nat
  lastAttempt : Nat
  lastError : Option String
deriving DecidableEq, Repr

/-- A settled hand, for the record. -/
structure Settled where
  hero : String
  root : String
  heroNet : Int
  txid : Option String
  endedAt : Nat
deriving DecidableEq, Repr

/-- Settled hands kept for the record. -/
def historyCap : Nat := 500

/-- The book; what was paid out is kept by day. -/
structure Ledger where
  owed : List Owed
  owing : List Owing
  paid : Lib.Table (Nat × Nat) Prod.fst
  hands : Nat
  history : List Settled

/-- The day number of a unix time. -/
def dayOf (now : Nat) : Nat :=
  now / 86400

/-- Recipients and amounts of the transfers that the chain shows for a hand's
root. -/
abbrev HandPayments := String → String → Option Nat

/-- The first element that a condition names, changed. -/
def changeFirst {Entry : Type} (condition : Entry → Bool) (change : Entry → Entry) :
    List Entry → List Entry
  | [] => []
  | entry :: entries =>
      if condition entry then change entry :: entries
      else entry :: changeFirst condition change entries

namespace Ledger

/-- The empty book. -/
def empty : Ledger :=
  ⟨[], [], Lib.Table.empty, 0, []⟩

variable (ledger : Ledger)

/-- Base units paid out on the day of a time. -/
def paidToday (now : Nat) : Nat :=
  ((ledger.paid.find? (dayOf now)).map Prod.snd).getD 0

/-- What the house owes in all. -/
def owingTotal : Nat :=
  (ledger.owing.map Owing.amount).sum

/-- A settled hand recorded, newest first. -/
def settled (hero root : String) (heroNet : Int) (endedAt : Nat) : Ledger :=
  { ledger with
    hands := ledger.hands + 1
    history := (⟨hero, root, heroNet, none, endedAt⟩ :: ledger.history).take historyCap }

def noteTxid (root txid : String) : Ledger :=
  { ledger with
    history := changeFirst (fun settled => settled.root == root)
      (fun settled => { settled with txid := some txid }) ledger.history }

/-- A member reports paying for a hand; whether a debt was found. -/
def claim (hero root txid : String) (now : Nat) : Ledger × Bool :=
  let named (owed : Owed) : Bool := owed.hero == hero && owed.root == root
  if ledger.owed.any named then
    ({ ledger with
        owed := changeFirst named
          (fun owed => { owed with claimed := some ⟨txid, now⟩ }) ledger.owed }, true)
  else (ledger, false)

end Ledger

/-- The chain shows a transfer of at least the debt to its creditor. -/
def Owed.seen (owed : Owed) (paid : HandPayments) : Bool :=
  (paid owed.root owed.creditor).any fun amount => owed.amount ≤ amount

namespace Ledger

variable (ledger : Ledger)

/-- A cleared hand whose transfer is not known is noted as seen. -/
def noteSeen (root : String) : Ledger :=
  if ((ledger.history.find? fun settled => settled.root == root).bind Settled.txid).isNone then
    ledger.noteTxid root "seen on chain"
  else ledger

/-- The debts that the chain shows paid are cleared; their roots. -/
def paymentsSeen (paid : HandPayments) : Ledger × List String :=
  let cleared := (ledger.owed.filter fun owed => owed.seen paid).map Owed.root
  let ledger := { ledger with owed := ledger.owed.filter fun owed => !owed.seen paid }
  (cleared.foldl noteSeen ledger, cleared)

/-- The house's transfer for a hand was accepted; what it paid. -/
def housePaid (root txid : String) (now : Nat) : Ledger × Option Nat :=
  match ledger.owing.find? fun owing => owing.root == root with
  | none => (ledger, none)
  | some owing =>
      let ledger :=
        { ledger with
          owing := ledger.owing.eraseP fun owing => owing.root == root
          paid := ledger.paid.put (dayOf now, ledger.paidToday now + owing.amount) }
      (ledger.noteTxid root txid, some owing.amount)

/-- The house's transfer for a hand failed; it stays owed. -/
def housePayFailed (root why : String) (now : Nat) : Ledger :=
  { ledger with
    owing := changeFirst (fun owing => owing.root == root)
      (fun owing =>
        { owing with attempts := owing.attempts + 1, lastAttempt := now, lastError := some why })
      ledger.owing }

end Ledger

end HouseSeat
end NostrBbs
