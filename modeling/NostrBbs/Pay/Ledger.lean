import NostrBbs.Lib.Pool
import NostrBbs.Lib.Counting
import NostrBbs.Relay.Filter

/-!
# The tables of the pay ledger

Accounts, agent jobs, the journal of credits and the older receipts of deposits, with the
statements that change them.  Beside them stands what the statements have moved on the
accounts, in order.
-/

namespace NostrBbs
namespace Pay

open Relay (JsonValue asciiLower)

/-! ## Rows -/

/-- A row of the table `webledger_accounts`. -/
structure Account where
  did : String
  balanceSats : Int
  updatedAt : Int
deriving DecidableEq

/-- A row of the table `txo_deposits`, which is no longer written. -/
structure TxoDeposit where
  txid : String
  vout : Int
  did : String
  amountSats : Int
  depositedAt : Int
deriving DecidableEq

def TxoDeposit.key (deposit : TxoDeposit) : String × Int :=
  (deposit.txid, deposit.vout)

inductive JobStatus where
  | held
  | running
  | settled
  | failed
deriving DecidableEq

def JobStatus.text : JobStatus → String
  | held => "held"
  | running => "running"
  | settled => "settled"
  | failed => "failed"

/-- A row of the table `agent_jobs`. -/
structure Job where
  jobId : String
  requesterDid : String
  agentDid : String
  endpoint : String
  paramsJson : Option String
  status : JobStatus
  estimatedSats : Int
  heldSats : Int
  actualSats : Option Int
  createdAt : Int
  startedAt : Option Int
  completedAt : Option Int
  error : Option String
  expiresAt : Option String
  releaseRef : Option String
deriving DecidableEq

inductive CreditKind where
  | deposit
  | jobRelease
deriving DecidableEq

/-- A row of the table `pay_credits`, which names its evidence. -/
structure Credit where
  creditRef : String
  did : String
  amountSats : Int
  kind : CreditKind
  chain : Option String
  txid : Option String
  vout : Option Int
  requestId : Option String
  applied : Bool
  createdAt : Int
deriving DecidableEq

/-- The tables, and the admins whom the relay's own database lists. -/
structure Database where
  accounts : Lib.Table Account Account.did
  txoDeposits : Lib.Table TxoDeposit TxoDeposit.key
  jobs : Lib.Table Job Job.jobId
  credits : Lib.Table Credit Credit.creditRef
  admins : List String

namespace Database

/-- The balance of an account, nothing for an unknown one. -/
def balance (database : Database) (did : String) : Int :=
  ((database.accounts.find? did).map Account.balanceSats).getD 0

/-- An older receipt holds an outpoint, however its transaction is spelled. -/
def holdsTxo (database : Database) (txid : String) (vout : Int) : Bool :=
  database.txoDeposits.rows.any fun deposit =>
    asciiLower deposit.txid == txid.toList && deposit.vout == vout

end Database

/-! ## Statements -/

/-- The receipt key of a job's hold release. -/
def releaseRef (jobId : String) : String :=
  "job:" ++ jobId ++ ":release"

/-- One statement and its parameters. -/
inductive Stmt where
  | debit (cost now : Int) (did : String)
  | journalDeposit (creditRef did : String) (value : Int) (chain txid : String) (vout : Int)
      (requestId : Option String) (now : Int)
  | journalRelease (jobId ref requestId : String) (now : Int)
  | applyCredit (creditRef : String) (now : Int)
  | markApplied (creditRef : String)
  | jobInsertIfFunded (jobId requesterDid agentDid endpoint : String) (paramsJson : Option String)
      (estimated held now : Int) (expiresAt : String)
  | jobDebitHold (held now : Int) (did jobId : String)
  | jobStart (now : Int) (jobId agentDid : String)
  | jobSettle (actual now : Int) (jobId agentDid ref : String)
  | jobCancel (now : Int) (jobId callerDid ref : String)
  | jobExpire (now : Int) (jobId ref : String)

/-- What a statement moves on an account. -/
inductive Movement where
  | charge (did : String) (sats : Int)
  | hold (did jobId : String) (sats : Int)
  | credit (creditRef did : String) (sats : Int)
deriving DecidableEq

structure Ledger where
  database : Database
  movements : List Movement

/-- A ledger that is opened beside older receipts. -/
def Ledger.opened (txoDeposits : Lib.Table TxoDeposit TxoDeposit.key) (admins : List String) :
    Ledger :=
  ⟨⟨Lib.Table.empty, txoDeposits, Lib.Table.empty, Lib.Table.empty, admins⟩, []⟩

namespace Ledger

variable (ledger : Ledger)

/-- A statement that changed no row. -/
def unchanged : Option (Ledger × Nat) :=
  some (ledger, 0)

/-- The rows of the accounts changed by a debit that an account covers. -/
def takeFrom (did : String) (sats now : Int) (condition : Bool) (movement : Movement) :
    Option (Ledger × Nat) :=
  let covers (account : Account) : Bool :=
    account.did == did && sats ≤ account.balanceSats && condition
  let rows := ledger.database.accounts.countWhere covers
  some
    ({ database :=
          { ledger.database with
            accounts := ledger.database.accounts.updateWhere covers
              (fun account =>
                { account with balanceSats := account.balanceSats - sats, updatedAt := now })
              (fun _ => rfl) }
       movements := if rows = 0 then ledger.movements else ledger.movements ++ [movement] },
      rows)

/-- A credit journalled, unless its receipt is held or its amount is below nothing. -/
def journal (credit : Credit) : Option (Ledger × Nat) :=
  if credit.amountSats < 0 then ledger.unchanged
  else
    match ledger.database.credits.insert credit with
    | none => ledger.unchanged
    | some credits => some (⟨{ ledger.database with credits := credits }, ledger.movements⟩, 1)

/-- Sats added to an account, which is made when it is new. -/
def addTo (accounts : Lib.Table Account Account.did) (did : String) (sats now : Int) :
    Lib.Table Account Account.did :=
  match accounts.insert ⟨did, sats, now⟩ with
  | some added => added
  | none => accounts.updateWhere (fun account => account.did == did)
      (fun account => { account with balanceSats := account.balanceSats + sats, updatedAt := now })
      (fun _ => rfl)

/-- The jobs that a condition names changed. -/
def changeJobs (condition : Job → Bool) (change : Job → Job)
    (keeps : ∀ job, (change job).jobId = job.jobId) : Option (Ledger × Nat) :=
  some
    (⟨{ ledger.database with jobs := ledger.database.jobs.updateWhere condition change keeps },
        ledger.movements⟩,
      ledger.database.jobs.countWhere condition)

/-- What a statement leaves and the number of rows it changed; it fails when it breaks a
constraint. -/
def execute : Stmt → Option (Ledger × Nat)
  | .debit cost now did => ledger.takeFrom did cost now true (.charge did cost)
  | .journalDeposit creditRef did value chain txid vout requestId now =>
      if ledger.database.holdsTxo txid vout then ledger.unchanged
      else
        ledger.journal ⟨creditRef, did, value, .deposit, some chain, some txid, some vout, requestId,
          false, now⟩
  | .journalRelease jobId ref requestId now =>
      match ledger.database.jobs.find? jobId with
      | none => ledger.unchanged
      | some job =>
          let unused := job.heldSats - job.actualSats.getD 0
          if job.releaseRef = some ref ∧ 0 < unused then
            ledger.journal ⟨ref, job.requesterDid, unused, .jobRelease, none, none, none,
              some requestId, false, now⟩
          else ledger.unchanged
  | .applyCredit creditRef now =>
      match (ledger.database.credits.find? creditRef).filter fun credit => !credit.applied with
      | none => ledger.unchanged
      | some credit =>
          some
            (⟨{ ledger.database with
                accounts := addTo ledger.database.accounts credit.did credit.amountSats now },
              ledger.movements ++ [.credit creditRef credit.did credit.amountSats]⟩, 1)
  | .markApplied creditRef =>
      let unapplied (credit : Credit) : Bool := credit.creditRef == creditRef && !credit.applied
      some
        (⟨{ ledger.database with
            credits := ledger.database.credits.updateWhere unapplied
              (fun credit => { credit with applied := true }) (fun _ => rfl) },
          ledger.movements⟩,
          ledger.database.credits.countWhere unapplied)
  | .jobInsertIfFunded jobId requesterDid agentDid endpoint paramsJson estimated held now
      expiresAt =>
      if (ledger.database.accounts.find? requesterDid).any fun account =>
          held ≤ account.balanceSats then
        (ledger.database.jobs.insert ⟨jobId, requesterDid, agentDid, endpoint, paramsJson, .held,
          estimated, held, none, now, none, none, none, some expiresAt, none⟩).map fun jobs =>
            (⟨{ ledger.database with jobs := jobs }, ledger.movements⟩, 1)
      else ledger.unchanged
  | .jobDebitHold held now did jobId =>
      ledger.takeFrom did held now
        ((ledger.database.jobs.find? jobId).any fun job => job.requesterDid == did)
        (.hold did jobId held)
  | .jobStart now jobId agentDid =>
      ledger.changeJobs
        (fun job => job.jobId == jobId && job.status == .held && job.agentDid == agentDid)
        (fun job => { job with status := .running, startedAt := some now }) (fun _ => rfl)
  | .jobSettle actual now jobId agentDid ref =>
      ledger.changeJobs
        (fun job => job.jobId == jobId && job.status == .running && job.agentDid == agentDid &&
          actual ≤ job.heldSats)
        (fun job =>
          { job with
            status := .settled, actualSats := some actual, completedAt := some now
            releaseRef := some ref })
        (fun _ => rfl)
  | .jobCancel now jobId callerDid ref =>
      ledger.changeJobs
        (fun job => job.jobId == jobId && (job.status == .held || job.status == .running) &&
          (job.requesterDid == callerDid || job.agentDid == callerDid))
        (fun job =>
          { job with
            status := .failed, error := some "cancelled", completedAt := some now
            releaseRef := some ref })
        (fun _ => rfl)
  | .jobExpire now jobId ref =>
      ledger.changeJobs
        (fun job => job.jobId == jobId && (job.status == .held || job.status == .running))
        (fun job =>
          { job with
            status := .failed, error := some "expired", completedAt := some now
            releaseRef := some ref })
        (fun _ => rfl)

/-- Statements as one transaction, with the number of rows that each changed; when one
fails, none is carried out. -/
def batch (ledger : Ledger) : List Stmt → Option (Ledger × List Nat)
  | [] => some (ledger, [])
  | stmt :: stmts =>
      match ledger.execute stmt with
      | none => none
      | some (after, rows) => (batch after stmts).map fun rest => (rest.1, rows :: rest.2)

end Ledger

/-! ## Operations -/

inductive Op where
  | batch (stmts : List Stmt)
  | readBalance (did : String)
  | creditExists (creditRef txid : String) (vout : Int)
  | jobsList (requesterDid : String)
  | jobGet (jobId : String)
  | jobsExpired (before : String)
  | isAdmin (pubkey : String)
  | transaction (explorerApi txid : String)

/-- What an operation answers, unless it fails. -/
@[reducible] def Op.Reply : Op → Type
  | batch _ => List Nat
  | readBalance _ => Option Int
  | creditExists _ _ _ => Bool
  | jobsList _ => List Job
  | jobGet _ => Option Job
  | jobsExpired _ => List String
  | isAdmin _ => Bool
  | transaction _ _ => JsonValue

@[reducible] def Op.Answer (op : Op) : Type :=
  Except String op.Reply

/-- How an operation goes; the explorer answers what it does. -/
inductive Choice where
  | answered
  | fails (message : String)
  | answerLost (message : String)
  | explorer (reply : Except String JsonValue)

namespace Ledger

variable (ledger : Ledger)

/-- What is left when the operation is carried out. -/
def after : Op → Ledger
  | .batch stmts => ((ledger.batch stmts).map Prod.fst).getD ledger
  | _ => ledger

/-- The jobs that are still open and expired before a time. -/
def expired (before : String) : List String :=
  (ledger.database.jobs.rows.filter fun job =>
    (job.status == .held || job.status == .running) &&
      job.expiresAt.any fun expiresAt => expiresAt < before).map Job.jobId

def creditExists (creditRef txid : String) (vout : Int) : Bool :=
  (ledger.database.credits.find? creditRef).isSome || ledger.database.holdsTxo txid vout

/-- The jobs of a requester, the latest first and fifty at most. -/
def jobsOf (requesterDid : String) : List Job :=
  ((ledger.database.jobs.rows.filter fun job => job.requesterDid == requesterDid).mergeSort
    fun first second => second.createdAt ≤ first.createdAt).take 50

/-- What the operation answers when it is carried out. -/
def reply : (op : Op) → op.Answer
  | .batch stmts =>
      match ledger.batch stmts with
      | none => .error "d1 batch"
      | some (_, rows) => .ok rows
  | .readBalance did => .ok ((ledger.database.accounts.find? did).map Account.balanceSats)
  | .creditExists creditRef txid vout => .ok (ledger.creditExists creditRef txid vout)
  | .jobsList requesterDid => .ok (ledger.jobsOf requesterDid)
  | .jobGet jobId => .ok (ledger.database.jobs.find? jobId)
  | .jobsExpired before => .ok (ledger.expired before)
  | .isAdmin pubkey => .ok (ledger.database.admins.contains pubkey)
  | .transaction _ _ => .error "fetch"

/-- An operation, which the explorer answers as it is chosen to. -/
def answer (choice : Choice) (op : Op) : Ledger × op.Answer :=
  match choice with
  | .answered => (ledger.after op, ledger.reply op)
  | .fails message => (ledger, .error message)
  | .answerLost message => (ledger.after op, .error message)
  | .explorer reply =>
      match op with
      | .transaction _ _ => (ledger, reply)
      | op => (ledger.after op, ledger.reply op)

/-- An operation was carried out, or nothing changed. -/
theorem answer_ledger
    (choice : Choice)
    (op : Op) :
    (ledger.answer choice op).1 = ledger.after op ∨ (ledger.answer choice op).1 = ledger := by
  unfold answer
  split
  · exact Or.inl rfl
  · exact Or.inr rfl
  · exact Or.inl rfl
  · split
    · exact Or.inr rfl
    · exact Or.inl rfl

end Ledger

end Pay
end NostrBbs
