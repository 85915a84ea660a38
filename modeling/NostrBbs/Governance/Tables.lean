import NostrBbs.Governance.Plans
import NostrBbs.Governance.Stages
import NostrBbs.Lib.Table

/-!
# The governance tables

The rows of the case, decision and receipt tables, and the statements that the
relay and its sibling workers run on them.  A statement reads how many rows its
predecessor changed; a batch runs its statements in order, and leaves no trace
when one of them fails.
-/

namespace NostrBbs
namespace Governance

open Relay (asF64 eqIgnoreAsciiCase)

/-! ## Rows -/

/-- A row of `broker_cases`. -/
structure CaseRow where
  id : String
  category : String
  state : String
  createdBy : String
  assignedTo : Option String
  nostrEventId : Option String
  fromShareState : Option String
  toShareState : Option String
  effectiveTier : Option String
  staleAfter : Option Nat
  updatedAt : Nat
deriving DecidableEq, Repr

/-- The columns that a projection reads. -/
def CaseRow.brokerCaseRow (row : CaseRow) : BrokerCaseRow where
  category := row.category
  state := row.state
  effectiveTier := row.effectiveTier
  nostrEventId := row.nostrEventId
  createdBy := row.createdBy
  fromShareState := row.fromShareState
  toShareState := row.toShareState

/-- A row of `broker_decisions`. -/
structure DecisionRow where
  decisionId : String
  caseId : String
  outcome : String
  outcomeDetail : Option String
  brokerPubkey : String
  reasoning : String
  priorDecisionId : Option String
  supersededBy : Option String
  decidedAt : Nat
deriving DecidableEq, Repr

/-- The columns that a supersession reads of its target. -/
def DecisionRow.supersededRow (row : DecisionRow) : SupersededDecisionRow where
  brokerPubkey := row.brokerPubkey
  caseId := row.caseId
  supersededBy := row.supersededBy

/-- Why a projection did not commit; its text is stored with the receipt. -/
inductive ProjectionFailure
  | orchestration (error : OrchestrationError)
  | supersession (error : SupersessionError)
  | appeal (refusal : AppealRefusal)
  | batchFailed
  | conflict
  deriving DecidableEq, Repr

/-- A row of `governance_receipts`. -/
structure ReceiptRow where
  eventId : String
  kind : Nat
  caseId : String
  requestEventId : Option String
  signerPubkey : String
  decisionOutcome : Option String
  targetOperation : Option String
  supersedesEventId : Option String
  stage : String
  stageError : Option ProjectionFailure
  decisionId : Option String
  signedAt : Nat
  acceptedAt : Option Nat
  projectedAt : Option Nat
  replays : Nat
  appliedAt : Option Nat
  appliedBy : Option String
  acknowledgement : Option String
deriving DecidableEq, Repr

/-- The three tables, each under its primary key. -/
structure Database where
  cases : Lib.Table CaseRow CaseRow.id
  decisions : Lib.Table DecisionRow DecisionRow.decisionId
  receipts : Lib.Table ReceiptRow ReceiptRow.eventId

def Database.empty : Database :=
  ⟨Lib.Table.empty, Lib.Table.empty, Lib.Table.empty⟩

/-! ## Reads -/

/-- The states of a case that awaits a decision. -/
def pendingStates : List String :=
  ["open", "under_review", "reopened"]

/-- The stages of a receipt whose projection may commit. -/
def awaitingStages : List String :=
  ["relay-accepted", "projection-failed"]

/-- A decision comes before another by its time, then by its id. -/
def DecisionRow.precedes (first second : DecisionRow) : Bool :=
  decide (first.decidedAt < second.decidedAt ∨
    first.decidedAt = second.decidedAt ∧ first.decisionId < second.decisionId)

/-- The later of a decision and the latest one so far. -/
def laterDecision (latest : Option DecisionRow) (row : DecisionRow) : Option DecisionRow :=
  if latest.all fun best => best.precedes row then some row else latest

namespace Database

/-- The decisions of a case. -/
def decisionsOf (db : Database) (caseId : String) : List DecisionRow :=
  db.decisions.rows.filter fun row => row.caseId == caseId

/-- The latest decision of a case, by the times that signers chose. -/
def latestDecision (db : Database) (caseId : String) : Option DecisionRow :=
  (db.decisionsOf caseId).foldl laterDecision none

def latestDecisionId (db : Database) (caseId : String) : Option String :=
  (db.latestDecision caseId).map DecisionRow.decisionId

/-- The stage of a receipt. -/
def stageOf (db : Database) (eventId : String) : Option String :=
  (db.receipts.find? eventId).map ReceiptRow.stage

/-- The state of a case. -/
def stateOf (db : Database) (caseId : String) : Option String :=
  (db.cases.find? caseId).map CaseRow.state

end Database

/-! ## Batches -/

/-- A statement, given how many rows its predecessor changed. -/
def Statement : Type :=
  Database → Nat → Option (Database × Nat)

/-- The statements of a batch run in order, with the numbers of rows that they
changed. -/
def execute : List Statement → Database → Nat → Option (Database × List Nat)
  | [], db, _ => some (db, [])
  | statement :: rest, db, changes =>
      (statement db changes).bind fun after =>
        (execute rest after.1 after.2).map fun result => (result.1, after.2 :: result.2)

/-- A batch, as one transaction: it succeeds when every statement changes one
row. -/
def runBatch (statements : List Statement) (db : Database) :
    Database × Except ProjectionFailure Unit :=
  match execute statements db 0 with
  | none => (db, .error .batchFailed)
  | some (after, changes) =>
      (after, if changes.all (· == 1) then .ok () else .error .conflict)

/-! ## What a run commits -/

/-- The writes of a plain decision. -/
structure ProjectionCommit where
  eventId : String
  caseId : String
  requestEventId : String
  expectedState : String
  decisionId : String
  outcome : String
  outcomeDetail : Option String
  priorDecisionId : Option String
  reasoning : String
  brokerPubkey : String
  newState : String
  decidedAt : Nat
deriving DecidableEq, Repr

/-- The writes of a supersession. -/
structure SupersessionCommit where
  eventId : String
  caseId : String
  supersededEventId : String
  supersededDecisionId : String
  expectedState : String
  decisionId : String
  outcome : String
  outcomeDetail : Option String
  reasoning : String
  brokerPubkey : String
  decidedAt : Nat
deriving DecidableEq, Repr

/-- The writes of an appeal. -/
structure AppealCommit where
  eventId : String
  caseId : String
  appellant : String
  citedEventId : String
  citedDecisionId : String
  signedAt : Nat
deriving DecidableEq, Repr

inductive Commit
  | response (commit : ProjectionCommit)
  | supersession (commit : SupersessionCommit)
  | appeal (commit : AppealCommit)
  deriving DecidableEq, Repr

namespace Commit

def eventId : Commit → String
  | response commit => commit.eventId
  | supersession commit => commit.eventId
  | appeal commit => commit.eventId

/-- A correlation describes the signed event that a plan was made from. -/
def describedBy (commit : Commit) (correlation : ReceiptCorrelation) : Bool :=
  match commit with
  | response commit =>
      correlation.eventId == commit.eventId && correlation.caseId == commit.caseId &&
        correlation.signerPubkey == commit.brokerPubkey &&
        correlation.requestEventId == some commit.requestEventId &&
        correlation.decisionOutcome == some commit.outcome
  | supersession commit =>
      correlation.eventId == commit.eventId && correlation.caseId == commit.caseId &&
        correlation.signerPubkey == commit.brokerPubkey &&
        correlation.supersedesEventId == some commit.supersededEventId &&
        correlation.decisionOutcome == some commit.outcome
  | appeal commit =>
      correlation.eventId == commit.eventId && correlation.signerPubkey == commit.appellant &&
        correlation.requestEventId == some commit.citedEventId

end Commit

/-! ## The statements -/

/-- The receipt of a commit moves to `projection-committed`. -/
def projectionReceipt (projectedAt : Nat) (decisionId : Option String) (eventId : String) :
    Statement := fun db changes =>
  let named : ReceiptRow → Bool := fun row => row.eventId == eventId && changes == 1
  some
    ({ db with
      receipts := db.receipts.updateWhere named
        (fun row => { row with
          stage := ReceiptStage.projectionCommitted.asStr
          projectedAt := some (asF64 projectedAt)
          decisionId := decisionId
          stageError := none })
        fun _ => rfl }, db.receipts.countWhere named)

/-- A case moves to a state, in the hands of the one who decided. -/
def moveCase (state assignedTo : String) (updatedAt : Nat) (caseId : String) :
    Statement := fun db changes =>
  let named : CaseRow → Bool := fun row => row.id == caseId && changes == 1
  some
    ({ db with
      cases := db.cases.updateWhere named
        (fun row => { row with
          state := state
          assignedTo := some assignedTo
          updatedAt := asF64 updatedAt })
        fun _ => rfl }, db.cases.countWhere named)

namespace ProjectionCommit

/-- The decision row of a plain decision. -/
def decisionRow (commit : ProjectionCommit) : DecisionRow where
  decisionId := commit.decisionId
  caseId := commit.caseId
  outcome := commit.outcome
  outcomeDetail := commit.outcomeDetail
  brokerPubkey := commit.brokerPubkey
  reasoning := commit.reasoning
  priorDecisionId := commit.priorDecisionId
  supersededBy := none
  decidedAt := asF64 commit.decidedAt

/-- The case awaits a decision in the state that the plan saw, its latest
decision is the one that the plan follows, and the receipt awaits projection. -/
def admitted (commit : ProjectionCommit) (db : Database) : Bool :=
  ((db.cases.find? commit.caseId).any fun row =>
    row.state == commit.expectedState && row.nostrEventId == some commit.requestEventId &&
      pendingStates.contains row.state) &&
  db.latestDecisionId commit.caseId == commit.priorDecisionId &&
  (db.receipts.find? commit.eventId).any fun row =>
    row.caseId == commit.caseId && row.requestEventId == some commit.requestEventId &&
      awaitingStages.contains row.stage

def insertDecision (commit : ProjectionCommit) : Statement := fun db _ =>
  if commit.admitted db then
    (db.decisions.insert commit.decisionRow).map fun decisions =>
      ({ db with decisions := decisions }, 1)
  else some (db, 0)

def batch (commit : ProjectionCommit) : List Statement :=
  [commit.insertDecision,
    moveCase commit.newState commit.brokerPubkey commit.decidedAt commit.caseId,
    projectionReceipt commit.decidedAt (some commit.decisionId) commit.eventId]

end ProjectionCommit

namespace SupersessionCommit

/-- The decision row of a supersession. -/
def decisionRow (commit : SupersessionCommit) : DecisionRow where
  decisionId := commit.decisionId
  caseId := commit.caseId
  outcome := commit.outcome
  outcomeDetail := commit.outcomeDetail
  brokerPubkey := commit.brokerPubkey
  reasoning := commit.reasoning
  priorDecisionId := some commit.supersededDecisionId
  supersededBy := none
  decidedAt := asF64 commit.decidedAt

/-- The case is in the state that the plan saw, the superseded decision is its
own and still stands, and the receipt awaits projection. -/
def admitted (commit : SupersessionCommit) (db : Database) : Bool :=
  ((db.cases.find? commit.caseId).any fun row =>
    row.state == commit.expectedState && supersedableStates.contains row.state) &&
  ((db.decisions.find? commit.supersededDecisionId).any fun row =>
    row.caseId == commit.caseId && row.supersededBy == none) &&
  (db.receipts.find? commit.eventId).any fun row =>
    row.caseId == commit.caseId && awaitingStages.contains row.stage

def insertDecision (commit : SupersessionCommit) : Statement := fun db _ =>
  if commit.admitted db then
    (db.decisions.insert commit.decisionRow).map fun decisions =>
      ({ db with decisions := decisions }, 1)
  else some (db, 0)

/-- The superseded decision is marked with its successor. -/
def markSuperseded (commit : SupersessionCommit) : Statement := fun db changes =>
  let named : DecisionRow → Bool := fun row =>
    row.decisionId == commit.supersededDecisionId && row.supersededBy == none && changes == 1
  some
    ({ db with
      decisions := db.decisions.updateWhere named
        (fun row => { row with supersededBy := some commit.decisionId })
        fun _ => rfl }, db.decisions.countWhere named)

def batch (commit : SupersessionCommit) : List Statement :=
  [commit.insertDecision, commit.markSuperseded,
    moveCase CaseState.superseded.asStr commit.brokerPubkey commit.decidedAt commit.caseId,
    projectionReceipt commit.decidedAt (some commit.decisionId) commit.eventId]

end SupersessionCommit

namespace AppealCommit

/-- A resolved case is reopened for its requester, who cites a decision on it. -/
def reopenCase (commit : AppealCommit) : Statement := fun db _ =>
  let named : CaseRow → Bool := fun row =>
    row.id == commit.caseId && eqIgnoreAsciiCase row.createdBy commit.appellant &&
      appealableStates.contains row.state &&
      (db.decisions.find? commit.citedDecisionId).any fun cited => cited.caseId == commit.caseId
  some
    ({ db with
      cases := db.cases.updateWhere named
        (fun row => { row with
          state := CaseState.reopened.asStr
          updatedAt := asF64 commit.signedAt })
        fun _ => rfl }, db.cases.countWhere named)

def batch (commit : AppealCommit) : List Statement :=
  [commit.reopenCase, projectionReceipt commit.signedAt none commit.eventId]

end AppealCommit

def Commit.batch : Commit → List Statement
  | response commit => commit.batch
  | supersession commit => commit.batch
  | appeal commit => commit.batch

/-! ## Single statements -/

/-- What recording an acceptance found. -/
inductive AcceptOutcome
  | fresh
  | replay (stage : ReceiptStage) (replays : Nat)
  deriving DecidableEq, Repr

/-- The receipt of an accepted event. -/
def ReceiptCorrelation.receiptRow (correlation : ReceiptCorrelation) (acceptedAt : Nat) :
    ReceiptRow where
  eventId := correlation.eventId
  kind := correlation.kind
  caseId := correlation.caseId
  requestEventId := correlation.requestEventId
  signerPubkey := correlation.signerPubkey
  decisionOutcome := correlation.decisionOutcome
  targetOperation := correlation.targetOperation
  supersedesEventId := correlation.supersedesEventId
  stage := ReceiptStage.relayAccepted.asStr
  stageError := none
  decisionId := none
  signedAt := asF64 correlation.signedAt
  acceptedAt := some (asF64 acceptedAt)
  projectedAt := none
  replays := 0
  appliedAt := none
  appliedBy := none
  acknowledgement := none

namespace Database

/-- An acceptance is recorded, or counted as a replay where a receipt exists; no
answer for a receipt of an unknown stage. -/
def recordAccepted (db : Database) (correlation : ReceiptCorrelation) (acceptedAt : Nat) :
    Database × Option AcceptOutcome :=
  match db.receipts.insert (correlation.receiptRow acceptedAt) with
  | some receipts => ({ db with receipts := receipts }, some .fresh)
  | none =>
      let receipts := db.receipts.updateWhere (fun row => row.eventId == correlation.eventId)
        (fun row => { row with replays := row.replays + 1 }) fun _ => rfl
      ({ db with receipts := receipts },
        (receipts.find? correlation.eventId).bind fun row =>
          (ReceiptStage.parse row.stage).map fun stage => .replay stage row.replays)

/-- A failed projection is recorded, unless the receipt is at
`projection-committed`. -/
def markProjectionFailed (db : Database) (eventId : String) (error : ProjectionFailure)
    (now : Nat) : Database :=
  { db with
    receipts := db.receipts.updateWhere
      (fun row => row.eventId == eventId &&
        row.stage != ReceiptStage.projectionCommitted.asStr)
      (fun row => { row with
        stage := ReceiptStage.projectionFailed.asStr
        stageError := some error
        acceptedAt := row.acceptedAt.or (some (asF64 now)) })
      fun _ => rfl }

/-- The owner of a mutation reports a stage, unless the receipt has left the one
that was read. -/
def advanceStage (db : Database) (eventId : String) (current requested : ReceiptStage)
    (caller : String) (acknowledgement : Option String) (now : Nat) : Database :=
  { db with
    receipts := db.receipts.updateWhere
      (fun row => row.eventId == eventId && row.stage == current.asStr)
      (fun row => { row with
        stage := requested.asStr
        appliedAt := some (asF64 now)
        appliedBy := some caller
        acknowledgement := acknowledgement.filter fun words => !isBlank words })
      fun _ => rfl }

/-- A request becomes an open case, or replaces the request that its author's
pending case points at when it is strictly newer than that one. -/
def upsertCase (db : Database) (row : CaseRow) (heldAt : Option Nat) : Database :=
  match db.cases.insert { row with state := CaseState.open.asStr } with
  | some cases => { db with cases := cases }
  | none =>
      { db with
        cases := db.cases.updateWhere
          (fun held => held.id == row.id && held.createdBy == row.createdBy &&
            pendingStates.contains held.state &&
            held.nostrEventId.any (fun request => row.nostrEventId.any (request != ·)) &&
            decide (heldAt.getD 0 < row.updatedAt))
          (fun held => { held with
            category := row.category
            nostrEventId := row.nostrEventId
            updatedAt := row.updatedAt
            effectiveTier := row.effectiveTier
            staleAfter := row.staleAfter })
          fun _ => rfl }

/-- A pending case is closed without a decision. -/
def expireCase (db : Database) (caseId : String) (now : Nat) : Database :=
  { db with
    cases := db.cases.updateWhere
      (fun row => row.id == caseId && pendingStates.contains row.state)
      (fun row => { row with state := CaseState.closed.asStr, updatedAt := asF64 now })
      fun _ => rfl }

end Database

end Governance
end NostrBbs
