import NostrBbs.Governance.Batches
import NostrBbs.Lib.Run

/-!
# Projections in flight

The handlers that project signed governance events, as tasks that run one
database operation at a time.  Tasks of any number of deliveries interleave with
each other, with re-posted requests, with expiries and with the reports of
mutation owners; an operation may fail, or take effect and lose its answer.
-/

namespace NostrBbs
namespace Governance

open Relay (NostrEvent tagValue eqIgnoreAsciiCase)

/-! ## Tasks -/

/-- Which projection an event goes through. -/
inductive Route
  | response
  | supersession (supersededEventId : String)
  | appeal (citedEventId : String)
  deriving DecidableEq, Repr

/-- The route of a saved event; a request that is no appeal has none. -/
def routeOf (event : NostrEvent) : Option Route :=
  if event.kind = kindActionResponse then
    match extractSupersedesTarget event.tags with
    | some supersededEventId => some (.supersession supersededEventId)
    | none => some .response
  else if event.kind = kindActionRequest then
    (extractAppealTarget event.tags).map .appeal
  else none

/-- What follows a recorded acceptance. -/
inductive Work
  | commit (commit : Commit)
  | refuse (error : ProjectionFailure)
  | replay
  deriving DecidableEq, Repr

/-- A stage that a mutation owner reports. -/
structure Report where
  eventId : String
  requested : ReceiptStage
  caller : String
  isAdmin : Bool
  isRegisteredAgent : Bool
  acknowledgement : Option String
deriving DecidableEq, Repr

/-- A handler, by the operation that it runs next. -/
inductive Task
  | lookup (event : NostrEvent) (correlation : ReceiptCorrelation) (route : Route)
  | readTarget (event : NostrEvent) (correlation : ReceiptCorrelation)
      (supersededEventId : String)
  | readCase (event : NostrEvent) (correlation : ReceiptCorrelation)
  | readSuperseded (event : NostrEvent) (correlation : ReceiptCorrelation)
      (supersededEventId : String) (target : SupersededDecisionRow)
  | readAppealed (event : NostrEvent) (correlation : ReceiptCorrelation) (citedEventId : String)
  | readLatest (event : NostrEvent) (correlation : ReceiptCorrelation)
      (caseRow : Option BrokerCaseRow)
  | readCited (event : NostrEvent) (correlation : ReceiptCorrelation) (citedEventId : String)
      (caseRow : Option BrokerCaseRow)
  | accept (correlation : ReceiptCorrelation) (work : Work)
  | batch (commit : Commit)
  | fail (eventId : String) (error : ProjectionFailure)
  | readReceipt (report : Report)
  | readOutcome (report : Report) (current : ReceiptStage) (caseId : String)
  | advance (report : Report) (current : ReceiptStage)
  deriving DecidableEq, Repr

/-- How a database operation goes. -/
inductive Fault
  | answered
  | lost
  | unanswered
  deriving DecidableEq, Repr

namespace Fault

/-- What a read returns; one that fails returns nothing. -/
def read {Row : Type} (fault : Fault) (found : Option Row) : Option Row :=
  if fault = answered then found else none

/-- The database after a write. -/
def write (fault : Fault) (before after : Database) : Database :=
  if fault = lost then before else after

end Fault

/-! ## Plans that are taken up -/

variable (json : JsonParser)

/-- A commit is taken up when its correlation describes it. -/
def takeUp (correlation : ReceiptCorrelation) (commit : Commit) : Option Task :=
  if commit.describedBy correlation then some (.accept correlation (.commit commit)) else none

/-- A response, once the case and its latest decision have been read. -/
def respond (event : NostrEvent) (correlation : ReceiptCorrelation)
    (caseRow : Option BrokerCaseRow) (latest : Option String) : Option Task :=
  match planActionResponse json correlation.caseId caseRow event.id event.content event.pubkey
      latest event.createdAt with
  | .error error => some (.accept correlation (.refuse (.orchestration error)))
  | .ok projection =>
      takeUp correlation (.response
        { eventId := event.id
          caseId := correlation.caseId
          requestEventId := (caseRow.bind BrokerCaseRow.nostrEventId).getD ""
          expectedState := (caseRow.map BrokerCaseRow.state).getD ""
          decisionId := projection.decisionId
          outcome := projection.outcome
          outcomeDetail := projection.outcomeDetail
          priorDecisionId := projection.priorDecisionId
          reasoning := projection.reasoning
          brokerPubkey := event.pubkey
          newState := projection.newState.asStr
          decidedAt := event.createdAt })

/-- A supersession, once its target and the case have been read. -/
def supersede (event : NostrEvent) (correlation : ReceiptCorrelation) (supersededEventId : String)
    (target : SupersededDecisionRow) (caseRow : Option BrokerCaseRow) (ranks : String → Nat) :
    Option Task :=
  match planSupersession json event.id supersededEventId event.content event.pubkey target
      (ranks target.brokerPubkey) (ranks event.pubkey) correlation.caseId caseRow
      event.createdAt with
  | .error error => some (.accept correlation (.refuse (.supersession error)))
  | .ok projection =>
      takeUp correlation (.supersession
        { eventId := event.id
          caseId := correlation.caseId
          supersededEventId
          supersededDecisionId := projection.supersededDecisionId
          expectedState := (caseRow.map BrokerCaseRow.state).getD ""
          decisionId := projection.decisionId
          outcome := projection.outcome
          outcomeDetail := projection.outcomeDetail
          reasoning := projection.reasoning
          brokerPubkey := event.pubkey
          decidedAt := event.createdAt })

/-- The case that an appeal names. -/
def appealedCase (event : NostrEvent) : String :=
  (tagValue event "case").getD ""

/-- An appeal, once the case and the cited decision have been read. -/
def takeAppeal (event : NostrEvent) (correlation : ReceiptCorrelation) (citedEventId : String)
    (caseRow : Option BrokerCaseRow) (citedCase : Option String) : Option Task :=
  match planAppeal event.pubkey (appealedCase event) caseRow citedCase with
  | .error refusal => some (.accept correlation (.refuse (.appeal refusal)))
  | .ok () =>
      takeUp correlation (.appeal
        { eventId := event.id
          caseId := appealedCase event
          appellant := event.pubkey
          citedEventId
          citedDecisionId := decisionIdForEvent citedEventId
          signedAt := event.createdAt })

/-- What follows a recorded acceptance, or a failure to record one. -/
def Work.next (eventId : String) (answer : Option AcceptOutcome) : Work → Option Task
  | .commit planned =>
      match answer with
      | none => none
      | some .fresh => some (.batch planned)
      | some (.replay stage _) => if stage.awaitsProjection then some (.batch planned) else none
  | .refuse error => some (.fail eventId error)
  | .replay => none

/-- What follows a batch that was answered. -/
def afterBatch (eventId : String) : Except ProjectionFailure Unit → Option Task
  | .ok () => none
  | .error error => some (.fail eventId error)

/-- A report, once the receipt and the case have been read. -/
def takeReport (report : Report) (current : ReceiptStage) (case : Option CaseRow)
    (latestOutcome : Option String) : Option Task :=
  let caller : ApplicationCaller :=
    { isAdmin := report.isAdmin
      isRegisteredAgent := report.isRegisteredAgent
      isCaseOwner := case.any fun row => eqIgnoreAsciiCase row.createdBy report.caller }
  match planApplicationAdvance current report.requested caller
      ((case.map CaseRow.state).getD "") latestOutcome with
  | .error _ => none
  | .ok () => some (.advance report current)

/-! ## Operations -/

/-- One operation of a task: the database after it and the task that remains. -/
def Task.step (db : Database) (fault : Fault) (now : Nat) (ranks : String → Nat) :
    Task → Database × Option Task
  | lookup event correlation route =>
      (db,
        if fault ≠ .answered then none
        else if db.stageOf event.id = some ReceiptStage.projectionCommitted.asStr then
          some (accept correlation .replay)
        else
          match route with
          | .response => some (readCase event correlation)
          | .supersession supersededEventId => some (readTarget event correlation supersededEventId)
          | .appeal citedEventId => some (readAppealed event correlation citedEventId))
  | readTarget event correlation supersededEventId =>
      (db,
        match fault.read (db.decisions.find? (decisionIdForEvent supersededEventId)) with
        | none => some (accept correlation (.refuse (.supersession .missingSupersededDecision)))
        | some target =>
            some (readSuperseded event correlation supersededEventId target.supersededRow))
  | readCase event correlation =>
      (db, some (readLatest event correlation
        (fault.read ((db.cases.find? correlation.caseId).map CaseRow.brokerCaseRow))))
  | readSuperseded event correlation supersededEventId target =>
      (db, supersede json event correlation supersededEventId target
        (fault.read ((db.cases.find? correlation.caseId).map CaseRow.brokerCaseRow)) ranks)
  | readAppealed event correlation citedEventId =>
      (db, some (readCited event correlation citedEventId
        (fault.read ((db.cases.find? (appealedCase event)).map CaseRow.brokerCaseRow))))
  | readLatest event correlation caseRow =>
      (db, respond json event correlation caseRow
        (fault.read (db.latestDecisionId correlation.caseId)))
  | readCited event correlation citedEventId caseRow =>
      (db, takeAppeal event correlation citedEventId caseRow
        (fault.read ((db.decisions.find? (decisionIdForEvent citedEventId)).map
          DecisionRow.caseId)))
  | accept correlation work =>
      let recorded := db.recordAccepted correlation now
      (fault.write db recorded.1, work.next correlation.eventId (fault.read recorded.2))
  | batch planned =>
      let result := runBatch planned.batch db
      (fault.write db result.1,
        if fault = .answered then afterBatch planned.eventId result.2
        else some (fail planned.eventId .batchFailed))
  | fail eventId error => (fault.write db (db.markProjectionFailed eventId error now), none)
  | readReceipt report =>
      (db, (fault.read (db.receipts.find? report.eventId)).bind fun row =>
        (ReceiptStage.parse row.stage).map fun current => readOutcome report current row.caseId)
  | readOutcome report current caseId =>
      (db,
        if fault ≠ .answered then none
        else
          takeReport report current (db.cases.find? caseId)
            ((db.latestDecision caseId).map DecisionRow.outcome))
  | advance report current =>
      (fault.write db (db.advanceStage report.eventId current report.requested report.caller
        report.acknowledgement now), none)

/-! ## The system -/

/-- The tables and the handlers in flight. -/
structure System where
  db : Database
  tasks : List Task

/-- What happens next. -/
inductive Move
  /-- A saved governance event is delivered, for the first time or again. -/
  | deliver (event : NostrEvent)
  /-- A request is projected; the stored event that its case points at has a
  time, unless it is gone. -/
  | request (row : CaseRow) (heldAt : Option Nat)
  /-- The sweep closes a case whose proposal is stale. -/
  | expire (caseId : String) (now : Nat)
  /-- A mutation owner reports a stage. -/
  | report (report : Report)
  /-- A task runs its next operation. -/
  | advance (index : Nat) (fault : Fault) (now : Nat) (ranks : String → Nat)

namespace System

/-- Nothing stored and nothing in flight. -/
def start : System :=
  ⟨Database.empty, []⟩

/-- The task that a delivery starts. -/
def delivered (event : NostrEvent) : Option Task :=
  (routeOf event).bind fun route =>
    (correlate json event).map fun correlation => .lookup event correlation route

def step (system : System) : Move → System
  | .deliver event => { system with tasks := system.tasks ++ (delivered json event).toList }
  | .request row heldAt => { system with db := system.db.upsertCase row heldAt }
  | .expire caseId now => { system with db := system.db.expireCase caseId now }
  | .report report => { system with tasks := system.tasks ++ [.readReceipt report] }
  | .advance index fault now ranks =>
      match system.tasks[index]? with
      | none => system
      | some task =>
          let result := task.step json system.db fault now ranks
          { db := result.1, tasks := system.tasks.eraseIdx index ++ result.2.toList }

/-- The system after some moves. -/
def after (moves : List Move) : System :=
  Lib.run (step json) start moves

end System

/-! ## A sample case -/

namespace Sample

/-- Sixty-four times one hexadecimal digit. -/
def hex (digit : Char) : String :=
  String.ofList (List.replicate 64 digit)

/-- The signed content of an approval. -/
def approval : String :=
  "\x7b\"action\":\"approve\",\"reasoning\":\"reviewed\"\x7d"

/-- A parser of that content. -/
def parser : JsonParser where
  parse content :=
    if content = approval then
      some (.object [("action", .string "approve"), ("reasoning", .string "reviewed")])
    else none

/-- A case that an agent has raised by a request. -/
def caseRow : CaseRow where
  id := "case-1"
  category := "manual_submission"
  state := "open"
  createdBy := hex 'a'
  assignedTo := none
  nostrEventId := some (hex 'b')
  fromShareState := none
  toShareState := none
  effectiveTier := none
  staleAfter := none
  updatedAt := 1700000000

/-- An admin approves the request. -/
def response (id : String) (createdAt : Nat) : NostrEvent where
  id := id
  pubkey := hex 'c'
  createdAt := createdAt
  kind := kindActionResponse
  tags := [["d", "case-1"], ["e", hex 'b', "", "request"]]
  content := approval
  sig := hex '0' ++ hex '0'

/-- The requester appeals against the decision of an event. -/
def appeal (id citedEventId : String) (createdAt : Nat) : NostrEvent where
  id := id
  pubkey := hex 'a'
  createdAt := createdAt
  kind := kindActionRequest
  tags := [["d", "appeal-1"], ["case", "case-1"], ["e", citedEventId, "", "appeal"]]
  content := ""
  sig := hex '0' ++ hex '0'

/-- The first task runs its next operation and is answered. -/
def turn : Move :=
  .advance 0 .answered 1700000100 fun _ => 1

/-- An event is delivered and projected to its end. -/
def projected (event : NostrEvent) : List Move :=
  .deliver event :: List.replicate 6 turn

/-- The agent reports a stage of an event, to its end. -/
def reported (eventId : String) (requested : ReceiptStage) : List Move :=
  .report
    { eventId
      requested
      caller := hex 'a'
      isAdmin := false
      isRegisteredAgent := true
      acknowledgement := none } :: List.replicate 3 turn

end Sample

end Governance
end NostrBbs
