import NostrBbs.Relay.Filter

/-!
# Broker cases

The case aggregate: its states, the outcomes of decisions, and what a decision
or a supersession does to a case.
-/

namespace NostrBbs
namespace Governance

open Relay (JsonValue)

/-! ## Values -/

inductive CaseCategory
  | contributorMeshShare
  | workflowReview
  | policyException
  | trustAlert
  | manualSubmission
  | knowledgeEnrichment
  deriving DecidableEq, Repr

/-- A persisted category; an unknown one is a manual submission. -/
def CaseCategory.parse (text : String) : CaseCategory :=
  if text = "contributor_mesh_share" then contributorMeshShare
  else if text = "workflow_review" then workflowReview
  else if text = "policy_exception" then policyException
  else if text = "trust_alert" then trustAlert
  else if text = "knowledge_enrichment" then knowledgeEnrichment
  else manualSubmission

inductive ShareState
  | privateShare
  | team
  | mesh
  deriving DecidableEq, Repr

namespace ShareState

def parse (text : String) : Option ShareState :=
  if text = "private" then some privateShare
  else if text = "team" then some team
  else if text = "mesh" then some mesh
  else none

def canAdvanceTo : ShareState → ShareState → Bool
  | privateShare, team => true
  | team, mesh => true
  | privateShare, mesh => true
  | _, _ => false

end ShareState

inductive CaseState
  | «open»
  | underReview
  | decided
  | delegated
  | promoted
  | precedent
  | closed
  | superseded
  | reopened
  deriving DecidableEq, Repr

namespace CaseState

/-- No plain decision is recorded on a case in such a state. -/
def isTerminal : CaseState → Bool
  | decided => true
  | delegated => true
  | promoted => true
  | precedent => true
  | closed => true
  | superseded => true
  | _ => false

def asStr : CaseState → String
  | «open» => "open"
  | underReview => "under_review"
  | decided => "decided"
  | delegated => "delegated"
  | promoted => "promoted"
  | precedent => "precedent"
  | closed => "closed"
  | superseded => "superseded"
  | reopened => "reopened"

/-- A persisted state; an unrecognised one is open. -/
def parse (text : String) : CaseState :=
  if text = "under_review" then underReview
  else if text = "decided" ∨ text = "resolved" ∨ text = "rejected" then decided
  else if text = "delegated" then delegated
  else if text = "promoted" then promoted
  else if text = "precedent" then precedent
  else if text = "closed" then closed
  else if text = "superseded" then superseded
  else if text = "reopened" then reopened
  else «open»

@[simp] theorem parse_asStr (state : CaseState) : parse state.asStr = state := by
  cases state <;> decide

end CaseState

/-! ## Outcomes -/

/-- What a human decided about a case. -/
inductive DecisionOutcome
  | approve
  | reject
  | amend (diff : String)
  | delegate (delegateTo : String)
  | promote (iri : String)
  | demote (iri : String)
  | precedent (scope : String)
  deriving DecidableEq, Repr

namespace DecisionOutcome

def actionStr : DecisionOutcome → String
  | approve => "approve"
  | reject => "reject"
  | amend _ => "amend"
  | delegate _ => "delegate"
  | promote _ => "promote"
  | demote _ => "demote"
  | precedent _ => "precedent"

/-- The typed detail of an outcome. -/
def detail : DecisionOutcome → Option String
  | approve => none
  | reject => none
  | amend diff => some diff
  | delegate delegateTo => some delegateTo
  | promote iri => some iri
  | demote iri => some iri
  | precedent scope => some scope

/-- The outcome of an action, with its detail read by field name. -/
def ofAction (action : String) (field : String → Option String) : Option DecisionOutcome :=
  if action = "approve" then some approve
  else if action = "reject" then some reject
  else if action = "amend" then (field "diff").map amend
  else if action = "delegate" then (field "delegate_to").map delegate
  else if action = "promote" then (field "iri").map promote
  else if action = "demote" then (field "iri").map demote
  else if action = "precedent" then (field "scope").map precedent
  else none

/-- The value of a field that is given once. -/
def onlyField (fields : List (String × JsonValue)) (name : String) : Option JsonValue :=
  match fields.filter fun field => field.1 == name with
  | [field] => some field.2
  | _ => none

/-- An outcome read from its tagged form: an object with an action, or an array
that begins with one and has the detail after it. -/
def fromJson : JsonValue → Option DecisionOutcome
  | .object fields =>
      ((onlyField fields "action").bind JsonValue.asStr).bind fun action =>
        ofAction action fun name => (onlyField fields name).bind JsonValue.asStr
  | .array (.string action :: [.string detail]) => ofAction action fun _ => some detail
  | .array (.string action :: _) => ofAction action fun _ => none
  | _ => none

/-- The case state that a plain decision leads to. -/
def newState : DecisionOutcome → CaseState
  | approve => .decided
  | reject => .decided
  | amend _ => .decided
  | demote _ => .decided
  | delegate _ => .delegated
  | promote _ => .promoted
  | precedent _ => .precedent

end DecisionOutcome

/-! ## Authority -/

inductive SupersedeAuthority
  | originalSigner
  | higherRole
  | unauthorised
  deriving DecidableEq, Repr

def SupersedeAuthority.isAuthorised : SupersedeAuthority → Bool
  | originalSigner => true
  | higherRole => true
  | unauthorised => false

/-- A superseder is the original signer or of a strictly higher rank. -/
def supersedeAuthority (originalSigner superseder : String) (originalRank supersederRank : Nat) :
    SupersedeAuthority :=
  if superseder = originalSigner then .originalSigner
  else if originalRank < supersederRank then .higherRole
  else .unauthorised

/-! ## Cases -/

inductive CaseError
  | selfReview (broker : String)
  | alreadyTerminal (state : CaseState)
  | invalidTransition (previous next : CaseState)
  | missingAmendmentDiff
  | missingDelegateTarget
  | unauthorisedSupersession (superseder : String)
  | missingSupersessionReason
  deriving DecidableEq, Repr

/-- An entry of a case's decision history. -/
structure DecisionHistoryEntry where
  decisionId : String
  outcome : DecisionOutcome
  brokerPubkey : String
  decidedAt : Nat
  priorDecisionId : Option String
  reasoning : String
deriving DecidableEq, Repr

/-- The parts of a case that its transitions read and write. -/
structure BrokerCase where
  id : String
  category : CaseCategory
  fromState : Option ShareState
  toState : Option ShareState
  state : CaseState
  createdBy : String
  updatedAt : Nat
  history : List DecisionHistoryEntry
deriving DecidableEq, Repr

/-- White space as texts are trimmed of it. -/
def isWhitespace (char : Char) : Bool :=
  let code := char.toNat
  (9 ≤ code && code ≤ 13) || code == 0x20 || code == 0x85 || code == 0xA0 || code == 0x1680 ||
    (0x2000 ≤ code && code ≤ 0x200A) || code == 0x2028 || code == 0x2029 || code == 0x202F ||
    code == 0x205F || code == 0x3000

/-- A text that is empty once it is trimmed. -/
def isBlank (text : String) : Bool :=
  text.toList.all isWhitespace

/-- The detail that an outcome lacks. -/
def DecisionOutcome.missingDetail : DecisionOutcome → Option CaseError
  | amend diff => if isBlank diff then some .missingAmendmentDiff else none
  | delegate delegateTo => if isBlank delegateTo then some .missingDelegateTarget else none
  | _ => none

namespace BrokerCase

def latestDecisionId (case : BrokerCase) : Option String :=
  case.history.getLast?.map DecisionHistoryEntry.decisionId

/-- A plain decision: it follows the latest one and resolves the case. -/
def recordDecision (case : BrokerCase) (decisionId : String) (outcome : DecisionOutcome)
    (broker reasoning : String) (now : Nat) :
    Except CaseError (BrokerCase × DecisionHistoryEntry) :=
  if broker = case.createdBy then .error (.selfReview broker)
  else if case.state.isTerminal then .error (.alreadyTerminal case.state)
  else
    match outcome.missingDetail with
    | some missing => .error missing
    | none =>
        let entry : DecisionHistoryEntry :=
          { decisionId
            outcome
            brokerPubkey := broker
            decidedAt := now
            priorDecisionId := case.latestDecisionId
            reasoning }
        .ok ({ case with
          history := case.history ++ [entry]
          state := outcome.newState
          updatedAt := now }, entry)

/-- A supersession of a prior decision: it names that one, needs authority and a
reason, and does not read the state. -/
def supersede (case : BrokerCase) (supersedingDecisionId supersededDecisionId : String)
    (outcome : DecisionOutcome) (superseder reason : String) (authority : SupersedeAuthority)
    (now : Nat) : Except CaseError (BrokerCase × DecisionHistoryEntry) :=
  if !authority.isAuthorised then .error (.unauthorisedSupersession superseder)
  else if isBlank reason then .error .missingSupersessionReason
  else if superseder = case.createdBy then .error (.selfReview superseder)
  else
    match outcome.missingDetail with
    | some missing => .error missing
    | none =>
        let entry : DecisionHistoryEntry :=
          { decisionId := supersedingDecisionId
            outcome
            brokerPubkey := superseder
            decidedAt := now
            priorDecisionId := some supersededDecisionId
            reasoning := reason }
        .ok ({ case with
          history := case.history ++ [entry]
          state := .superseded
          updatedAt := now }, entry)

end BrokerCase

/-! ## The orchestrator -/

/-- A share transition that an approval plans. -/
structure ShareTransitionPlan where
  caseId : String
  fromShare : ShareState
  toShare : ShareState
  approvedBy : String
deriving DecidableEq, Repr

/-- Why a share transition, or the response itself, was rejected. -/
inductive Rejection
  | malformedResponse
  | humanRequired (tier : String) (resolver : String)
  | unknownState
  | caseNotProjected
  | notForward (previous next : ShareState)
  deriving DecidableEq, Repr

inductive OrchestrationError
  | case (error : CaseError)
  | shareTransitionRejected (reason : Rejection)
  deriving DecidableEq, Repr

def buildSharePlan (case : BrokerCase) (approvedBy : String) :
    Except OrchestrationError (Option ShareTransitionPlan) :=
  match case.fromState, case.toState with
  | some fromShare, some toShare =>
      if fromShare.canAdvanceTo toShare then .ok (some ⟨case.id, fromShare, toShare, approvedBy⟩)
      else .error (.shareTransitionRejected (.notForward fromShare toShare))
  | _, _ => .ok none

/-- An outcome that shares what a case is about. -/
def DecisionOutcome.shares : DecisionOutcome → Bool
  | approve => true
  | promote _ => true
  | _ => false

/-- What deciding a case reports. -/
structure DecisionReport where
  caseId : String
  entry : DecisionHistoryEntry
  sharePlan : Option ShareTransitionPlan
deriving DecidableEq, Repr

/-- A decision on a case, with the share transition that it plans. -/
def DecisionOrchestrator.decide (case : BrokerCase) (decisionId : String) (outcome : DecisionOutcome)
    (broker reasoning : String) (now : Nat) :
    Except OrchestrationError (BrokerCase × DecisionReport) :=
  match case.recordDecision decisionId outcome broker reasoning now with
  | .error error => .error (.case error)
  | .ok (after, entry) =>
      if after.category = .contributorMeshShare ∧ outcome.shares then
        match buildSharePlan after broker with
        | .error error => .error error
        | .ok plan => .ok (after, ⟨after.id, entry, plan⟩)
      else .ok (after, ⟨after.id, entry, none⟩)

/-- The parts of a persisted case that the orchestrator reads. -/
structure CaseSnapshot where
  id : String
  category : CaseCategory
  createdBy : String
  state : CaseState
  fromState : Option ShareState
  toState : Option ShareState
  latestDecisionId : Option String
deriving DecidableEq, Repr

/-- The case of a snapshot; the latest decision is all of its history. -/
def CaseSnapshot.hydrate (snapshot : CaseSnapshot) (now : Nat) : BrokerCase where
  id := snapshot.id
  category := snapshot.category
  fromState := snapshot.fromState
  toState := snapshot.toState
  state := snapshot.state
  createdBy := snapshot.createdBy
  updatedAt := now
  history :=
    snapshot.latestDecisionId.toList.map fun prior =>
      { decisionId := prior
        outcome := .approve
        brokerPubkey := ""
        decidedAt := 0
        priorDecisionId := none
        reasoning := "" }

/-! ## What a decision does -/

theorem BrokerCase.recordDecision_ok
    {case after : BrokerCase}
    {decisionId broker reasoning : String}
    {outcome : DecisionOutcome}
    {now : Nat}
    {entry : DecisionHistoryEntry}
    (recorded : case.recordDecision decisionId outcome broker reasoning now = .ok (after, entry)) :
    case.state.isTerminal = false ∧ after.state = outcome.newState ∧
      entry.priorDecisionId = case.latestDecisionId := by
  unfold recordDecision at recorded
  split at recorded
  · cases recorded
  · split at recorded
    · cases recorded
    · rename_i notTerminal
      split at recorded
      · cases recorded
      · cases recorded
        exact ⟨by simpa using notTerminal, rfl, rfl⟩

/-- A decision that is made resolves a case that was not terminal, and follows
its latest decision. -/
theorem DecisionOrchestrator.decide_ok
    {case after : BrokerCase}
    {decisionId broker reasoning : String}
    {outcome : DecisionOutcome}
    {now : Nat}
    {report : DecisionReport}
    (decided : decide case decisionId outcome broker reasoning now = .ok (after, report)) :
    case.state.isTerminal = false ∧ after.state = outcome.newState ∧
      report.entry.priorDecisionId = case.latestDecisionId := by
  unfold decide at decided
  split at decided
  · cases decided
  · rename_i recordedCase entry recorded
    have spec := BrokerCase.recordDecision_ok recorded
    split at decided
    · split at decided
      · cases decided
      · cases decided
        exact spec
    · cases decided
      exact spec

@[simp] theorem latestDecisionId_hydrate
    (snapshot : CaseSnapshot)
    (now : Nat) :
    (snapshot.hydrate now).latestDecisionId = snapshot.latestDecisionId := by
  cases latest : snapshot.latestDecisionId <;>
    simp [CaseSnapshot.hydrate, BrokerCase.latestDecisionId, latest]

end Governance
end NostrBbs
