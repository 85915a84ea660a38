import NostrBbs.Governance.Broker
import NostrBbs.Lib.Utf8

/-!
# Plans of projections

What the relay derives from a signed response, supersession or appeal before it
writes anything: the correlation that its receipt keeps, and the decision that
its batch would commit.
-/

namespace NostrBbs
namespace Governance

open Relay (JsonValue NostrEvent Tag tagValue eqIgnoreAsciiCase asF64)

/-! ## Tags -/

def kindActionRequest : Nat := 31402
def kindActionResponse : Nat := 31403

/-- The second element of the first tag of a name. -/
def extractTag (tags : List Tag) (name : String) : Option String :=
  (tags.find? fun tag => tag.head? == some name).bind fun tag => tag[1]?

def extractDTag (tags : List Tag) : Option String :=
  extractTag tags "d"

/-- The event that the first `e` tag of a marker names. -/
def extractETagWithMarker (tags : List Tag) (marker : String) : Option String :=
  (tags.find? fun tag => tag.head? == some "e" && tag[3]? == some marker).bind fun tag => tag[1]?

def extractSupersedesTarget (tags : List Tag) : Option String :=
  extractETagWithMarker tags "supersedes"

def extractAppealTarget (tags : List Tag) : Option String :=
  extractETagWithMarker tags "appeal"

/-- The value of the first tag of a name and a marker. -/
def tagWithMarker (event : NostrEvent) (name marker : String) : Option String :=
  (event.tags.find? fun tag =>
    4 ≤ tag.length && tag.head? == some name && tag[3]? == some marker).map Relay.firstValue

/-- The value of the first tag of a name without a marker. -/
def unmarkedTag (event : NostrEvent) (name : String) : Option String :=
  (event.tags.find? fun tag =>
    Relay.isValued name tag && tag[3]?.all fun marker => marker == "").map Relay.firstValue

/-! ## Signed contents -/

/-- The parser of JSON texts that the relay uses. -/
structure JsonParser where
  parse : String → Option JsonValue

/-- A text field of an object, the last of its name. -/
def textField (value : JsonValue) (name : String) : Option String :=
  match value with
  | .object fields => (fields.reverse.lookup name).bind JsonValue.asStr
  | _ => none

variable (json : JsonParser)

/-- The outcome that a content carries. -/
def fromResponseContent (content : String) : Option DecisionOutcome :=
  (json.parse content).bind DecisionOutcome.fromJson

/-- The stated reason of a content, empty when there is none. -/
def reasoningOf (content : String) : String :=
  ((json.parse content).bind fun value => textField value "reasoning").getD ""

/-- Who resolved a case. -/
inductive Resolver
  | human (signer : String)
  | system (actor : String)
  deriving DecidableEq, Repr

def Resolver.isHuman : Resolver → Bool
  | human _ => true
  | system _ => false

/-- The resolver that a content declares: a named system actor, else its
signer. -/
def parseResolver (content signer : String) : Resolver :=
  match (json.parse content).bind fun value => textField value "decided_by" with
  | some actor =>
      if "system:".toList.isPrefixOf actor.toList then .system actor else .human signer
  | none => .human signer

inductive RiskTier
  | low
  | medium
  | high
  | critical
  deriving DecidableEq, Repr

/-- A persisted tier; an unknown one is medium. -/
def RiskTier.parse (text : String) : RiskTier :=
  if text = "low" then low
  else if text = "high" then high
  else if text = "critical" then critical
  else medium

def humanResolutionRequired (tier : RiskTier) : Bool :=
  tier == .high || tier == .critical

/-- A machine may not resolve a case of a tier. -/
def machineRefused (tier : Option String) (content signer : String) : Bool :=
  tier.any fun tier =>
    humanResolutionRequired (RiskTier.parse tier) && !(parseResolver json content signer).isHuman

/-! ## Correlation -/

/-- What a receipt binds a decision to. -/
structure ReceiptCorrelation where
  eventId : String
  kind : Nat
  caseId : String
  requestEventId : Option String
  signerPubkey : String
  decisionOutcome : Option String
  targetOperation : Option String
  supersedesEventId : Option String
  signedAt : Nat
deriving DecidableEq, Repr

/-- The correlation of an event, `none` when it names no case. -/
def correlate (event : NostrEvent) : Option ReceiptCorrelation :=
  match extractDTag event.tags with
  | none => none
  | some caseId =>
      if caseId = "" then none
      else
        some
          { eventId := event.id
            kind := event.kind
            caseId
            requestEventId :=
              (tagWithMarker event "e" "request").or
                ((extractAppealTarget event.tags).or (unmarkedTag event "e"))
            signerPubkey := event.pubkey
            decisionOutcome :=
              (fromResponseContent json event.content).map DecisionOutcome.actionStr
            targetOperation := tagValue event "op"
            supersedesEventId := extractSupersedesTarget event.tags
            signedAt := event.createdAt }

/-! ## Responses -/

/-- The columns of a case that a projection reads. -/
structure BrokerCaseRow where
  category : String
  state : String
  effectiveTier : Option String
  nostrEventId : Option String
  createdBy : String
  fromShareState : Option String
  toShareState : Option String
deriving DecidableEq, Repr

/-- The decision id of a governance event: its first 16 bytes. -/
def decisionIdForEvent (eventId : String) : String :=
  "dec-" ++ String.ofList (Lib.fitting eventId.toList 16)

/-- What a response would write. -/
structure ResponseProjection where
  decisionId : String
  outcome : String
  outcomeDetail : Option String
  priorDecisionId : Option String
  newState : CaseState
  reasoning : String
deriving DecidableEq, Repr

/-- The persisted states that a decision may meet. -/
def knownStates : List String :=
  ["open", "under_review", "reopened", "decided", "resolved", "rejected", "delegated",
    "promoted", "precedent", "closed", "superseded"]

def planActionResponse (caseId : String) (caseRow : Option BrokerCaseRow)
    (eventId content responderPubkey : String) (latestDecisionId : Option String) (now : Nat) :
    Except OrchestrationError ResponseProjection :=
  match fromResponseContent json content with
  | none => .error (.shareTransitionRejected .malformedResponse)
  | some outcome =>
      let reasoning := reasoningOf json content
      let decisionId := decisionIdForEvent eventId
      let tier := caseRow.bind BrokerCaseRow.effectiveTier
      if machineRefused json tier content responderPubkey then
        .error (.shareTransitionRejected (.humanRequired (tier.getD "")
          ((json.parse content).bind (fun value => textField value "decided_by") |>.getD "")))
      else
        match caseRow with
        | none => .error (.shareTransitionRejected .caseNotProjected)
        | some row =>
            if row.state ∉ knownStates then .error (.shareTransitionRejected .unknownState)
            else
              let snapshot : CaseSnapshot :=
                { id := caseId
                  category := CaseCategory.parse row.category
                  createdBy := row.createdBy
                  state := CaseState.parse row.state
                  fromState := row.fromShareState.bind ShareState.parse
                  toState := row.toShareState.bind ShareState.parse
                  latestDecisionId }
              match DecisionOrchestrator.decide (snapshot.hydrate now) decisionId outcome
                  responderPubkey reasoning now with
              | .error error => .error error
              | .ok (after, report) =>
                  .ok
                    { decisionId
                      outcome := outcome.actionStr
                      outcomeDetail := outcome.detail
                      priorDecisionId := report.entry.priorDecisionId
                      newState := after.state
                      reasoning }

/-! ## Supersessions -/

inductive SupersessionError
  | unauthorised (superseder : String)
  | malformedOutcome
  | missingReason
  | missingSupersededDecision
  | caseMismatch
  | targetAlreadySuperseded
  | stateNotSupersedable (state : String)
  | caseMissing
  | humanRequired
  | selfReview
  deriving DecidableEq, Repr

/-- The case states that a supersession may act on. -/
def supersedableStates : List String :=
  ["decided", "delegated", "promoted", "precedent", "superseded", "reopened"]

/-- The superseded decision, as a projection reads it. -/
structure SupersededDecisionRow where
  brokerPubkey : String
  caseId : String
  supersededBy : Option String
deriving DecidableEq, Repr

/-- What a supersession would write. -/
structure SupersessionProjection where
  decisionId : String
  supersededDecisionId : String
  outcome : String
  outcomeDetail : Option String
  reasoning : String
  newState : CaseState
deriving DecidableEq, Repr

/-- A refusal of the case aggregate, in the words of the projection. -/
def SupersessionError.ofCase : CaseError → SupersessionError
  | .unauthorisedSupersession superseder => unauthorised superseder
  | .missingSupersessionReason => missingReason
  | .selfReview _ => selfReview
  | _ => malformedOutcome

def planSupersession (supersedingEventId supersededEventId content supersederPubkey : String)
    (target : SupersededDecisionRow) (originalRank supersederRank : Nat) (caseId : String)
    (caseRow : Option BrokerCaseRow) (now : Nat) :
    Except SupersessionError SupersessionProjection :=
  if supersededEventId = "" then .error .missingSupersededDecision
  else
    match fromResponseContent json content, caseRow with
    | none, _ => .error .malformedOutcome
    | some _, none => .error .caseMissing
    | some outcome, some row =>
        let supersededDecisionId := decisionIdForEvent supersededEventId
        let reasoning := reasoningOf json content
        if target.caseId ≠ caseId then .error .caseMismatch
        else if target.supersededBy.isSome then .error .targetAlreadySuperseded
        else if row.state ∉ supersedableStates then .error (.stateNotSupersedable row.state)
        else if machineRefused json row.effectiveTier content supersederPubkey then
          .error .humanRequired
        else
          let authority := supersedeAuthority target.brokerPubkey supersederPubkey originalRank
            supersederRank
          let snapshot : CaseSnapshot :=
            { id := caseId
              category := CaseCategory.parse row.category
              createdBy := row.createdBy
              state := CaseState.parse row.state
              fromState := none
              toState := none
              latestDecisionId := some supersededDecisionId }
          match (snapshot.hydrate now).supersede (decisionIdForEvent supersedingEventId)
              supersededDecisionId outcome supersederPubkey reasoning authority now with
          | .error error => .error (.ofCase error)
          | .ok (after, _) =>
              .ok
                { decisionId := decisionIdForEvent supersedingEventId
                  supersededDecisionId
                  outcome := outcome.actionStr
                  outcomeDetail := outcome.detail
                  reasoning
                  newState := after.state }

/-! ## Appeals -/

inductive AppealRefusal
  | noStanding
  | targetMissing
  | targetMismatch
  | notAppealable (state : String)
  | caseMissing
  deriving DecidableEq, Repr

/-- The case states that an appeal may reopen. -/
def appealableStates : List String :=
  ["decided", "delegated", "promoted", "precedent", "superseded"]

def planAppeal (appellant caseId : String) (caseRow : Option BrokerCaseRow)
    (citedDecisionCaseId : Option String) : Except AppealRefusal Unit :=
  match caseRow with
  | none => .error .caseMissing
  | some row =>
      if !eqIgnoreAsciiCase row.createdBy appellant then .error .noStanding
      else
        match citedDecisionCaseId with
        | none => .error .targetMissing
        | some cited =>
            if cited ≠ caseId then .error .targetMismatch
            else if row.state ∉ appealableStates then .error (.notAppealable row.state)
            else .ok ()

/-! ## What a plan says -/

variable {json}

/-- A planned response has the id of its event, follows the latest decision, and
was planned on a case that was read in a state that is not terminal. -/
theorem planActionResponse_ok
    {caseId eventId content responder : String}
    {caseRow : Option BrokerCaseRow}
    {latest : Option String}
    {now : Nat}
    {projection : ResponseProjection}
    (planned : planActionResponse json caseId caseRow eventId content responder latest now =
      .ok projection) :
    projection.decisionId = decisionIdForEvent eventId ∧
      projection.priorDecisionId = latest ∧
      (∃ outcome : DecisionOutcome, projection.newState = outcome.newState) ∧
      ∃ row, caseRow = some row ∧ (CaseState.parse row.state).isTerminal = false := by
  unfold planActionResponse at planned
  split at planned
  · cases planned
  · rename_i outcome _
    dsimp only at planned
    split at planned
    · cases planned
    · split at planned
      · cases planned
      · split at planned
        · cases planned
        · split at planned
          · cases planned
          · rename_i after report decided
            obtain ⟨notTerminal, newState, prior⟩ := DecisionOrchestrator.decide_ok decided
            cases planned
            refine ⟨rfl, ?_, ⟨outcome, newState⟩, _, rfl, notTerminal⟩
            rw [latestDecisionId_hydrate] at prior
            exact prior

/-- A planned supersession has the id of its event, names the decision of the
event it supersedes, and was planned on a case that was read. -/
theorem planSupersession_ok
    {supersedingEventId supersededEventId content superseder caseId : String}
    {target : SupersededDecisionRow}
    {originalRank supersederRank now : Nat}
    {caseRow : Option BrokerCaseRow}
    {projection : SupersessionProjection}
    (planned : planSupersession json supersedingEventId supersededEventId content superseder
      target originalRank supersederRank caseId caseRow now = .ok projection) :
    projection.decisionId = decisionIdForEvent supersedingEventId ∧
      projection.supersededDecisionId = decisionIdForEvent supersededEventId ∧
      ∃ row, caseRow = some row := by
  unfold planSupersession at planned
  split at planned
  · cases planned
  · split at planned
    · cases planned
    · cases planned
    · dsimp only at planned
      split at planned
      · cases planned
      · split at planned
        · cases planned
        · split at planned
          · cases planned
          · split at planned
            · cases planned
            · split at planned
              · cases planned
              · cases planned
                exact ⟨rfl, rfl, _, rfl⟩

end Governance
end NostrBbs
