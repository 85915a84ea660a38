import NostrBbs.Governance.Broker

/-!
# Refused decisions

The orchestrator records a decision on the case it is given and plans the share
transition of that case afterwards.  A refused decision should leave the case as it was.
-/

namespace NostrBbs
namespace Governance

/-- A decision on a case where it stands: the case afterwards, and the report or the
refusal. -/
def DecisionOrchestrator.decideOn (case : BrokerCase) (decisionId : String)
    (outcome : DecisionOutcome) (broker reasoning : String) (now : Nat) :
    BrokerCase × Except OrchestrationError DecisionReport :=
  match case.recordDecision decisionId outcome broker reasoning now with
  | .error error => (case, .error (.case error))
  | .ok (after, entry) =>
      if after.category = .contributorMeshShare ∧ outcome.shares then
        -- the decision is on the case already
        match buildSharePlan after broker with
        | .error error => (after, .error error)
        | .ok plan => (after, .ok ⟨after.id, entry, plan⟩)
      else (after, .ok ⟨after.id, entry, none⟩)

/-- The entry of a decision on a case. -/
def BrokerCase.entryOf (case : BrokerCase) (decisionId : String) (outcome : DecisionOutcome)
    (broker reasoning : String) (now : Nat) : DecisionHistoryEntry where
  decisionId := decisionId
  outcome := outcome
  brokerPubkey := broker
  decidedAt := now
  priorDecisionId := case.latestDecisionId
  reasoning := reasoning

/-- A case with one more decision, in the state that its outcome leads to. -/
def BrokerCase.withEntry (case : BrokerCase) (entry : DecisionHistoryEntry) : BrokerCase :=
  { case with
    history := case.history ++ [entry]
    state := entry.outcome.newState
    updatedAt := entry.decidedAt }

/-- A refused decision changes nothing, and one that is made appends its entry. -/
structure Atomic (case : BrokerCase) (decisionId : String) (outcome : DecisionOutcome)
    (broker reasoning : String) (now : Nat) : Prop where
  refused : ∀ error,
    (DecisionOrchestrator.decideOn case decisionId outcome broker reasoning now).2 = .error error →
      (DecisionOrchestrator.decideOn case decisionId outcome broker reasoning now).1 = case
  made : ∀ report,
    (DecisionOrchestrator.decideOn case decisionId outcome broker reasoning now).2 = .ok report →
      (DecisionOrchestrator.decideOn case decisionId outcome broker reasoning now).1 =
          case.withEntry (case.entryOf decisionId outcome broker reasoning now) ∧
        report.entry = case.entryOf decisionId outcome broker reasoning now

/-! ## Recording -/

/-- What stops a decision from being recorded. -/
def BrokerCase.refusal (case : BrokerCase) (outcome : DecisionOutcome) (broker : String) :
    Option CaseError :=
  if broker = case.createdBy then some (.selfReview broker)
  else if case.state.isTerminal then some (.alreadyTerminal case.state)
  else outcome.missingDetail

theorem BrokerCase.recordDecision_eq
    (case : BrokerCase)
    (decisionId broker reasoning : String)
    (outcome : DecisionOutcome)
    (now : Nat) :
    case.recordDecision decisionId outcome broker reasoning now =
      (case.refusal outcome broker).elim
        (.ok (case.withEntry (case.entryOf decisionId outcome broker reasoning now),
          case.entryOf decisionId outcome broker reasoning now))
        .error := by
  unfold recordDecision refusal
  split
  · rfl
  · split
    · rfl
    · cases outcome.missingDetail with
      | none => rfl
      | some missing => rfl

/-- An outcome that shares a case lacks no detail. -/
theorem DecisionOutcome.missingDetail_of_shares
    {outcome : DecisionOutcome}
    (shares : outcome.shares = true) :
    outcome.missingDetail = none := by
  cases outcome with
  | approve => rfl
  | promote iri => rfl
  | reject => cases shares
  | amend diff => cases shares
  | delegate delegateTo => cases shares
  | demote iri => cases shares
  | precedent scope => cases shares

/-! ## Share plans -/

/-- The share transition of a case is not given in full, or goes forward. -/
def BrokerCase.SharesForward (case : BrokerCase) : Prop :=
  ∀ fromShare ∈ case.fromState, ∀ toShare ∈ case.toState, fromShare.canAdvanceTo toShare = true

theorem buildSharePlan_of_forward
    {case : BrokerCase}
    (forward : case.SharesForward)
    (approvedBy : String) :
    ∃ plan, buildSharePlan case approvedBy = .ok plan := by
  unfold buildSharePlan
  cases fromGiven : case.fromState with
  | none => exact ⟨none, rfl⟩
  | some fromShare =>
      cases toGiven : case.toState with
      | none => exact ⟨none, rfl⟩
      | some toShare =>
          have advances := forward fromShare fromGiven toShare toGiven
          exact ⟨some ⟨case.id, fromShare, toShare, approvedBy⟩, if_pos advances⟩

theorem buildSharePlan_of_not_forward
    {case : BrokerCase}
    (notForward : ¬case.SharesForward)
    (approvedBy : String) :
    ∃ error, buildSharePlan case approvedBy = .error error := by
  unfold BrokerCase.SharesForward at notForward
  push Not at notForward
  obtain ⟨fromShare, fromGiven, toShare, toGiven, stays⟩ := notForward
  rw [Option.mem_def] at fromGiven toGiven
  unfold buildSharePlan
  rw [fromGiven, toGiven]
  exact ⟨.shareTransitionRejected (.notForward fromShare toShare), if_neg stays⟩

/-! ## Deciding -/

/-- Someone who may decide the case approves or promotes a mesh share whose transition does
not go forward. -/
def PlanFails (case : BrokerCase) (outcome : DecisionOutcome) (broker : String) : Prop :=
  case.category = .contributorMeshShare ∧ outcome.shares = true ∧ ¬case.SharesForward ∧
    broker ≠ case.createdBy ∧ case.state.isTerminal = false

/-- A decision that cannot be recorded changes nothing. -/
theorem atomic_of_refusal
    {case : BrokerCase}
    {outcome : DecisionOutcome}
    {broker : String}
    {error : CaseError}
    (isRefusal : case.refusal outcome broker = some error)
    (decisionId reasoning : String)
    (now : Nat) :
    Atomic case decisionId outcome broker reasoning now := by
  have decided : DecisionOrchestrator.decideOn case decisionId outcome broker reasoning now =
      (case, .error (.case error)) := by
    unfold DecisionOrchestrator.decideOn
    rw [BrokerCase.recordDecision_eq, isRefusal]
    rfl
  constructor
  · intro _ _
    rw [decided]
  · intro report made
    rw [decided] at made
    cases made

/-- A decision that can be recorded is all or nothing unless its share plan fails. -/
theorem atomic_iff_of_recorded
    {case : BrokerCase}
    {outcome : DecisionOutcome}
    {broker : String}
    (isRecorded : case.refusal outcome broker = none)
    (decisionId reasoning : String)
    (now : Nat) :
    Atomic case decisionId outcome broker reasoning now ↔
      ¬(case.category = .contributorMeshShare ∧ outcome.shares = true ∧
        ¬case.SharesForward) := by
  have decided : DecisionOrchestrator.decideOn case decisionId outcome broker reasoning now =
      if case.category = .contributorMeshShare ∧ outcome.shares then
        (case.withEntry (case.entryOf decisionId outcome broker reasoning now),
          (buildSharePlan (case.withEntry (case.entryOf decisionId outcome broker reasoning now))
            broker).map
              (⟨case.id, case.entryOf decisionId outcome broker reasoning now, ·⟩))
      else
        (case.withEntry (case.entryOf decisionId outcome broker reasoning now),
          .ok ⟨case.id, case.entryOf decisionId outcome broker reasoning now, none⟩) := by
    unfold DecisionOrchestrator.decideOn
    rw [BrokerCase.recordDecision_eq, isRecorded]
    dsimp only [Option.elim, BrokerCase.withEntry]
    split
    · cases buildSharePlan _ broker with
      | error error => rfl
      | ok plan => rfl
    · rfl
  have changes : case.withEntry (case.entryOf decisionId outcome broker reasoning now) ≠ case := by
    intro same
    have lengths := congrArg (fun case => case.history.length) same
    simp [BrokerCase.withEntry] at lengths
  by_cases planned : case.category = .contributorMeshShare ∧ outcome.shares = true
  · rw [if_pos planned] at decided
    by_cases forward : case.SharesForward
    · obtain ⟨plan, built⟩ : ∃ plan, buildSharePlan (case.withEntry
          (case.entryOf decisionId outcome broker reasoning now)) broker = .ok plan :=
        buildSharePlan_of_forward forward broker
      rw [built] at decided
      refine iff_of_true ⟨?_, ?_⟩ (fun fails => fails.2.2 forward)
      · intro error refused
        rw [decided] at refused
        cases refused
      · intro report made
        rw [decided] at made ⊢
        cases made
        exact ⟨rfl, rfl⟩
    · obtain ⟨error, built⟩ : ∃ error, buildSharePlan (case.withEntry
          (case.entryOf decisionId outcome broker reasoning now)) broker = .error error :=
        buildSharePlan_of_not_forward forward broker
      rw [built] at decided
      refine iff_of_false ?_ (fun holds => holds ⟨planned.1, planned.2, forward⟩)
      intro atomic
      have unchanged := atomic.refused error (by rw [decided]; rfl)
      rw [decided] at unchanged
      exact changes unchanged
  · rw [if_neg planned] at decided
    refine iff_of_true ⟨?_, ?_⟩ (fun fails => planned ⟨fails.1, fails.2.1⟩)
    · intro error refused
      rw [decided] at refused
      cases refused
    · intro report made
      rw [decided] at made ⊢
      cases made
      exact ⟨rfl, rfl⟩

/-- A decision is all or nothing exactly when it is not one that is recorded and whose
share plan fails. -/
theorem decides_atomically_iff
    (case : BrokerCase)
    (decisionId broker reasoning : String)
    (outcome : DecisionOutcome)
    (now : Nat) :
    Atomic case decisionId outcome broker reasoning now ↔ ¬PlanFails case outcome broker := by
  unfold PlanFails
  cases refusal : case.refusal outcome broker with
  | some error =>
      refine iff_of_true (atomic_of_refusal refusal decisionId reasoning now) ?_
      rintro ⟨-, shares, -, notCreator, notTerminal⟩
      unfold BrokerCase.refusal at refusal
      rw [if_neg notCreator, notTerminal, if_neg Bool.false_ne_true,
        DecisionOutcome.missingDetail_of_shares shares] at refusal
      cases refusal
  | none =>
      rw [atomic_iff_of_recorded refusal]
      have notCreator : broker ≠ case.createdBy := by
        intro creator
        unfold BrokerCase.refusal at refusal
        rw [if_pos creator] at refusal
        cases refusal
      have notTerminal : case.state.isTerminal = false := by
        by_contra terminal
        unfold BrokerCase.refusal at refusal
        rw [if_neg notCreator, if_pos (Bool.of_not_eq_false terminal)] at refusal
        cases refusal
      constructor
      · rintro holds ⟨isShare, shares, notForward, -, -⟩
        exact holds ⟨isShare, shares, notForward⟩
      · rintro holds ⟨isShare, shares, notForward⟩
        exact holds ⟨isShare, shares, notForward, notCreator, notTerminal⟩

/-- A case about a share that would go back from the mesh to a team. -/
def narrowedShare : BrokerCase where
  id := "case-1"
  category := .contributorMeshShare
  fromState := some .mesh
  toState := some .team
  state := .underReview
  createdBy := "contributor"
  updatedAt := 0
  history := []

/-- The approval of such a share is refused, and stands on the case. -/
theorem refused_approval_stands :
    ¬Atomic narrowedShare "dec-1" .approve "broker" "" 1 := by
  intro atomic
  have unchanged := atomic.refused (.shareTransitionRejected (.notForward .mesh .team)) rfl
  exact absurd (congrArg BrokerCase.state unchanged) (by decide)

end Governance
end NostrBbs
