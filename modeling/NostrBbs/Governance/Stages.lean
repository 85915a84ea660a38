import Mathlib

/-!
# Receipt stages

How far a governance decision has got, from its signature to what became of the
approved act, and the ladder on which a receipt advances.
-/

namespace NostrBbs
namespace Governance

/-- The stage that a receipt records. -/
inductive ReceiptStage
  | signed
  | relayAccepted
  | projectionCommitted
  | projectionFailed
  | consumerReceived
  | applied
  | notApplied
  | appliedManually
  | escalatedOnAge
  | expired
  deriving DecidableEq, Repr

namespace ReceiptStage

def asStr : ReceiptStage → String
  | signed => "signed"
  | relayAccepted => "relay-accepted"
  | projectionCommitted => "projection-committed"
  | projectionFailed => "projection-failed"
  | consumerReceived => "consumer-received"
  | applied => "applied"
  | notApplied => "not-applied"
  | appliedManually => "applied-manually"
  | escalatedOnAge => "escalated-on-age"
  | expired => "expired"

def parse (text : String) : Option ReceiptStage :=
  if text = "signed" then some signed
  else if text = "relay-accepted" then some relayAccepted
  else if text = "projection-committed" then some projectionCommitted
  else if text = "projection-failed" then some projectionFailed
  else if text = "consumer-received" then some consumerReceived
  else if text = "applied" then some applied
  else if text = "not-applied" then some notApplied
  else if text = "applied-manually" then some appliedManually
  else if text = "escalated-on-age" then some escalatedOnAge
  else if text = "expired" then some expired
  else none

/-- The position on the ladder; the error state and the side receipts have
none. -/
def ladderRank : ReceiptStage → Option Nat
  | signed => some 0
  | relayAccepted => some 1
  | projectionCommitted => some 2
  | consumerReceived => some 3
  | applied => some 4
  | notApplied => some 4
  | appliedManually => some 4
  | projectionFailed => none
  | escalatedOnAge => none
  | expired => none

/-- A stage that the owner of the mutation reports. -/
def isApplicationStage : ReceiptStage → Bool
  | consumerReceived => true
  | applied => true
  | notApplied => true
  | appliedManually => true
  | _ => false

/-- A further projection attempt is warranted. -/
def awaitsProjection : ReceiptStage → Bool
  | signed => true
  | relayAccepted => true
  | projectionFailed => true
  | _ => false

/-- Every stage reads back from its text. -/
@[simp] theorem parse_asStr (stage : ReceiptStage) : parse stage.asStr = some stage := by
  cases stage <;> decide

/-- A text reads as a stage only when it is the stage's own. -/
theorem asStr_of_parse
    {text : String}
    {stage : ReceiptStage}
    (read : parse text = some stage) :
    text = stage.asStr := by
  unfold parse at read
  repeat' split at read
  all_goals first
    | (cases read; assumption)
    | cases read

end ReceiptStage

/-- Why a stage was not advanced. -/
inductive StageAdvanceError
  | notAnApplicationStage
  | notProjected
  | regression
  | missingConsumerReceived
  deriving DecidableEq, Repr

/-- Whether a receipt at one stage may advance to another. -/
def canAdvanceStage (current next : ReceiptStage) : Except StageAdvanceError Unit :=
  if !next.isApplicationStage then .error .notAnApplicationStage
  else
    match current.ladderRank with
    | none => .error .notProjected
    | some currentRank =>
        if currentRank < ReceiptStage.projectionCommitted.ladderRank.getD 2 then
          .error .notProjected
        else if next.ladderRank.getD 0 ≤ currentRank then .error .regression
        else if (next = .applied ∨ next = .notApplied) ∧ current ≠ .consumerReceived then
          .error .missingConsumerReceived
        else .ok ()

/-- An advance that is permitted climbs the ladder, from a committed projection
at least. -/
theorem canAdvanceStage_ok
    {current next : ReceiptStage}
    (permitted : canAdvanceStage current next = .ok ()) :
    ∃ currentRank nextRank, current.ladderRank = some currentRank ∧
      next.ladderRank = some nextRank ∧ 2 ≤ currentRank ∧ currentRank < nextRank := by
  have ranked : next.isApplicationStage → ∃ rank, next.ladderRank = some rank := by
    cases next <;> simp [ReceiptStage.isApplicationStage, ReceiptStage.ladderRank]
  unfold canAdvanceStage at permitted
  split at permitted
  · cases permitted
  · rename_i isApplication
    obtain ⟨nextRank, nextRanked⟩ := ranked (by simpa using isApplication)
    split at permitted
    · cases permitted
    · rename_i currentRank currentRanked
      have committedRank : ReceiptStage.projectionCommitted.ladderRank.getD 2 = 2 := rfl
      rw [committedRank, nextRanked, Option.getD_some] at permitted
      split at permitted
      · cases permitted
      · split at permitted
        · cases permitted
        · exact ⟨currentRank, nextRank, currentRanked, nextRanked, by omega, by omega⟩

/-! ## Reports of the mutation owner -/

/-- Who reports a stage. -/
structure ApplicationCaller where
  isAdmin : Bool
  isRegisteredAgent : Bool
  isCaseOwner : Bool
deriving DecidableEq, Repr

inductive ApplicationRefusal
  | unknownStage
  | notAuthorised
  | notTheCaseOwner
  | manualRequiresAdmin
  | manualRequiresApprovedCase
  | regression (error : StageAdvanceError)
  deriving DecidableEq, Repr

/-- Whether a caller may report a stage for a receipt: authority first, then what
a manual continuation presupposes, then the ladder. -/
def planApplicationAdvance (current requested : ReceiptStage) (caller : ApplicationCaller)
    (caseState : String) (latestOutcome : Option String) : Except ApplicationRefusal Unit :=
  if !requested.isApplicationStage then .error .unknownStage
  else if !caller.isAdmin && !caller.isRegisteredAgent then .error .notAuthorised
  else if !caller.isAdmin && !caller.isCaseOwner then .error .notTheCaseOwner
  else if requested = .appliedManually ∧ caller.isAdmin = false then .error .manualRequiresAdmin
  else if requested = .appliedManually ∧
      ¬((caseState = "decided" ∨ caseState = "resolved") ∧ latestOutcome = some "approve") then
    .error .manualRequiresApprovedCase
  else
    match canAdvanceStage current requested with
    | .error error => .error (.regression error)
    | .ok () => .ok ()

/-- A report that is permitted climbs the ladder. -/
theorem planApplicationAdvance_ok
    {current requested : ReceiptStage}
    {caller : ApplicationCaller}
    {caseState : String}
    {latestOutcome : Option String}
    (permitted : planApplicationAdvance current requested caller caseState latestOutcome =
      .ok ()) :
    canAdvanceStage current requested = .ok () := by
  unfold planApplicationAdvance at permitted
  split at permitted
  · cases permitted
  · split at permitted
    · cases permitted
    · split at permitted
      · cases permitted
      · split at permitted
        · cases permitted
        · split at permitted
          · cases permitted
          · split at permitted
            · cases permitted
            · assumption

end Governance
end NostrBbs
