import NostrBbs.Governance.Stages
import NostrBbs.Lib.Table

/-!
# Side receipts

What a sweep records about a case beside the decisions on it: one receipt a case and
stage, which the primary key sees to.
-/

namespace NostrBbs
namespace Governance

/-- A row of `case_side_receipts`. -/
structure SideReceipt where
  caseId : String
  stage : ReceiptStage
  recordedAt : Nat
  detail : String
deriving DecidableEq, Repr

def SideReceipt.key (receipt : SideReceipt) : String × ReceiptStage :=
  (receipt.caseId, receipt.stage)

abbrev SideReceipts := Lib.Table SideReceipt SideReceipt.key

/-- How many cases one tick of a sweep handles. -/
def ageingBatchSize : Nat := 200

namespace SideReceipts

/-- A receipt is inserted, or ignored where the case has one of its stage. -/
def record (receipts : SideReceipts) (receipt : SideReceipt) : SideReceipts :=
  (receipts.insert receipt).getD receipts

/-- A case has a receipt of a stage. -/
def has (receipts : SideReceipts) (caseId : String) (stage : ReceiptStage) : Bool :=
  (receipts.find? (caseId, stage)).isSome

variable {receipts : SideReceipts} {receipt : SideReceipt} {caseId : String}
  {stage : ReceiptStage}

/-- A recorded receipt is there, and every other is as before. -/
theorem has_record :
    (receipts.record receipt).has caseId stage ↔
      receipts.has caseId stage ∨ receipt.caseId = caseId ∧ receipt.stage = stage := by
  unfold record has
  cases inserted : receipts.insert receipt with
  | none =>
      have held := Lib.Table.insert_eq_none_iff.mp inserted
      rw [Option.getD_none]
      constructor
      · exact .inl
      · rintro (has | ⟨rfl, rfl⟩)
        · exact has
        · rw [Option.isSome_iff_ne_none, ne_eq, Lib.Table.find?_eq_none_iff, not_not]
          exact held
  | some after =>
      rw [Option.getD_some, Lib.Table.find?_of_insert inserted]
      split
      · rename_i isKey
        rw [SideReceipt.key, Prod.mk.injEq] at isKey
        simp [isKey]
      · rename_i otherKey
        rw [SideReceipt.key, Prod.mk.injEq] at otherKey
        simp [otherKey]

/-- A case never has two receipts of one stage. -/
theorem receipts_le_one
    (receipts : SideReceipts)
    (caseId : String)
    (stage : ReceiptStage) :
    (receipts.rows.filter fun receipt => receipt.key = (caseId, stage)).length ≤ 1 := by
  rw [receipts.filter_key]
  cases receipts.find? (caseId, stage) with
  | none => exact Nat.zero_le 1
  | some receipt => exact le_refl 1

end SideReceipts

end Governance
end NostrBbs
