import NostrBbs.Governance.Tables

/-!
# What a batch does

A batch whose first statement is not admitted writes nothing; one that is
admitted writes all of its rows.  These are the only two outcomes, and the answer
of the batch tells which.
-/

namespace NostrBbs
namespace Governance

open Relay (asF64)

variable {db : Database}

/-! ## Statements after an unchanged predecessor -/

theorem projectionReceipt_zero
    (projectedAt : Nat)
    (decisionId : Option String)
    (eventId : String) :
    projectionReceipt projectedAt decisionId eventId db 0 = some (db, 0) := by
  have unnamed : ∀ row ∈ db.receipts.rows, (row.eventId == eventId && (0 : Nat) == 1) = false := by
    simp
  unfold projectionReceipt
  dsimp only
  rw [Lib.Table.updateWhere_of_none _ _ unnamed]
  simp [Lib.Table.countWhere]

theorem moveCase_zero
    (state assignedTo caseId : String)
    (updatedAt : Nat) :
    moveCase state assignedTo updatedAt caseId db 0 = some (db, 0) := by
  have unnamed : ∀ row ∈ db.cases.rows, (row.id == caseId && (0 : Nat) == 1) = false := by
    simp
  unfold moveCase
  dsimp only
  rw [Lib.Table.updateWhere_of_none _ _ unnamed]
  simp [Lib.Table.countWhere]

theorem markSuperseded_zero (commit : SupersessionCommit) :
    commit.markSuperseded db 0 = some (db, 0) := by
  have unnamed : ∀ row ∈ db.decisions.rows,
      (row.decisionId == commit.supersededDecisionId && row.supersededBy == none &&
        (0 : Nat) == 1) = false := by
    simp
  unfold SupersessionCommit.markSuperseded
  dsimp only
  rw [Lib.Table.updateWhere_of_none _ _ unnamed]
  simp [Lib.Table.countWhere]

/-! ## Statements after a changed row -/

/-- A receipt that has been moved to `projection-committed`. -/
def ReceiptRow.committed (row : ReceiptRow) (projectedAt : Nat) (decisionId : Option String) :
    ReceiptRow :=
  { row with
    stage := ReceiptStage.projectionCommitted.asStr
    projectedAt := some (asF64 projectedAt)
    decisionId := decisionId
    stageError := none }

/-- A case that has been moved to a state by who decided. -/
def CaseRow.moved (row : CaseRow) (state assignedTo : String) (updatedAt : Nat) : CaseRow :=
  { row with
    state := state
    assignedTo := some assignedTo
    updatedAt := asF64 updatedAt }

@[simp] theorem eventId_committed
    (row : ReceiptRow)
    (projectedAt : Nat)
    (decisionId : Option String) :
    (row.committed projectedAt decisionId).eventId = row.eventId :=
  rfl

@[simp] theorem id_moved
    (row : CaseRow)
    (state assignedTo : String)
    (updatedAt : Nat) :
    (row.moved state assignedTo updatedAt).id = row.id :=
  rfl

/-- The receipt statement moves the one receipt of its event. -/
theorem projectionReceipt_one
    (db : Database)
    (projectedAt : Nat)
    (decisionId : Option String)
    {eventId : String}
    {receipt : ReceiptRow}
    (found : db.receipts.find? eventId = some receipt) :
    ∃ receipts, projectionReceipt projectedAt decisionId eventId db 1 =
        some ({ db with receipts := receipts }, 1) ∧
      ∀ wanted, receipts.find? wanted = (db.receipts.find? wanted).map fun row =>
        if row.eventId = eventId then row.committed projectedAt decisionId else row := by
  have isEvent := (Lib.Table.find?_eq_some_iff.mp found).2
  have one : db.receipts.countWhere (fun row => row.eventId == eventId && (1 : Nat) == 1) = 1 :=
    Lib.Table.countWhere_eq_one found (by simp [isEvent]) (by simp)
  refine ⟨db.receipts.updateWhere (fun row => row.eventId == eventId && (1 : Nat) == 1)
    (fun row => row.committed projectedAt decisionId)
    fun row => eventId_committed row projectedAt decisionId, ?_, ?_⟩
  · unfold projectionReceipt
    dsimp only
    rw [one]
    rfl
  · intro wanted
    rw [Lib.Table.find?_updateWhere]
    simp

/-- The case statement moves the one case of its id. -/
theorem moveCase_one
    (db : Database)
    (state assignedTo : String)
    (updatedAt : Nat)
    {caseId : String}
    {case : CaseRow}
    (found : db.cases.find? caseId = some case) :
    ∃ cases, moveCase state assignedTo updatedAt caseId db 1 =
        some ({ db with cases := cases }, 1) ∧
      ∀ wanted, cases.find? wanted = (db.cases.find? wanted).map fun row =>
        if row.id = caseId then row.moved state assignedTo updatedAt else row := by
  have isCase := (Lib.Table.find?_eq_some_iff.mp found).2
  have one : db.cases.countWhere (fun row => row.id == caseId && (1 : Nat) == 1) = 1 :=
    Lib.Table.countWhere_eq_one found (by simp [isCase]) (by simp)
  refine ⟨db.cases.updateWhere (fun row => row.id == caseId && (1 : Nat) == 1)
    (fun row => row.moved state assignedTo updatedAt)
    fun row => id_moved row state assignedTo updatedAt, ?_, ?_⟩
  · unfold moveCase
    dsimp only
    rw [one]
    rfl
  · intro wanted
    rw [Lib.Table.find?_updateWhere]
    simp

/-- A decision with its successor, when it is the one that a supersession
names. -/
def DecisionRow.markedBy (row : DecisionRow) (commit : SupersessionCommit) : DecisionRow :=
  if row.decisionId = commit.supersededDecisionId ∧ row.supersededBy = none then
    { row with supersededBy := some commit.decisionId }
  else row

@[simp] theorem decisionId_markedBy
    (row : DecisionRow)
    (commit : SupersessionCommit) :
    (row.markedBy commit).decisionId = row.decisionId := by
  unfold DecisionRow.markedBy
  split <;> rfl

/-- The mark lands on the one superseded decision. -/
theorem markSuperseded_one
    (db : Database)
    {commit : SupersessionCommit}
    {target : DecisionRow}
    (found : db.decisions.find? commit.supersededDecisionId = some target)
    (stands : target.supersededBy = none) :
    ∃ decisions, commit.markSuperseded db 1 = some ({ db with decisions := decisions }, 1) ∧
      decisions.rows = db.decisions.rows.map fun row => row.markedBy commit := by
  have isTarget := (Lib.Table.find?_eq_some_iff.mp found).2
  let named : DecisionRow → Bool := fun row =>
    row.decisionId == commit.supersededDecisionId && row.supersededBy == none && (1 : Nat) == 1
  have one : db.decisions.countWhere named = 1 :=
    Lib.Table.countWhere_eq_one found (by simp [named, isTarget, stands])
      (by simp +contextual [named])
  refine ⟨db.decisions.updateWhere named
    (fun row => { row with supersededBy := some commit.decisionId }) fun _ => rfl, ?_, ?_⟩
  · unfold SupersessionCommit.markSuperseded
    dsimp only
    rw [one]
  · unfold Lib.Table.updateWhere DecisionRow.markedBy
    apply List.map_congr_left
    intro row _
    simp [named]

/-! ## Plain decisions -/

/-- A plain decision took effect: its row, the state of its case and its receipt
together. -/
structure ProjectionCommit.TookEffect (commit : ProjectionCommit) (before after : Database) :
    Prop where
  admitted : commit.admitted before
  fresh : commit.decisionId ∉ before.decisions.rows.map DecisionRow.decisionId
  decisions : after.decisions.rows = before.decisions.rows ++ [commit.decisionRow]
  cases : ∀ wanted, after.cases.find? wanted = (before.cases.find? wanted).map fun row =>
    if row.id = commit.caseId then
      row.moved commit.newState commit.brokerPubkey commit.decidedAt
    else row
  receipts : ∀ wanted, after.receipts.find? wanted = (before.receipts.find? wanted).map fun row =>
    if row.eventId = commit.eventId then
      row.committed commit.decidedAt (some commit.decisionId)
    else row

/-- What admission to a plain decision finds. -/
theorem ProjectionCommit.of_admitted
    {commit : ProjectionCommit}
    (admitted : commit.admitted db) :
    (∃ case, db.cases.find? commit.caseId = some case ∧ case.state = commit.expectedState ∧
      case.nostrEventId = some commit.requestEventId ∧ case.state ∈ pendingStates) ∧
    db.latestDecisionId commit.caseId = commit.priorDecisionId ∧
    ∃ receipt, db.receipts.find? commit.eventId = some receipt ∧
      receipt.caseId = commit.caseId ∧ receipt.stage ∈ awaitingStages := by
  simp only [ProjectionCommit.admitted, Bool.and_eq_true, Option.any_eq_true, beq_iff_eq,
    List.contains_iff_mem] at admitted
  obtain ⟨⟨⟨case, found, ⟨state, request⟩, pending⟩, latest⟩, receipt, receiptFound,
    ⟨sameCase, -⟩, awaiting⟩ := admitted
  exact ⟨⟨case, found, state, request, pending⟩, latest, receipt, receiptFound, sameCase,
    awaiting⟩

/-- A plain decision that is admitted under a fresh id takes effect. -/
theorem ProjectionCommit.batch_admitted
    {commit : ProjectionCommit}
    (admitted : commit.admitted db)
    (fresh : commit.decisionId ∉ db.decisions.rows.map DecisionRow.decisionId) :
    ∃ after, runBatch commit.batch db = (after, .ok ()) ∧ commit.TookEffect db after := by
  obtain ⟨⟨case, caseFound, -⟩, -, receipt, receiptFound, -⟩ := commit.of_admitted admitted
  cases inserted : db.decisions.insert commit.decisionRow with
  | none => exact absurd (Lib.Table.insert_eq_none_iff.mp inserted) fresh
  | some decisions =>
      have rows := (Lib.Table.insert_eq_some inserted).2
      have first : commit.insertDecision db 0 =
          some ({ db with decisions := decisions }, 1) := by
        simp [insertDecision, admitted, inserted]
      obtain ⟨cases, second, casesMoved⟩ :=
        moveCase_one { db with decisions := decisions } commit.newState
          commit.brokerPubkey commit.decidedAt caseFound
      obtain ⟨receipts, third, receiptsMoved⟩ :=
        projectionReceipt_one { db with decisions := decisions, cases := cases }
          commit.decidedAt (some commit.decisionId) receiptFound
      refine ⟨⟨cases, decisions, receipts⟩, ?_, admitted, fresh, rows, casesMoved,
        receiptsMoved⟩
      simp [runBatch, batch, execute, first, second, third]

/-- The batch of a plain decision writes all of its rows or none. -/
theorem ProjectionCommit.batch_outcome
    (commit : ProjectionCommit)
    (db : Database) :
    (∃ error, runBatch commit.batch db = (db, .error error)) ∨
      ∃ after, runBatch commit.batch db = (after, .ok ()) ∧ commit.TookEffect db after := by
  by_cases admitted : commit.admitted db
  · by_cases fresh : commit.decisionId ∈ db.decisions.rows.map DecisionRow.decisionId
    · have taken : db.decisions.insert commit.decisionRow = none :=
        Lib.Table.insert_eq_none_iff.mpr fresh
      have failed : commit.insertDecision db 0 = none := by
        simp [insertDecision, admitted, taken]
      exact .inl ⟨.batchFailed, by simp [runBatch, batch, execute, failed]⟩
    · exact .inr (commit.batch_admitted admitted fresh)
  · have first : commit.insertDecision db 0 = some (db, 0) := by
      simp [insertDecision, admitted]
    refine .inl ⟨.conflict, ?_⟩
    simp [runBatch, batch, execute, first, moveCase_zero, projectionReceipt_zero]

/-! ## Supersessions -/

/-- A supersession took effect: its row, the mark on the decision it replaces,
the state of its case and its receipt together. -/
structure SupersessionCommit.TookEffect (commit : SupersessionCommit)
    (before after : Database) : Prop where
  admitted : commit.admitted before
  fresh : commit.decisionId ∉ before.decisions.rows.map DecisionRow.decisionId
  decisions : after.decisions.rows =
    (before.decisions.rows.map fun row => row.markedBy commit) ++ [commit.decisionRow]
  cases : ∀ wanted, after.cases.find? wanted = (before.cases.find? wanted).map fun row =>
    if row.id = commit.caseId then
      row.moved CaseState.superseded.asStr commit.brokerPubkey commit.decidedAt
    else row
  receipts : ∀ wanted, after.receipts.find? wanted = (before.receipts.find? wanted).map fun row =>
    if row.eventId = commit.eventId then
      row.committed commit.decidedAt (some commit.decisionId)
    else row

/-- What admission to a supersession finds. -/
theorem SupersessionCommit.of_admitted
    {commit : SupersessionCommit}
    (admitted : commit.admitted db) :
    (∃ case, db.cases.find? commit.caseId = some case ∧ case.state = commit.expectedState ∧
      case.state ∈ supersedableStates) ∧
    (∃ target, db.decisions.find? commit.supersededDecisionId = some target ∧
      target.caseId = commit.caseId ∧ target.supersededBy = none) ∧
    ∃ receipt, db.receipts.find? commit.eventId = some receipt ∧
      receipt.caseId = commit.caseId ∧ receipt.stage ∈ awaitingStages := by
  simp only [SupersessionCommit.admitted, Bool.and_eq_true, Option.any_eq_true, beq_iff_eq,
    List.contains_iff_mem] at admitted
  obtain ⟨⟨⟨case, found, state, supersedable⟩, target, targetFound, sameTarget, stands⟩,
    receipt, receiptFound, sameCase, awaiting⟩ := admitted
  exact ⟨⟨case, found, state, supersedable⟩, ⟨target, targetFound, sameTarget, stands⟩,
    receipt, receiptFound, sameCase, awaiting⟩

/-- A supersession that is admitted under a fresh id takes effect. -/
theorem SupersessionCommit.batch_admitted
    {commit : SupersessionCommit}
    (admitted : commit.admitted db)
    (fresh : commit.decisionId ∉ db.decisions.rows.map DecisionRow.decisionId) :
    ∃ after, runBatch commit.batch db = (after, .ok ()) ∧ commit.TookEffect db after := by
  obtain ⟨⟨case, caseFound, -⟩, ⟨target, targetFound, -, stands⟩, receipt, receiptFound, -⟩ :=
    commit.of_admitted admitted
  cases inserted : db.decisions.insert commit.decisionRow with
  | none => exact absurd (Lib.Table.insert_eq_none_iff.mp inserted) fresh
  | some decisions =>
      have rows := (Lib.Table.insert_eq_some inserted).2
      have distinctIds : commit.decisionId ≠ commit.supersededDecisionId := by
        intro same
        obtain ⟨targetHeld, isTarget⟩ := Lib.Table.find?_eq_some_iff.mp targetFound
        apply fresh
        exact List.mem_map.mpr ⟨target, targetHeld, isTarget.trans same.symm⟩
      have first : commit.insertDecision db 0 =
          some ({ db with decisions := decisions }, 1) := by
        simp [insertDecision, admitted, inserted]
      have targetAfter : decisions.find? commit.supersededDecisionId = some target := by
        have rowId : commit.decisionRow.decisionId = commit.decisionId := rfl
        rw [Lib.Table.find?_of_insert inserted, rowId, if_neg distinctIds, targetFound]
      obtain ⟨marked, second, markedRows⟩ :=
        markSuperseded_one { db with decisions := decisions } targetAfter stands
      obtain ⟨cases, third, casesMoved⟩ :=
        moveCase_one { db with decisions := marked } CaseState.superseded.asStr
          commit.brokerPubkey commit.decidedAt caseFound
      obtain ⟨receipts, fourth, receiptsMoved⟩ :=
        projectionReceipt_one { db with decisions := marked, cases := cases }
          commit.decidedAt (some commit.decisionId) receiptFound
      have ownRow : commit.decisionRow.markedBy commit = commit.decisionRow := by
        simp [DecisionRow.markedBy, decisionRow, distinctIds]
      refine ⟨⟨cases, marked, receipts⟩, ?_, admitted, fresh, ?_, casesMoved, receiptsMoved⟩
      · simp [runBatch, batch, execute, first, second, third, fourth]
      · rw [markedRows, rows, List.map_append, List.map_singleton, ownRow]

/-- The batch of a supersession writes all of its rows or none. -/
theorem SupersessionCommit.batch_outcome
    (commit : SupersessionCommit)
    (db : Database) :
    (∃ error, runBatch commit.batch db = (db, .error error)) ∨
      ∃ after, runBatch commit.batch db = (after, .ok ()) ∧ commit.TookEffect db after := by
  by_cases admitted : commit.admitted db
  · by_cases fresh : commit.decisionId ∈ db.decisions.rows.map DecisionRow.decisionId
    · have taken : db.decisions.insert commit.decisionRow = none :=
        Lib.Table.insert_eq_none_iff.mpr fresh
      have failed : commit.insertDecision db 0 = none := by
        simp [insertDecision, admitted, taken]
      exact .inl ⟨.batchFailed, by simp [runBatch, batch, execute, failed]⟩
    · exact .inr (commit.batch_admitted admitted fresh)
  · have first : commit.insertDecision db 0 = some (db, 0) := by
      simp [insertDecision, admitted]
    refine .inl ⟨.conflict, ?_⟩
    simp [runBatch, batch, execute, first, markSuperseded_zero, moveCase_zero,
      projectionReceipt_zero]

/-! ## Appeals -/

/-- The batch of an appeal leaves the decisions, and every receipt but its own. -/
theorem AppealCommit.batch_frame
    (commit : AppealCommit)
    (db : Database) :
    (runBatch commit.batch db).1.decisions = db.decisions ∧
      ∀ wanted, wanted ≠ commit.eventId →
        (runBatch commit.batch db).1.receipts.find? wanted = db.receipts.find? wanted := by
  refine ⟨rfl, ?_⟩
  intro wanted other
  have unchanged : ∀ changes : Nat, ∀ row,
      db.receipts.find? wanted = some row → (row.eventId == commit.eventId && changes == 1) = false := by
    intro changes row found
    have isWanted := (Lib.Table.find?_eq_some_iff.mp found).2
    simp [isWanted, other]
  simp only [runBatch, batch, execute, reopenCase, projectionReceipt, Option.bind_some,
    Option.map_some]
  rw [Lib.Table.find?_updateWhere]
  cases found : db.receipts.find? wanted with
  | none => rfl
  | some row => simp only [Option.map_some, unchanged _ row found, Bool.false_eq_true, if_false]

end Governance
end NostrBbs
