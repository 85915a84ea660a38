import NostrBbs.Governance.ExactlyOnce

/-!
# The history of a case

The decisions of a case form one line when each follows the decision that it
marked as superseded, and the last one is the only decision that is not marked.
A supersession extends the line.  A plain decision starts one, and starts a
second one on a case that has been decided and reopened.
-/

namespace NostrBbs
namespace Governance

open Relay (NostrEvent)

/-! ## Lines of decisions -/

/-- Decisions in lines: at most one of a case is not marked, each case with a
decision has one that is not, and each prior decision is marked by the one that
follows it. -/
structure Linked (rows : List DecisionRow) : Prop where
  unique : ∀ first ∈ rows, ∀ second ∈ rows, first.caseId = second.caseId →
    first.supersededBy = none → second.supersededBy = none → first = second
  effective : ∀ row ∈ rows, ∃ last ∈ rows, last.caseId = row.caseId ∧ last.supersededBy = none
  marked : ∀ row ∈ rows, ∀ prior, row.priorDecisionId = some prior →
    ∃ target ∈ rows, target.decisionId = prior ∧ target.supersededBy = some row.decisionId

theorem linked_nil : Linked [] where
  unique := by simp
  effective := by simp
  marked := by simp

/-- A decision without a prior one starts the line of a case without
decisions. -/
theorem Linked.start
    {rows : List DecisionRow}
    (linked : Linked rows)
    {row : DecisionRow}
    (firstOfCase : ∀ other ∈ rows, other.caseId ≠ row.caseId)
    (noPrior : row.priorDecisionId = none)
    (notMarked : row.supersededBy = none) :
    Linked (rows ++ [row]) where
  unique := by
    intro first firstHeld second secondHeld sameCase firstStands secondStands
    rcases List.mem_append.mp firstHeld with firstOld | firstNew <;>
      rcases List.mem_append.mp secondHeld with secondOld | secondNew
    · exact linked.unique first firstOld second secondOld sameCase firstStands secondStands
    · rw [List.mem_singleton.mp secondNew] at sameCase
      exact absurd sameCase (firstOfCase first firstOld)
    · rw [List.mem_singleton.mp firstNew] at sameCase
      exact absurd sameCase.symm (firstOfCase second secondOld)
    · exact (List.mem_singleton.mp firstNew).trans (List.mem_singleton.mp secondNew).symm
  effective := by
    intro other held
    rcases List.mem_append.mp held with old | new
    · obtain ⟨last, lastHeld, sameCase, stands⟩ := linked.effective other old
      exact ⟨last, List.mem_append_left _ lastHeld, sameCase, stands⟩
    · rw [List.mem_singleton.mp new]
      exact ⟨row, by simp, rfl, notMarked⟩
  marked := by
    intro other held prior isPrior
    rcases List.mem_append.mp held with old | new
    · obtain ⟨target, targetHeld, isTarget, marks⟩ := linked.marked other old prior isPrior
      exact ⟨target, List.mem_append_left _ targetHeld, isTarget, marks⟩
    · rw [List.mem_singleton.mp new, noPrior] at isPrior
      cases isPrior

section

variable (row : DecisionRow) (commit : SupersessionCommit)

@[simp] theorem caseId_markedBy : (row.markedBy commit).caseId = row.caseId := by
  unfold DecisionRow.markedBy
  split <;> rfl

@[simp] theorem priorDecisionId_markedBy :
    (row.markedBy commit).priorDecisionId = row.priorDecisionId := by
  unfold DecisionRow.markedBy
  split <;> rfl

variable {row}

/-- A mark is never overwritten. -/
theorem markedBy_of_marked
    {successor : String}
    (marked : row.supersededBy = some successor) :
    row.markedBy commit = row := by
  unfold DecisionRow.markedBy
  rw [if_neg]
  simp [marked]

/-- A decision that is not marked after a supersession was not marked before and
is not the one superseded. -/
theorem stands_of_markedBy
    (stands : (row.markedBy commit).supersededBy = none) :
    row.supersededBy = none ∧ row.decisionId ≠ commit.supersededDecisionId := by
  unfold DecisionRow.markedBy at stands
  split at stands
  · cases stands
  · rename_i unnamed
    refine ⟨stands, ?_⟩
    intro isTarget
    exact unnamed ⟨isTarget, stands⟩

end

/-! ## Supersessions of the last decision -/

section

variable {rows : List DecisionRow} {commit : SupersessionCommit} {target : DecisionRow}

/-- No old decision of the case stands after its last one has been marked. -/
theorem Linked.not_stands_of_markedBy
    (linked : Linked rows)
    (held : target ∈ rows)
    (isTarget : target.decisionId = commit.supersededDecisionId)
    (sameCase : target.caseId = commit.caseId)
    (stands : target.supersededBy = none)
    {row : DecisionRow}
    (rowHeld : row ∈ rows)
    (ofCase : row.caseId = commit.caseId) :
    (row.markedBy commit).supersededBy ≠ none := by
  intro unmarked
  obtain ⟨stood, other⟩ := stands_of_markedBy commit unmarked
  have same := linked.unique row rowHeld target held (ofCase.trans sameCase.symm) stood stands
  exact other (same ▸ isTarget)

theorem Linked.unique_extend
    (linked : Linked rows)
    (noneStands : ∀ row ∈ rows, row.caseId = commit.caseId →
      (row.markedBy commit).supersededBy ≠ none)
    {first second : DecisionRow}
    (firstHeld : first ∈ (rows.map fun row => row.markedBy commit) ++ [commit.decisionRow])
    (secondHeld : second ∈ (rows.map fun row => row.markedBy commit) ++ [commit.decisionRow])
    (sameCase : first.caseId = second.caseId)
    (firstStands : first.supersededBy = none)
    (secondStands : second.supersededBy = none) :
    first = second := by
  rcases List.mem_append.mp firstHeld with firstOld | firstNew <;>
    rcases List.mem_append.mp secondHeld with secondOld | secondNew
  · obtain ⟨firstRow, firstRowHeld, rfl⟩ := List.mem_map.mp firstOld
    obtain ⟨secondRow, secondRowHeld, rfl⟩ := List.mem_map.mp secondOld
    rw [caseId_markedBy, caseId_markedBy] at sameCase
    have same := linked.unique firstRow firstRowHeld secondRow secondRowHeld sameCase
      (stands_of_markedBy commit firstStands).1 (stands_of_markedBy commit secondStands).1
    rw [same]
  · obtain ⟨firstRow, firstRowHeld, rfl⟩ := List.mem_map.mp firstOld
    rw [caseId_markedBy, List.mem_singleton.mp secondNew] at sameCase
    exact absurd firstStands (noneStands firstRow firstRowHeld sameCase)
  · obtain ⟨secondRow, secondRowHeld, rfl⟩ := List.mem_map.mp secondOld
    rw [caseId_markedBy, List.mem_singleton.mp firstNew] at sameCase
    exact absurd secondStands (noneStands secondRow secondRowHeld sameCase.symm)
  · exact (List.mem_singleton.mp firstNew).trans (List.mem_singleton.mp secondNew).symm

theorem Linked.effective_extend
    (linked : Linked rows)
    (ofTarget : ∀ row ∈ rows, row.decisionId = commit.supersededDecisionId →
      row.caseId = commit.caseId)
    {other : DecisionRow}
    (otherHeld : other ∈ (rows.map fun row => row.markedBy commit) ++ [commit.decisionRow]) :
    ∃ last ∈ (rows.map fun row => row.markedBy commit) ++ [commit.decisionRow],
      last.caseId = other.caseId ∧ last.supersededBy = none := by
  by_cases ofCase : other.caseId = commit.caseId
  · exact ⟨commit.decisionRow, by simp, ofCase.symm, rfl⟩
  · rcases List.mem_append.mp otherHeld with old | new
    · obtain ⟨row, rowHeld, rfl⟩ := List.mem_map.mp old
      rw [caseId_markedBy] at ofCase ⊢
      obtain ⟨last, lastHeld, lastCase, lastStands⟩ := linked.effective row rowHeld
      have untouched : last.markedBy commit = last := by
        unfold DecisionRow.markedBy
        rw [if_neg]
        rintro ⟨isTarget, -⟩
        exact ofCase (lastCase.symm.trans (ofTarget last lastHeld isTarget))
      exact ⟨last, List.mem_append_left _ (List.mem_map.mpr ⟨last, lastHeld, untouched⟩),
        lastCase, lastStands⟩
    · rw [List.mem_singleton.mp new] at ofCase
      exact absurd rfl ofCase

theorem Linked.marked_extend
    (linked : Linked rows)
    (held : target ∈ rows)
    (isTarget : target.decisionId = commit.supersededDecisionId)
    (stands : target.supersededBy = none)
    {other : DecisionRow}
    (otherHeld : other ∈ (rows.map fun row => row.markedBy commit) ++ [commit.decisionRow])
    {prior : String}
    (isPrior : other.priorDecisionId = some prior) :
    ∃ before ∈ (rows.map fun row => row.markedBy commit) ++ [commit.decisionRow],
      before.decisionId = prior ∧ before.supersededBy = some other.decisionId := by
  rcases List.mem_append.mp otherHeld with old | new
  · obtain ⟨row, rowHeld, rfl⟩ := List.mem_map.mp old
    rw [priorDecisionId_markedBy] at isPrior
    rw [decisionId_markedBy]
    obtain ⟨before, beforeHeld, isBefore, marks⟩ := linked.marked row rowHeld prior isPrior
    have untouched := markedBy_of_marked commit marks
    exact ⟨before, List.mem_append_left _ (List.mem_map.mpr ⟨before, beforeHeld, untouched⟩),
      isBefore, marks⟩
  · rw [List.mem_singleton.mp new] at isPrior ⊢
    cases isPrior
    refine ⟨target.markedBy commit, ?_, ?_, ?_⟩
    · exact List.mem_append_left _ (List.mem_map.mpr ⟨target, held, rfl⟩)
    · rw [decisionId_markedBy, isTarget]
    · unfold DecisionRow.markedBy
      rw [if_pos ⟨isTarget, stands⟩]
      rfl

/-- A supersession of the last decision extends the line of its case. -/
theorem Linked.extend
    (linked : Linked rows)
    (distinct : (rows.map DecisionRow.decisionId).Nodup)
    (held : target ∈ rows)
    (isTarget : target.decisionId = commit.supersededDecisionId)
    (sameCase : target.caseId = commit.caseId)
    (stands : target.supersededBy = none) :
    Linked ((rows.map fun row => row.markedBy commit) ++ [commit.decisionRow]) := by
  have ofTarget : ∀ row ∈ rows, row.decisionId = commit.supersededDecisionId →
      row.caseId = commit.caseId := by
    intro row rowHeld isRow
    have same : row = target :=
      List.inj_on_of_nodup_map distinct rowHeld held (isRow.trans isTarget.symm)
    exact same ▸ sameCase
  have noneStands : ∀ row ∈ rows, row.caseId = commit.caseId →
      (row.markedBy commit).supersededBy ≠ none :=
    fun row rowHeld ofCase =>
      linked.not_stands_of_markedBy held isTarget sameCase stands rowHeld ofCase
  exact
    { unique := fun first firstHeld second secondHeld =>
        linked.unique_extend noneStands firstHeld secondHeld
      effective := fun other otherHeld => linked.effective_extend ofTarget otherHeld
      marked := fun other otherHeld prior isPrior =>
        linked.marked_extend held isTarget stands otherHeld isPrior }

end

/-! ## The history of the tables -/

namespace Database

/-- Decisions of one case follow different decisions, and a case that has been
decided has one decision at most that is not marked as superseded. -/
structure Linear (db : Database) : Prop where
  priors : ∀ first ∈ db.decisions.rows, ∀ second ∈ db.decisions.rows,
    first.caseId = second.caseId → ∀ prior, first.priorDecisionId = some prior →
    second.priorDecisionId = some prior → first = second
  effective : ∀ caseId state, db.stateOf caseId = some state → state ∈ appealableStates →
    ∀ first ∈ db.decisions.rows, ∀ second ∈ db.decisions.rows, first.caseId = caseId →
    second.caseId = caseId → first.supersededBy = none → second.supersededBy = none →
    first = second

theorem linear_of_linked
    {db : Database}
    (linked : Linked db.decisions.rows) :
    db.Linear where
  priors := by
    intro first firstHeld second secondHeld _ prior firstPrior secondPrior
    obtain ⟨firstTarget, firstTargetHeld, isFirst, firstMarks⟩ :=
      linked.marked first firstHeld prior firstPrior
    obtain ⟨secondTarget, secondTargetHeld, isSecond, secondMarks⟩ :=
      linked.marked second secondHeld prior secondPrior
    have sameTarget : firstTarget = secondTarget :=
      db.decisions.eq_of_key firstTargetHeld secondTargetHeld (isFirst.trans isSecond.symm)
    rw [sameTarget, secondMarks, Option.some.injEq] at firstMarks
    exact db.decisions.eq_of_key firstHeld secondHeld firstMarks.symm
  effective := by
    intro caseId _ _ _ first firstHeld second secondHeld firstCase secondCase
    exact linked.unique first firstHeld second secondHeld (firstCase.trans secondCase.symm)

end Database

namespace System

/-- The histories of all cases are linear. -/
def Linear (system : System) : Prop :=
  system.db.Linear

/-- A supersession that is recorded by a move is recorded against the one decision
of its case that is not marked. -/
def SupersedesEffective (system : System) (move : Move) : Prop :=
  ∀ commit, system.write move = some (.batch (.supersession commit)) →
    commit.admitted system.db → commit.decisionId ∉ system.db.decisionIds →
    ∀ row ∈ system.db.decisions.rows, row.caseId = commit.caseId → row.supersededBy = none →
      row.decisionId = commit.supersededDecisionId

/-- A plain decision that is recorded by a move is the first one of its case. -/
def FirstDecision (system : System) (move : Move) : Prop :=
  ∀ commit, system.write move = some (.batch (.response commit)) →
    commit.admitted system.db → commit.decisionId ∉ system.db.decisionIds →
    system.db.decisionsOf commit.caseId = []

end System

/-! ## Steps -/

section

variable {json : JsonParser} {system : System} {move : Move}

/-- A write other than a batch leaves the decisions. -/
theorem decisions_apply
    (db : Database)
    {write : Write}
    (noBatch : ∀ commit, write ≠ .batch commit) :
    (write.apply db).decisions = db.decisions := by
  cases write with
  | accept correlation now =>
      simp only [Write.apply, Database.recordAccepted]
      split <;> rfl
  | batch commit => exact absurd rfl (noBatch commit)
  | fail eventId error now => rfl
  | advance report current now => rfl
  | request row heldAt =>
      simp only [Write.apply, Database.upsertCase]
      split <;> rfl
  | expire caseId now => rfl

/-- The first decision of a case starts its line. -/
theorem linked_response
    {before after : Database}
    {commit : ProjectionCommit}
    (linked : Linked before.decisions.rows)
    (effect : commit.TookEffect before after)
    (noDecision : before.decisionsOf commit.caseId = []) :
    Linked after.decisions.rows := by
  rw [effect.decisions]
  obtain ⟨-, latest, -⟩ := commit.of_admitted effect.admitted
  apply linked.start
  · intro other held ofCase
    have listed : other ∈ before.decisionsOf commit.caseId :=
      List.mem_filter.mpr ⟨held, beq_iff_eq.mpr ofCase⟩
    rw [noDecision] at listed
    cases listed
  · have noLatest : before.latestDecisionId commit.caseId = none := by
      simp [Database.latestDecisionId, Database.latestDecision, noDecision]
    exact latest.symm.trans noLatest
  · rfl

/-- A supersession extends the line of its case. -/
theorem linked_supersession
    {before after : Database}
    {commit : SupersessionCommit}
    (linked : Linked before.decisions.rows)
    (effect : commit.TookEffect before after) :
    Linked after.decisions.rows := by
  rw [effect.decisions]
  obtain ⟨-, ⟨target, found, sameCase, stands⟩, -⟩ := commit.of_admitted effect.admitted
  obtain ⟨held, isTarget⟩ := Lib.Table.find?_eq_some_iff.mp found
  exact linked.extend before.decisions.distinct held isTarget sameCase stands

/-- Lines are kept by every move that records no second plain decision. -/
theorem linked_step
    (linked : Linked system.db.decisions.rows)
    (first : system.FirstDecision move) :
    Linked (system.step json move).db.decisions.rows := by
  apply System.step_db_keeps (fun db => Linked db.decisions.rows) system move linked
  intro write written
  by_cases isBatch : ∃ commit, write = .batch commit
  · obtain ⟨commit, rfl⟩ := isBatch
    cases commit with
    | response commit =>
        rcases commit.batch_outcome system.db with ⟨error, failed⟩ | ⟨after, ran, effect⟩
        · simp only [Write.apply, Commit.batch, failed]
          exact linked
        · simp only [Write.apply, Commit.batch, ran]
          exact linked_response linked effect (first commit written effect.admitted effect.fresh)
    | supersession commit =>
        rcases commit.batch_outcome system.db with ⟨error, failed⟩ | ⟨after, ran, effect⟩
        · simp only [Write.apply, Commit.batch, failed]
          exact linked
        · simp only [Write.apply, Commit.batch, ran]
          exact linked_supersession linked effect
    | appeal commit =>
        have same : (Write.batch (.appeal commit)).apply system.db = (runBatch commit.batch
          system.db).1 := rfl
        rw [same, (commit.batch_frame system.db).1]
        exact linked
  · have noBatch : ∀ commit, write ≠ .batch commit := fun commit same => isBatch ⟨commit, same⟩
    rw [decisions_apply system.db noBatch]
    exact linked

/-- In lines, a supersession can only name the last decision. -/
theorem supersedesEffective_of_linked
    (linked : Linked system.db.decisions.rows) :
    system.SupersedesEffective move := by
  intro commit _ admitted _ row rowHeld ofCase stands
  obtain ⟨-, ⟨target, found, sameCase, targetStands⟩, -⟩ := commit.of_admitted admitted
  obtain ⟨held, isTarget⟩ := Lib.Table.find?_eq_some_iff.mp found
  have same := linked.unique row rowHeld target held (ofCase.trans sameCase.symm) stands
    targetStands
  rw [same, isTarget]

/-- A plain decision resolves its case. -/
theorem newState_mem_appealableStates (outcome : DecisionOutcome) :
    outcome.newState.asStr ∈ appealableStates := by
  cases outcome <;> simp [DecisionOutcome.newState, CaseState.asStr, appealableStates]

/-- A second plain decision leaves two decisions of a decided case unmarked. -/
theorem firstDecision_of_linear
    (linked : Linked system.db.decisions.rows)
    (known : ∀ task ∈ system.tasks, task.Known fun _ => True)
    (linear : (system.step json move).Linear) :
    system.FirstDecision move := by
  intro commit written admitted fresh
  obtain ⟨event, -, planned⟩ := System.known_write known written
  obtain ⟨after, ran, effect⟩ := commit.batch_admitted admitted fresh
  have isAfter : (system.step json move).db = after := by
    rw [System.step_db, written]
    exact congrArg Prod.fst ran
  unfold System.Linear at linear
  rw [isAfter] at linear
  by_contra decided
  obtain ⟨row, rowListed⟩ := List.exists_mem_of_ne_nil _ decided
  obtain ⟨rowHeld, rowCase⟩ := List.mem_filter.mp rowListed
  obtain ⟨last, lastHeld, lastCase, lastStands⟩ := linked.effective row rowHeld
  have ofCase : last.caseId = commit.caseId := lastCase.trans (by simpa using rowCase)
  obtain ⟨⟨case, caseFound, -⟩, -⟩ := commit.of_admitted admitted
  have isCase := (Lib.Table.find?_eq_some_iff.mp caseFound).2
  have newState : after.stateOf commit.caseId = some commit.newState := by
    simp [Database.stateOf, effect.cases, caseFound, isCase, CaseRow.moved]
  have resolved : commit.newState ∈ appealableStates := by
    cases planned with
    | response _ _ _ isOutcome =>
        obtain ⟨outcome, isState⟩ := isOutcome
        rw [isState]
        exact newState_mem_appealableStates outcome
  have same := linear.effective commit.caseId commit.newState newState resolved last
    (effect.decisions ▸ List.mem_append_left _ lastHeld) commit.decisionRow
    (effect.decisions ▸ by simp) ofCase rfl lastStands rfl
  apply fresh
  exact List.mem_map.mpr ⟨last, lastHeld, congrArg DecisionRow.decisionId same⟩

end

/-! ## The result -/

/-- Histories are linear and supersessions are recorded against the one effective
decision in exactly the runs in which each plain decision that is recorded is the
first one of its case. -/
theorem linear_iff_firstDecisions
    (json : JsonParser)
    (moves : List Move) :
    (Lib.Visits (System.step json) System.Linear System.start moves ∧
        Lib.Along (System.step json) System.SupersedesEffective System.start moves) ↔
      Lib.Along (System.step json) System.FirstDecision System.start moves := by
  let lines : System → Prop := fun system => Linked system.db.decisions.rows
  let known : System → Move → Prop := fun system _ =>
    ∀ task ∈ system.tasks, task.Known fun _ => True
  have assumed : Lib.Along (System.step json) known System.start moves := by
    rw [Lib.along_iff_prefixes]
    intro taken move _ task inFlight
    exact (known_of_mem_tasks taken task inFlight).mono fun _ _ => trivial
  have preserved : ∀ system move, lines system → known system move →
      system.FirstDecision move → lines (system.step json move) :=
    fun _ _ linked _ first => linked_step linked first
  have necessary : ∀ system move, lines system → known system move →
      (system.step json move).Linear → system.FirstDecision move :=
    fun _ _ linked isKnown linear => firstDecision_of_linear linked isKnown linear
  have kept : ∀ system move, lines system → system.FirstDecision move →
      lines (system.step json move) :=
    fun _ _ linked first => linked_step linked first
  have concludes : ∀ system move, lines system → system.FirstDecision move →
      system.SupersedesEffective move :=
    fun _ _ linked _ => supersedesEffective_of_linked linked
  have initially : lines System.start := linked_nil
  have visits := Lib.visits_iff_along preserved
    (fun _ linked => Database.linear_of_linked linked) necessary initially assumed
  constructor
  · rintro ⟨linear, -⟩
    exact visits.mp linear
  · intro first
    exact ⟨visits.mpr first, Lib.along_of_along kept concludes initially first⟩

namespace Sample

/-- A case is decided, reopened by an appeal, and decided again. -/
def decidedTwiceRun : List Move :=
  .request caseRow none :: projected (response (hex 'd') 1700000050) ++
    projected (appeal (hex 'e') (hex 'd') 1700000060) ++
    projected (response (hex 'f') 1700000070)

/-- The decision of the second response. -/
def secondDecision : DecisionRow :=
  { responseCommit.decisionRow with
    decisionId := decisionIdForEvent (hex 'f')
    priorDecisionId := some (decisionIdForEvent (hex 'd'))
    decidedAt := 1700000070 }

theorem decisions_decidedTwiceRun :
    (System.after parser decidedTwiceRun).db.decisions.rows =
      [responseCommit.decisionRow, secondDecision] := by
  decide +kernel

end Sample

/-- A case that is decided, reopened by an appeal and decided again has two
decisions that are not marked as superseded. -/
theorem decided_twice :
    ¬ Lib.Visits (System.step Sample.parser) System.Linear System.start
      Sample.decidedTwiceRun := by
  intro visits
  have linear := (Lib.visits_iff_prefixes System.start Sample.decidedTwiceRun).mp visits
    Sample.decidedTwiceRun (List.prefix_refl _)
  have isDecided : (System.after Sample.parser Sample.decidedTwiceRun).db.stateOf "case-1" =
      some "decided" := by
    decide +kernel
  have firstHeld : Sample.responseCommit.decisionRow ∈
      (System.after Sample.parser Sample.decidedTwiceRun).db.decisions.rows := by
    simp [Sample.decisions_decidedTwiceRun]
  have secondHeld : Sample.secondDecision ∈
      (System.after Sample.parser Sample.decidedTwiceRun).db.decisions.rows := by
    simp [Sample.decisions_decidedTwiceRun]
  have same := linear.effective "case-1" "decided" isDecided (by decide)
    Sample.responseCommit.decisionRow firstHeld Sample.secondDecision secondHeld rfl rfl rfl rfl
  exact absurd (congrArg DecisionRow.decisionId same) (by decide)

end Governance
end NostrBbs
