import NostrBbs.Governance.Writes

/-!
# Exactly-once projections

A decision row has an id that only its event's batches write, so a second batch
of the event finds the id taken and fails as a whole.  A batch carries the state
in which its plan read the case, and writes nothing to a case in another state.
-/

namespace NostrBbs
namespace Governance

open Relay (NostrEvent)

/-! ## Decision ids -/

/-- The ids of the decisions that are held. -/
def Database.decisionIds (db : Database) : List String :=
  db.decisions.rows.map DecisionRow.decisionId

theorem length_decisionIds (db : Database) : db.decisionIds.length = db.decisions.rows.length :=
  List.length_map _

namespace Commit

/-- The decision row that a commit adds. -/
def decisionRow? : Commit → Option DecisionRow
  | response commit => some commit.decisionRow
  | supersession commit => some commit.decisionRow
  | appeal _ => none

/-- The case that a plan read and the state it read it in, when the batch
depends on it. -/
def plannedOn : Commit → Option (String × String)
  | response commit => some (commit.caseId, commit.expectedState)
  | supersession commit => some (commit.caseId, commit.expectedState)
  | appeal _ => none

/-- All the rows of a projection are written. -/
def TookEffect (before after : Database) : Commit → Prop
  | response commit => commit.TookEffect before after
  | supersession commit => commit.TookEffect before after
  | appeal _ => True

/-- A planned decision has the id of its event. -/
theorem PlannedFrom.decisionId_eq
    {event : NostrEvent}
    {commit : Commit}
    {row : DecisionRow}
    (planned : commit.PlannedFrom event)
    (adds : commit.decisionRow? = some row) :
    row.decisionId = decisionIdForEvent commit.eventId := by
  cases planned with
  | response _ eventId decisionId _ =>
      cases adds
      exact decisionId.trans (congrArg decisionIdForEvent eventId.symm)
  | supersession _ eventId decisionId _ =>
      cases adds
      exact decisionId.trans (congrArg decisionIdForEvent eventId.symm)
  | appeal => cases adds

end Commit

section

variable (db : Database)

theorem decisionIds_markedBy
    (rows : List DecisionRow)
    (commit : SupersessionCommit) :
    (rows.map fun row => row.markedBy commit).map DecisionRow.decisionId =
      rows.map DecisionRow.decisionId := by
  rw [List.map_map]
  apply List.map_congr_left
  intro row _
  exact decisionId_markedBy row commit

/-- A batch of a projection writes nothing, or takes effect. -/
theorem runBatch_outcome
    {commit : Commit}
    {caseId state : String}
    (plannedOn : commit.plannedOn = some (caseId, state)) :
    (runBatch commit.batch db).1 = db ∨ commit.TookEffect db (runBatch commit.batch db).1 := by
  cases commit with
  | response commit =>
      rcases commit.batch_outcome db with ⟨error, failed⟩ | ⟨after, ran, effect⟩
      · exact .inl (congrArg Prod.fst failed)
      · right
        simp only [Commit.batch, ran]
        exact effect
  | supersession commit =>
      rcases commit.batch_outcome db with ⟨error, failed⟩ | ⟨after, ran, effect⟩
      · exact .inl (congrArg Prod.fst failed)
      · right
        simp only [Commit.batch, ran]
        exact effect
  | appeal commit => cases plannedOn

/-- A batch adds no decision, or one with a fresh id. -/
theorem decisionIds_runBatch (commit : Commit) :
    (runBatch commit.batch db).1.decisionIds = db.decisionIds ∨
      ∃ row, commit.decisionRow? = some row ∧ row.decisionId ∉ db.decisionIds ∧
        (runBatch commit.batch db).1.decisionIds = db.decisionIds ++ [row.decisionId] := by
  cases commit with
  | response commit =>
      rcases commit.batch_outcome db with ⟨error, failed⟩ | ⟨after, ran, effect⟩
      · left
        simp only [Commit.batch, failed]
      · right
        refine ⟨commit.decisionRow, rfl, effect.fresh, ?_⟩
        simp only [Commit.batch, ran, Database.decisionIds, effect.decisions, List.map_append,
          List.map_singleton]
  | supersession commit =>
      rcases commit.batch_outcome db with ⟨error, failed⟩ | ⟨after, ran, effect⟩
      · left
        simp only [Commit.batch, failed]
      · right
        refine ⟨commit.decisionRow, rfl, effect.fresh, ?_⟩
        simp only [Commit.batch, ran, Database.decisionIds, effect.decisions, List.map_append,
          List.map_singleton, decisionIds_markedBy]
  | appeal commit =>
      left
      unfold Database.decisionIds
      rw [show (runBatch (Commit.appeal commit).batch db).1.decisions = db.decisions from
        (commit.batch_frame db).1]

/-- A write adds no decision, or is a batch that adds one with a fresh id. -/
theorem decisionIds_apply (write : Write) :
    (write.apply db).decisionIds = db.decisionIds ∨
      ∃ commit row, write = .batch commit ∧ commit.decisionRow? = some row ∧
        row.decisionId ∉ db.decisionIds ∧
        (write.apply db).decisionIds = db.decisionIds ++ [row.decisionId] := by
  cases write with
  | accept correlation now =>
      left
      simp only [Write.apply, Database.recordAccepted]
      split <;> rfl
  | batch commit =>
      rcases decisionIds_runBatch db commit with same | ⟨row, adds, fresh, added⟩
      · exact .inl same
      · exact .inr ⟨commit, row, rfl, adds, fresh, added⟩
  | fail eventId error now => exact .inl rfl
  | advance report current now => exact .inl rfl
  | request row heldAt =>
      left
      simp only [Write.apply, Database.upsertCase]
      split <;> rfl
  | expire caseId now => exact .inl rfl

/-- A projection is admitted only to a case in the state that its plan saw. -/
theorem stateOf_of_tookEffect
    {after : Database}
    {commit : Commit}
    {caseId state : String}
    (plannedOn : commit.plannedOn = some (caseId, state))
    (effect : commit.TookEffect db after) :
    db.stateOf caseId = some state := by
  cases commit with
  | response commit =>
      cases plannedOn
      obtain ⟨⟨row, found, sameState, -⟩, -⟩ := commit.of_admitted effect.admitted
      simp [Database.stateOf, found, sameState]
  | supersession commit =>
      cases plannedOn
      obtain ⟨⟨row, found, sameState, -⟩, -⟩ := commit.of_admitted effect.admitted
      simp [Database.stateOf, found, sameState]
  | appeal commit => cases plannedOn

end

/-! ## Rows that an event adds -/

variable (json : JsonParser)

/-- The number of decision rows that a move adds for an event. -/
def System.addedBy (eventId : String) (system : System) (move : Move) : Nat :=
  match system.write move with
  | some (.batch commit) =>
      if commit.eventId = eventId then
        (system.step json move).db.decisions.rows.length - system.db.decisions.rows.length
      else 0
  | _ => 0

/-- The number of decision rows that a run adds for an event. -/
def additions (eventId : String) : System → List Move → Nat
  | _, [] => 0
  | system, move :: moves =>
      system.addedBy json eventId move + additions eventId (system.step json move) moves

theorem additions_concat
    (eventId : String)
    (system : System)
    (moves : List Move)
    (move : Move) :
    additions json eventId system (moves ++ [move]) =
      additions json eventId system moves +
        (Lib.run (System.step json) system moves).addedBy json eventId move := by
  induction moves generalizing system with
  | nil => simp [additions]
  | cons first moves inductionHypothesis =>
      simp [additions, inductionHypothesis (system.step json first), Nat.add_assoc]

variable {json}

/-- The ids of decisions are kept by every move. -/
theorem decisionIds_step
    {system : System}
    {move : Move}
    {decisionId : String}
    (held : decisionId ∈ system.db.decisionIds) :
    decisionId ∈ (system.step json move).db.decisionIds := by
  apply System.step_db_keeps (fun db => decisionId ∈ db.decisionIds) system move held
  intro write _
  rcases decisionIds_apply system.db write with same | ⟨commit, row, -, -, -, added⟩
  · rw [same]
    exact held
  · rw [added]
    exact List.mem_append_left _ held

/-- A move adds at most one row for an event: none when the event's id is taken,
and one that takes it. -/
theorem addedBy_le
    {delivered : NostrEvent → Prop}
    {system : System}
    (known : ∀ task ∈ system.tasks, task.Known delivered)
    (eventId : String)
    (move : Move) :
    system.addedBy json eventId move = 0 ∨
      system.addedBy json eventId move = 1 ∧
        decisionIdForEvent eventId ∉ system.db.decisionIds ∧
        decisionIdForEvent eventId ∈ (system.step json move).db.decisionIds := by
  unfold System.addedBy
  split
  · rename_i commit written
    split
    · rename_i own
      obtain ⟨event, -, planned⟩ := System.known_write known written
      have ran : (system.step json move).db = (runBatch commit.batch system.db).1 := by
        rw [System.step_db, written]
        rfl
      rw [← length_decisionIds, ← length_decisionIds, ran]
      rcases decisionIds_runBatch system.db commit with same | ⟨row, adds, fresh, added⟩
      · left
        rw [same, Nat.sub_self]
      · right
        have isEventId : row.decisionId = decisionIdForEvent eventId :=
          (planned.decisionId_eq adds).trans (congrArg decisionIdForEvent own)
        rw [isEventId] at fresh added
        rw [added]
        refine ⟨?_, fresh, by simp⟩
        rw [List.length_append, Nat.add_sub_cancel_left, List.length_singleton]
    · exact .inl rfl
  · exact .inl rfl

/-- A run adds at most one row for an event. -/
theorem additions_le_one
    (eventId : String)
    (moves : List Move) :
    additions json eventId System.start moves ≤ 1 := by
  let history : List Move → System → Prop := fun past system =>
    additions json eventId System.start past = 0 ∨
      additions json eventId System.start past = 1 ∧
        decisionIdForEvent eventId ∈ system.db.decisionIds
  have preserved : ∀ past move, history past (Lib.run (System.step json) System.start past) →
      history (past ++ [move])
        (System.step json (Lib.run (System.step json) System.start past) move) := by
    intro past move before
    have known : ∀ task ∈ (System.after json past).tasks,
        task.Known fun event => .deliver event ∈ past := known_of_mem_tasks past
    unfold history
    rw [additions_concat]
    rcases before with none | ⟨one, held⟩
    · rcases addedBy_le known eventId move with noRow | ⟨oneRow, -, held⟩
      · left
        rw [none, Nat.zero_add]
        exact noRow
      · right
        refine ⟨?_, held⟩
        rw [none, Nat.zero_add]
        exact oneRow
    · right
      rcases addedBy_le known eventId move with noRow | ⟨-, fresh, -⟩
      · refine ⟨?_, decisionIds_step held⟩
        rw [one]
        exact congrArg (1 + ·) noRow
      · exact absurd held fresh
  rcases Lib.invariant_history (.inl rfl) preserved moves with none | ⟨one, -⟩
  · omega
  · omega

/-! ## What a plan has read -/

/-- A task whose next operation reads a case for an event. -/
def Task.readsCase (eventId caseId : String) : Task → Prop
  | readCase event correlation => event.id = eventId ∧ correlation.caseId = caseId
  | readSuperseded event correlation _ _ => event.id = eventId ∧ correlation.caseId = caseId
  | _ => False

variable (json) in
/-- In the course of a run, a task has read a case for an event in a state. -/
def ReadIn (moves : List Move) (eventId caseId state : String) : Prop :=
  ∃ earlier index now ranks task,
    earlier ++ [.advance index .answered now ranks] <+: moves ∧
    (System.after json earlier).tasks[index]? = some task ∧ task.readsCase eventId caseId ∧
    (System.after json earlier).db.stateOf caseId = some state

/-- What a task that holds a case row, or was planned on one, has seen of the
case, by the reads that have happened. -/
def Task.Saw (seen : String → String → String → Prop) : Task → Prop
  | readLatest event correlation caseRow => ∀ row, caseRow = some row →
      seen event.id correlation.caseId row.state
  | accept _ work => ∀ commit caseId state, work = .commit commit →
      commit.plannedOn = some (caseId, state) → seen commit.eventId caseId state
  | batch commit => ∀ caseId state, commit.plannedOn = some (caseId, state) →
      seen commit.eventId caseId state
  | _ => True

section

variable {seen : String → String → String → Prop} {event : NostrEvent}
  {correlation : ReceiptCorrelation} {next : Task}

theorem saw_refuse
    (error : ProjectionFailure) :
    (Task.accept correlation (.refuse error)).Saw seen := by
  intro commit caseId state isCommit
  cases isCommit

/-- A commit that is taken up saw what its plan saw. -/
theorem saw_takeUp
    {commit : Commit}
    (saw : ∀ caseId state, commit.plannedOn = some (caseId, state) →
      seen commit.eventId caseId state)
    (taken : takeUp correlation commit = some next) :
    next.Saw seen := by
  obtain ⟨-, rfl⟩ := takeUp_eq_some taken
  intro other caseId state isCommit plannedOn
  cases isCommit
  exact saw caseId state plannedOn

theorem saw_respond
    {caseRow : Option BrokerCaseRow}
    {latest : Option String}
    (saw : ∀ row, caseRow = some row → seen event.id correlation.caseId row.state)
    (responded : respond json event correlation caseRow latest = some next) :
    next.Saw seen := by
  unfold respond at responded
  split at responded
  · cases responded
    exact saw_refuse _
  · rename_i projection planned
    obtain ⟨-, -, -, row, isRow, -⟩ := planActionResponse_ok planned
    refine saw_takeUp ?_ responded
    intro caseId state plannedOn
    cases plannedOn
    rw [isRow]
    exact saw row isRow

theorem saw_supersede
    {supersededEventId : String}
    {target : SupersededDecisionRow}
    {caseRow : Option BrokerCaseRow}
    {ranks : String → Nat}
    (saw : ∀ row, caseRow = some row → seen event.id correlation.caseId row.state)
    (superseded : supersede json event correlation supersededEventId target caseRow ranks =
      some next) :
    next.Saw seen := by
  unfold supersede at superseded
  split at superseded
  · cases superseded
    exact saw_refuse _
  · rename_i projection planned
    obtain ⟨-, -, row, isRow⟩ := planSupersession_ok planned
    refine saw_takeUp ?_ superseded
    intro caseId state plannedOn
    cases plannedOn
    rw [isRow]
    exact saw row isRow

theorem saw_takeAppeal
    {citedEventId : String}
    {caseRow : Option BrokerCaseRow}
    {citedCase : Option String}
    (appealed : takeAppeal event correlation citedEventId caseRow citedCase = some next) :
    next.Saw seen := by
  unfold takeAppeal at appealed
  split at appealed
  · cases appealed
    exact saw_refuse _
  · refine saw_takeUp ?_ appealed
    intro caseId state plannedOn
    cases plannedOn

/-- A case row that a read returned is of the state of the case. -/
theorem stateOf_of_read
    {db : Database}
    {fault : Fault}
    {caseId : String}
    {row : BrokerCaseRow}
    (read : fault.read ((db.cases.find? caseId).map CaseRow.brokerCaseRow) = some row) :
    fault = .answered ∧ db.stateOf caseId = some row.state := by
  unfold Fault.read at read
  split at read
  · rename_i answered
    obtain ⟨held, found, rfl⟩ := Option.map_eq_some_iff.mp read
    refine ⟨answered, ?_⟩
    simp [Database.stateOf, found, CaseRow.brokerCaseRow]
  · cases read

/-- What remains of a task saw what the task saw, or what it reads now. -/
theorem Task.Saw.step
    {task : Task}
    {db : Database}
    {fault : Fault}
    {now : Nat}
    {ranks : String → Nat}
    (saw : task.Saw seen)
    (reads : ∀ eventId caseId state, fault = .answered → task.readsCase eventId caseId →
      db.stateOf caseId = some state → seen eventId caseId state)
    (remains : (task.step json db fault now ranks).2 = some next) :
    next.Saw seen := by
  cases task with
  | lookup event correlation route =>
      simp only [Task.step] at remains
      split at remains
      · cases remains
      · split at remains
        · cases remains
          intro commit caseId state isCommit
          cases isCommit
        · cases route <;> cases remains <;> trivial
  | readTarget event correlation supersededEventId =>
      simp only [Task.step] at remains
      split at remains <;> cases remains
      · exact saw_refuse _
      · trivial
  | readCase event correlation =>
      cases remains
      intro row read
      obtain ⟨answered, state⟩ := stateOf_of_read read
      exact reads event.id correlation.caseId row.state answered ⟨rfl, rfl⟩ state
  | readSuperseded event correlation supersededEventId target =>
      refine saw_supersede ?_ remains
      intro row read
      obtain ⟨answered, state⟩ := stateOf_of_read read
      exact reads event.id correlation.caseId row.state answered ⟨rfl, rfl⟩ state
  | readAppealed event correlation citedEventId =>
      cases remains
      trivial
  | readLatest event correlation caseRow => exact saw_respond saw remains
  | readCited event correlation citedEventId caseRow => exact saw_takeAppeal remains
  | accept correlation work =>
      cases work with
      | commit commit =>
          have commitSaw := fun caseId state => saw commit caseId state rfl
          simp only [Task.step, Work.next] at remains
          split at remains
          · cases remains
          · cases remains
            exact commitSaw
          · split at remains <;> cases remains
            exact commitSaw
      | refuse error =>
          cases remains
          trivial
      | replay => cases remains
  | batch commit =>
      simp only [Task.step] at remains
      split at remains
      · unfold afterBatch at remains
        split at remains <;> cases remains
        trivial
      · cases remains
        trivial
  | fail eventId error => cases remains
  | readReceipt report =>
      simp only [Task.step, Option.bind_eq_some_iff, Option.map_eq_some_iff] at remains
      obtain ⟨row, -, stage, -, rfl⟩ := remains
      trivial
  | readOutcome report current caseId =>
      simp only [Task.step] at remains
      split at remains
      · cases remains
      · unfold takeReport at remains
        dsimp only at remains
        split at remains <;> cases remains
        trivial
  | advance report current => cases remains

theorem Task.Saw.mono
    {more : String → String → String → Prop}
    {task : Task}
    (saw : task.Saw seen)
    (included : ∀ eventId caseId state, seen eventId caseId state →
      more eventId caseId state) :
    task.Saw more := by
  cases task with
  | readLatest event correlation caseRow =>
      intro row isRow
      exact included _ _ _ (saw row isRow)
  | accept correlation work =>
      intro commit caseId state isCommit plannedOn
      exact included _ _ _ (saw commit caseId state isCommit plannedOn)
  | batch commit =>
      intro caseId state plannedOn
      exact included _ _ _ (saw caseId state plannedOn)
  | _ => trivial

end

/-- Every task in flight saw what was read in the run. -/
theorem saw_of_mem_tasks
    (moves : List Move) :
    ∀ task ∈ (System.after json moves).tasks, task.Saw (ReadIn json moves) := by
  let history : List Move → System → Prop := fun past system =>
    ∀ task ∈ system.tasks, task.Saw (ReadIn json past)
  have initially : history [] System.start := by
    intro task inFlight
    cases inFlight
  have preserved : ∀ past move, history past (Lib.run (System.step json) System.start past) →
      history (past ++ [move])
        (System.step json (Lib.run (System.step json) System.start past) move) := by
    intro past move saw task inFlight
    have longer : ∀ eventId caseId state, ReadIn json past eventId caseId state →
        ReadIn json (past ++ [move]) eventId caseId state := by
      rintro eventId caseId state ⟨earlier, index, now, ranks, reader, isInitial, rest⟩
      exact ⟨earlier, index, now, ranks, reader, isInitial.trans (List.prefix_append _ _), rest⟩
    rcases System.mem_tasks_step inFlight with old | ⟨event, rfl, started⟩ | ⟨report, -, rfl⟩ |
      ⟨index, fault, now, ranks, ran, rfl, found, remains⟩
    · exact (saw task old).mono longer
    · unfold System.delivered at started
      simp only [Option.bind_eq_some_iff, Option.map_eq_some_iff] at started
      obtain ⟨route, -, correlation, -, rfl⟩ := started
      trivial
    · trivial
    · refine Task.Saw.step ((saw ran (List.mem_of_getElem? found)).mono longer) ?_ remains
      intro eventId caseId state answered readsCase isState
      refine ⟨past, index, now, ranks, ran, ?_, found, readsCase, isState⟩
      rw [answered]
  exact Lib.invariant_history initially preserved moves

/-- A batch that a move writes saw what was read in the run. -/
theorem readIn_of_batch
    {moves : List Move}
    {move : Move}
    {commit : Commit}
    {caseId state : String}
    (written : (System.after json moves).write move = some (.batch commit))
    (plannedOn : commit.plannedOn = some (caseId, state)) :
    ReadIn json moves commit.eventId caseId state := by
  obtain ⟨task, inFlight, now, taskWrite⟩ := System.task_of_batch written
  have saw := saw_of_mem_tasks moves task inFlight
  rw [Task.write_eq_batch.mp taskWrite] at saw
  exact saw caseId state plannedOn

/-! ## The result -/

namespace Sample

/-- A response that is about to be committed. -/
def plannedRun : List Move :=
  .request caseRow none :: .deliver (response (hex 'd') 1700000050) :: List.replicate 4 turn

/-- What the response commits. -/
def responseCommit : ProjectionCommit where
  eventId := hex 'd'
  caseId := "case-1"
  requestEventId := hex 'b'
  expectedState := "open"
  decisionId := decisionIdForEvent (hex 'd')
  outcome := "approve"
  outcomeDetail := none
  priorDecisionId := none
  reasoning := "reviewed"
  brokerPubkey := hex 'c'
  newState := "decided"
  decidedAt := 1700000050

theorem write_responseCommit :
    (System.after parser plannedRun).write turn = some (.batch (.response responseCommit)) := by
  decide +kernel

end Sample

end Governance
end NostrBbs
