import NostrBbs.Governance.Projection

/-!
# What moves write

Every move writes the tables in one of six ways or not at all, and what a task
still has to write was planned from a delivered event.
-/

namespace NostrBbs
namespace Governance

open Relay (NostrEvent)

/-! ## Writes -/

/-- A write to the tables. -/
inductive Write
  | accept (correlation : ReceiptCorrelation) (now : Nat)
  | batch (commit : Commit)
  | fail (eventId : String) (error : ProjectionFailure) (now : Nat)
  | advance (report : Report) (current : ReceiptStage) (now : Nat)
  | request (row : CaseRow) (heldAt : Option Nat)
  | expire (caseId : String) (now : Nat)
  deriving DecidableEq, Repr

def Write.apply (db : Database) : Write → Database
  | accept correlation now => (db.recordAccepted correlation now).1
  | batch commit => (runBatch commit.batch db).1
  | fail eventId error now => db.markProjectionFailed eventId error now
  | advance report current now =>
      db.advanceStage report.eventId current report.requested report.caller
        report.acknowledgement now
  | request row heldAt => db.upsertCase row heldAt
  | expire caseId now => db.expireCase caseId now

/-- The write of a task's next operation. -/
def Task.write (now : Nat) : Task → Option Write
  | accept correlation _ => some (.accept correlation now)
  | batch commit => some (.batch commit)
  | fail eventId error => some (.fail eventId error now)
  | advance report current => some (.advance report current now)
  | _ => none

namespace System

/-- The write of a move. -/
def write (system : System) : Move → Option Write
  | .deliver _ => none
  | .request row heldAt => some (.request row heldAt)
  | .expire caseId now => some (.expire caseId now)
  | .report _ => none
  | .advance index fault now _ =>
      if fault = .lost then none else system.tasks[index]?.bind (Task.write now)

end System

variable {json : JsonParser}

theorem Task.step_db
    (task : Task)
    (db : Database)
    (fault : Fault)
    (now : Nat)
    (ranks : String → Nat) :
    (task.step json db fault now ranks).1 =
      if fault = .lost then db else ((task.write now).map (Write.apply db)).getD db := by
  cases task <;> cases fault <;> rfl

/-- The tables after a move are those of its write. -/
theorem System.step_db
    (system : System)
    (move : Move) :
    (system.step json move).db = ((system.write move).map (Write.apply system.db)).getD system.db := by
  cases move with
  | deliver event => rfl
  | request row heldAt => rfl
  | expire caseId now => rfl
  | report report => rfl
  | advance index fault now ranks =>
      simp only [System.step, System.write]
      cases system.tasks[index]? with
      | none => cases fault <;> rfl
      | some task =>
          dsimp only
          rw [Task.step_db]
          cases fault <;> rfl

/-- What holds before a move holds after it when every write keeps it. -/
theorem System.step_db_keeps
    (property : Database → Prop)
    (system : System)
    (move : Move)
    (holds : property system.db)
    (kept : ∀ write, system.write move = some write → property (write.apply system.db)) :
    property (system.step json move).db := by
  rw [System.step_db]
  cases written : system.write move with
  | none => exact holds
  | some write => exact kept write written

/-! ## Plans in flight -/

/-- The event that a commit was planned from. -/
inductive Commit.PlannedFrom (event : NostrEvent) : Commit → Prop
  | response
      {commit : ProjectionCommit}
      (route : routeOf event = some .response)
      (eventId : commit.eventId = event.id)
      (decisionId : commit.decisionId = decisionIdForEvent event.id)
      (newState : ∃ outcome : DecisionOutcome, commit.newState = outcome.newState.asStr) :
      PlannedFrom event (.response commit)
  | supersession
      {commit : SupersessionCommit}
      (route : routeOf event = some (.supersession commit.supersededEventId))
      (eventId : commit.eventId = event.id)
      (decisionId : commit.decisionId = decisionIdForEvent event.id)
      (superseded : commit.supersededDecisionId = decisionIdForEvent commit.supersededEventId) :
      PlannedFrom event (.supersession commit)
  | appeal
      {commit : AppealCommit}
      (route : routeOf event = some (.appeal commit.citedEventId))
      (eventId : commit.eventId = event.id) :
      PlannedFrom event (.appeal commit)

/-- What is known of a task, by the events that have been delivered. -/
def Task.Known (delivered : NostrEvent → Prop) : Task → Prop
  | lookup event _ route => delivered event ∧ routeOf event = some route
  | readTarget event _ supersededEventId =>
      delivered event ∧ routeOf event = some (.supersession supersededEventId)
  | readCase event _ => delivered event ∧ routeOf event = some .response
  | readSuperseded event _ supersededEventId _ =>
      delivered event ∧ routeOf event = some (.supersession supersededEventId)
  | readAppealed event _ citedEventId =>
      delivered event ∧ routeOf event = some (.appeal citedEventId)
  | readLatest event _ _ => delivered event ∧ routeOf event = some .response
  | readCited event _ citedEventId _ =>
      delivered event ∧ routeOf event = some (.appeal citedEventId)
  | accept correlation work => ∀ commit, work = .commit commit →
      commit.describedBy correlation ∧ ∃ event, delivered event ∧ commit.PlannedFrom event
  | batch commit => ∃ event, delivered event ∧ commit.PlannedFrom event
  | fail _ _ => True
  | readReceipt _ => True
  | readOutcome _ _ _ => True
  | advance report current => canAdvanceStage current report.requested = .ok ()

section

variable {delivered : NostrEvent → Prop} {event : NostrEvent} {correlation : ReceiptCorrelation}
  {next : Task}

theorem takeUp_eq_some
    {commit : Commit}
    (taken : takeUp correlation commit = some next) :
    commit.describedBy correlation ∧ next = .accept correlation (.commit commit) := by
  unfold takeUp at taken
  split at taken
  · cases taken
    exact ⟨‹_›, rfl⟩
  · cases taken

/-- A refusal has nothing left to commit. -/
theorem known_refuse
    (error : ProjectionFailure) :
    (Task.accept correlation (.refuse error)).Known delivered := by
  intro commit isCommit
  cases isCommit

theorem known_takeUp
    {commit : Commit}
    (isDelivered : delivered event)
    (planned : commit.PlannedFrom event)
    (taken : takeUp correlation commit = some next) :
    next.Known delivered := by
  obtain ⟨described, rfl⟩ := takeUp_eq_some taken
  intro other isCommit
  cases isCommit
  exact ⟨described, event, isDelivered, planned⟩

theorem known_respond
    {caseRow : Option BrokerCaseRow}
    {latest : Option String}
    (isDelivered : delivered event)
    (route : routeOf event = some .response)
    (responded : respond json event correlation caseRow latest = some next) :
    next.Known delivered := by
  unfold respond at responded
  split at responded
  · cases responded
    exact known_refuse _
  · rename_i projection planned
    obtain ⟨decisionId, -, ⟨outcome, newState⟩, -⟩ := planActionResponse_ok planned
    exact known_takeUp isDelivered
      (.response route rfl decisionId ⟨outcome, by rw [newState]⟩) responded

theorem known_supersede
    {supersededEventId : String}
    {target : SupersededDecisionRow}
    {caseRow : Option BrokerCaseRow}
    {ranks : String → Nat}
    (isDelivered : delivered event)
    (route : routeOf event = some (.supersession supersededEventId))
    (superseded : supersede json event correlation supersededEventId target caseRow ranks =
      some next) :
    next.Known delivered := by
  unfold supersede at superseded
  split at superseded
  · cases superseded
    exact known_refuse _
  · rename_i projection planned
    obtain ⟨decisionId, supersededId, -⟩ := planSupersession_ok planned
    exact known_takeUp isDelivered (.supersession route rfl decisionId supersededId) superseded

theorem known_takeAppeal
    {citedEventId : String}
    {caseRow : Option BrokerCaseRow}
    {citedCase : Option String}
    (isDelivered : delivered event)
    (route : routeOf event = some (.appeal citedEventId))
    (appealed : takeAppeal event correlation citedEventId caseRow citedCase = some next) :
    next.Known delivered := by
  unfold takeAppeal at appealed
  split at appealed
  · cases appealed
    exact known_refuse _
  · exact known_takeUp isDelivered (.appeal route rfl) appealed

theorem known_takeReport
    {report : Report}
    {current : ReceiptStage}
    {case : Option CaseRow}
    {latestOutcome : Option String}
    (taken : takeReport report current case latestOutcome = some next) :
    next.Known delivered := by
  unfold takeReport at taken
  dsimp only at taken
  split at taken
  · cases taken
  · rename_i permitted
    cases taken
    exact planApplicationAdvance_ok permitted

/-- What is known of a task is known of the one that remains of it. -/
theorem Task.Known.step
    {task : Task}
    {db : Database}
    {fault : Fault}
    {now : Nat}
    {ranks : String → Nat}
    (known : task.Known delivered)
    (remains : (task.step json db fault now ranks).2 = some next) :
    next.Known delivered := by
  cases task with
  | lookup event correlation route =>
      simp only [Task.step] at remains
      split at remains
      · cases remains
      · split at remains
        · cases remains
          intro commit isCommit
          cases isCommit
        · cases route <;> cases remains <;> exact known
  | readTarget event correlation supersededEventId =>
      simp only [Task.step] at remains
      split at remains <;> cases remains
      · exact known_refuse _
      · exact known
  | readCase event correlation =>
      cases remains
      exact known
  | readSuperseded event correlation supersededEventId target =>
      exact known_supersede known.1 known.2 remains
  | readAppealed event correlation citedEventId =>
      cases remains
      exact known
  | readLatest event correlation caseRow =>
      exact known_respond known.1 known.2 remains
  | readCited event correlation citedEventId caseRow =>
      exact known_takeAppeal known.1 known.2 remains
  | accept correlation work =>
      cases work with
      | commit commit =>
          have planned := (known commit rfl).2
          simp only [Task.step, Work.next] at remains
          split at remains
          · cases remains
          · cases remains
            exact planned
          · split at remains <;> cases remains
            exact planned
      | refuse error =>
          cases remains
          trivial
      | replay => cases remains
  | batch commit =>
      simp only [Task.step] at remains
      split at remains
      · unfold afterBatch at remains
        split at remains <;> cases remains
        trivial
      · cases remains
        trivial
  | fail eventId error => cases remains
  | readReceipt report =>
      simp only [Task.step, Option.bind_eq_some_iff, Option.map_eq_some_iff] at remains
      obtain ⟨row, -, stage, -, rfl⟩ := remains
      trivial
  | readOutcome report current caseId =>
      simp only [Task.step] at remains
      split at remains
      · cases remains
      · exact known_takeReport remains
  | advance report current => cases remains

/-- What is known by some deliveries is known by more of them. -/
theorem Task.Known.mono
    {more : NostrEvent → Prop}
    {task : Task}
    (known : task.Known delivered)
    (included : ∀ event, delivered event → more event) :
    task.Known more := by
  cases task with
  | lookup event correlation route => exact ⟨included event known.1, known.2⟩
  | readTarget event correlation supersededEventId => exact ⟨included event known.1, known.2⟩
  | readCase event correlation => exact ⟨included event known.1, known.2⟩
  | readSuperseded event correlation supersededEventId target =>
      exact ⟨included event known.1, known.2⟩
  | readAppealed event correlation citedEventId => exact ⟨included event known.1, known.2⟩
  | readLatest event correlation caseRow => exact ⟨included event known.1, known.2⟩
  | readCited event correlation citedEventId caseRow => exact ⟨included event known.1, known.2⟩
  | accept correlation work =>
      intro commit isCommit
      obtain ⟨described, event, isDelivered, planned⟩ := known commit isCommit
      exact ⟨described, event, included event isDelivered, planned⟩
  | batch commit =>
      obtain ⟨event, isDelivered, planned⟩ := known
      exact ⟨event, included event isDelivered, planned⟩
  | fail eventId error => trivial
  | readReceipt report => trivial
  | readOutcome report current caseId => trivial
  | advance report current => exact known

/-- A delivery starts a task that knows it. -/
theorem known_delivered
    (isDelivered : delivered event)
    (started : System.delivered json event = some next) :
    next.Known delivered := by
  unfold System.delivered at started
  simp only [Option.bind_eq_some_iff, Option.map_eq_some_iff] at started
  obtain ⟨route, routed, correlation, -, rfl⟩ := started
  exact ⟨isDelivered, routed⟩

end

/-! ## Tasks of a system -/

/-- The tasks after a move: those before it, what remains of the one that ran,
and the one that a delivery or a report starts. -/
theorem System.mem_tasks_step
    {system : System}
    {move : Move}
    {task : Task}
    (inFlight : task ∈ (system.step json move).tasks) :
    task ∈ system.tasks ∨
      (∃ event, move = .deliver event ∧ System.delivered json event = some task) ∨
      (∃ report, move = .report report ∧ task = .readReceipt report) ∨
      ∃ index fault now ranks ran, move = .advance index fault now ranks ∧
        system.tasks[index]? = some ran ∧
        (ran.step json system.db fault now ranks).2 = some task := by
  cases move with
  | deliver event =>
      rcases List.mem_append.mp inFlight with old | started
      · exact .inl old
      · exact .inr (.inl ⟨event, rfl, Option.mem_toList.mp started⟩)
  | request row heldAt => exact .inl inFlight
  | expire caseId now => exact .inl inFlight
  | report report =>
      rcases List.mem_append.mp inFlight with old | started
      · exact .inl old
      · exact .inr (.inr (.inl ⟨report, rfl, List.mem_singleton.mp started⟩))
  | advance index fault now ranks =>
      simp only [System.step] at inFlight
      cases found : system.tasks[index]? with
      | none =>
          rw [found] at inFlight
          exact .inl inFlight
      | some ran =>
          rw [found] at inFlight
          rcases List.mem_append.mp inFlight with old | remains
          · exact .inl (List.mem_of_mem_eraseIdx old)
          · exact .inr (.inr (.inr ⟨index, fault, now, ranks, ran, rfl, found,
              Option.mem_toList.mp remains⟩))

/-- What is known of a write, by the events that have been delivered. -/
def Write.Known (delivered : NostrEvent → Prop) : Write → Prop
  | batch commit => ∃ event, delivered event ∧ commit.PlannedFrom event
  | advance report current _ => canAdvanceStage current report.requested = .ok ()
  | _ => True

theorem Task.write_eq_batch
    {task : Task}
    {now : Nat}
    {commit : Commit} :
    task.write now = some (.batch commit) ↔ task = .batch commit := by
  constructor
  · intro written
    cases task with
    | batch other =>
        cases written
        rfl
    | _ => cases written
  · rintro rfl
    rfl

/-- A batch is written by a task in flight. -/
theorem System.task_of_batch
    {system : System}
    {move : Move}
    {commit : Commit}
    (written : system.write move = some (.batch commit)) :
    ∃ task ∈ system.tasks, ∃ now, task.write now = some (.batch commit) := by
  cases move with
  | advance index fault now ranks =>
      simp only [System.write] at written
      split at written
      · cases written
      · obtain ⟨task, found, taskWrite⟩ := Option.bind_eq_some_iff.mp written
        exact ⟨task, List.mem_of_getElem? found, now, taskWrite⟩
  | _ => cases written

/-- What is known of the tasks in flight is known of the write of a move. -/
theorem System.known_write
    {delivered : NostrEvent → Prop}
    {system : System}
    {move : Move}
    {write : Write}
    (known : ∀ task ∈ system.tasks, task.Known delivered)
    (written : system.write move = some write) :
    write.Known delivered := by
  cases move with
  | deliver event => cases written
  | request row heldAt =>
      cases written
      trivial
  | expire caseId now =>
      cases written
      trivial
  | report report => cases written
  | advance index fault now ranks =>
      simp only [System.write] at written
      split at written
      · cases written
      · obtain ⟨task, found, taskWrite⟩ := Option.bind_eq_some_iff.mp written
        have taskKnown := known task (List.mem_of_getElem? found)
        cases task with
        | accept correlation work =>
            cases taskWrite
            trivial
        | batch commit =>
            cases taskWrite
            exact taskKnown
        | fail eventId error =>
            cases taskWrite
            trivial
        | advance report current =>
            cases taskWrite
            exact taskKnown
        | _ => cases taskWrite

/-- Every task in flight is known from the events that a run delivered. -/
theorem known_of_mem_tasks
    (moves : List Move) :
    ∀ task ∈ (System.after json moves).tasks,
      task.Known fun event => .deliver event ∈ moves := by
  let history : List Move → System → Prop := fun past system =>
    ∀ task ∈ system.tasks, task.Known fun event => .deliver event ∈ past
  have initially : history [] System.start := by
    intro task inFlight
    cases inFlight
  have preserved : ∀ past move, history past (Lib.run (System.step json) System.start past) →
      history (past ++ [move])
        (System.step json (Lib.run (System.step json) System.start past) move) := by
    intro past move known task inFlight
    have earlier : ∀ event, .deliver event ∈ past → .deliver event ∈ past ++ [move] :=
      fun event old => List.mem_append_left _ old
    rcases System.mem_tasks_step inFlight with old | ⟨event, rfl, started⟩ | ⟨report, -, rfl⟩ |
      ⟨index, fault, now, ranks, ran, -, found, remains⟩
    · exact (known task old).mono earlier
    · exact known_delivered (by simp) started
    · trivial
    · exact ((known ran (List.mem_of_getElem? found)).mono earlier).step remains
  exact Lib.invariant_history initially preserved moves

end Governance
end NostrBbs
