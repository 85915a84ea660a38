import NostrBbs.Governance.Boundary
import NostrBbs.Governance.Projection

/-!
# Slices of identifiers

The handling of a governance event with the byte slices that it takes: of the ids that
its tags cite, of its own id and of the expiry that its content states.  A slice that no
character boundary ends stops the relay, `none`.
-/

namespace NostrBbs
namespace Governance

open Relay (NostrEvent Tag tagValue)

/-! ## Sliced ids -/

/-- The decision id of a governance event, `none` when its slice is a panic. -/
def sliceDecisionId (eventId : String) : Option String :=
  (Lib.sliceTo eventId (min 16 eventId.utf8ByteSize)).map fun head => "dec-" ++ head

/-- The slice of an id ends at a character boundary. -/
def Sliceable (eventId : String) : Prop :=
  Lib.IsCharBoundary eventId.toList (min 16 eventId.utf8ByteSize)

theorem isSome_sliceDecisionId_iff
    (eventId : String) :
    (sliceDecisionId eventId).isSome ↔ Sliceable eventId := by
  unfold sliceDecisionId
  rw [Option.isSome_map, Lib.isSome_sliceTo_iff]
  rfl

/-- An id of single bytes is sliced. -/
theorem sliceable_of_ascii
    {eventId : String}
    (ascii : ∀ char ∈ eventId.toList, char.utf8Size = 1) :
    Sliceable eventId := by
  have length := Lib.byteLength_of_ascii ascii
  rw [Lib.byteLength_toList] at length
  have boundary : Lib.IsCharBoundary
      (eventId.toList.take (min 16 eventId.utf8ByteSize) ++
        eventId.toList.drop (min 16 eventId.utf8ByteSize))
      (eventId.toList.take (min 16 eventId.utf8ByteSize)).length :=
    Lib.isCharBoundary_of_ascii fun char isChar => ascii char (List.mem_of_mem_take isChar)
  rw [List.take_append_drop, List.length_take, ← length,
    Nat.min_eq_left (Nat.min_le_right _ _)] at boundary
  exact boundary

/-! ## Operations with their slices -/

section Slices

variable (json : JsonParser)

/-- A response reaches the aggregate, and with it the slice of its id. -/
def respondSliced (event : NostrEvent) (correlation : ReceiptCorrelation)
    (caseRow : Option BrokerCaseRow) (latest : Option String) : Option (Option Task) :=
  match fromResponseContent json event.content with
  | none => some (respond json event correlation caseRow latest)
  | some _ =>
      (sliceDecisionId event.id).map fun _ => respond json event correlation caseRow latest

/-- A superseding response passes the guards before the aggregate. -/
def meetsAggregate (event : NostrEvent) (correlation : ReceiptCorrelation)
    (target : SupersededDecisionRow) (caseRow : Option BrokerCaseRow) : Bool :=
  (fromResponseContent json event.content).isSome &&
    caseRow.any fun row =>
      target.caseId == correlation.caseId && target.supersededBy.isNone &&
        supersedableStates.contains row.state &&
        !machineRefused json row.effectiveTier event.content event.pubkey

/-- A supersession slices the cited id, and its own before the aggregate. -/
def supersedeSliced (event : NostrEvent) (correlation : ReceiptCorrelation)
    (supersededEventId : String) (target : SupersededDecisionRow)
    (caseRow : Option BrokerCaseRow) (ranks : String → Nat) : Option (Option Task) :=
  let plan := supersede json event correlation supersededEventId target caseRow ranks
  if supersededEventId = "" then some plan
  else
    (sliceDecisionId supersededEventId).bind fun _ =>
      if meetsAggregate json event correlation target caseRow then
        (sliceDecisionId event.id).map fun _ => plan
      else some plan

/-- One operation of a task, `none` when a slice of it is a panic. -/
def Task.stepSliced (db : Database) (fault : Fault) (now : Nat) (ranks : String → Nat)
    (task : Task) : Option (Database × Option Task) :=
  match task with
  | readTarget _ _ supersededEventId =>
      (sliceDecisionId supersededEventId).map fun _ => task.step json db fault now ranks
  | readSuperseded event correlation supersededEventId target =>
      (supersedeSliced json event correlation supersededEventId target
        (fault.read ((db.cases.find? correlation.caseId).map CaseRow.brokerCaseRow)) ranks).map
        fun next => (db, next)
  | readAppealed _ _ citedEventId =>
      (sliceDecisionId citedEventId).map fun _ => task.step json db fault now ranks
  | readLatest event correlation caseRow =>
      (respondSliced json event correlation caseRow
        (fault.read (db.latestDecisionId correlation.caseId))).map fun next => (db, next)
  | _ => some (task.step json db fault now ranks)

/-- An operation that no slice stops is the operation of the projections. -/
theorem stepSliced_eq_step
    {db : Database}
    {fault : Fault}
    {now : Nat}
    {ranks : String → Nat}
    {task : Task}
    {result : Database × Option Task}
    (sliced : task.stepSliced json db fault now ranks = some result) :
    task.step json db fault now ranks = result := by
  cases task with
  | readTarget event correlation supersededEventId =>
      obtain ⟨decisionId, _, isResult⟩ := Option.map_eq_some_iff.mp sliced
      exact isResult
  | readAppealed event correlation citedEventId =>
      obtain ⟨decisionId, _, isResult⟩ := Option.map_eq_some_iff.mp sliced
      exact isResult
  | readSuperseded event correlation supersededEventId target =>
      obtain ⟨next, plan, rfl⟩ := Option.map_eq_some_iff.mp sliced
      unfold supersedeSliced at plan
      dsimp only at plan
      split at plan
      · cases plan
        rfl
      · obtain ⟨decisionId, _, rest⟩ := Option.bind_eq_some_iff.mp plan
        split at rest
        · obtain ⟨ownId, _, rfl⟩ := Option.map_eq_some_iff.mp rest
          rfl
        · cases rest
          rfl
  | readLatest event correlation caseRow =>
      obtain ⟨next, plan, rfl⟩ := Option.map_eq_some_iff.mp sliced
      unfold respondSliced at plan
      split at plan
      · cases plan
        rfl
      · obtain ⟨ownId, _, rfl⟩ := Option.map_eq_some_iff.mp plan
        rfl
  | lookup | readCase | readCited | accept | batch | fail | readReceipt | readOutcome | advance =>
      exact Option.some.inj sliced

end Slices

/-! ## Runs of a task -/

/-- What a task may slice from here on. -/
def Task.identifiers : Task → List String
  | lookup event _ .response => [event.id]
  | lookup event _ (.supersession supersededEventId) => [supersededEventId, event.id]
  | lookup _ _ (.appeal citedEventId) => [citedEventId]
  | readTarget event _ supersededEventId => [supersededEventId, event.id]
  | readCase event _ => [event.id]
  | readSuperseded event _ supersededEventId _ => [supersededEventId, event.id]
  | readAppealed _ _ citedEventId => [citedEventId]
  | readLatest event _ _ => [event.id]
  | _ => []

/-- The operations that a task has left, at most. -/
def Task.remaining : Task → Nat
  | lookup .. => 6
  | readTarget .. | readCase .. | readAppealed .. => 5
  | readSuperseded .. | readLatest .. | readCited .. => 4
  | accept .. | readReceipt .. => 3
  | batch .. | readOutcome .. => 2
  | fail .. | advance .. => 1

theorem remaining_pos
    (task : Task) :
    0 < task.remaining := by
  cases task <;> exact Nat.succ_pos _

section Runs

variable (json : JsonParser)

theorem takeUp_accepts
    {correlation : ReceiptCorrelation}
    {commit : Commit}
    {next : Task}
    (taken : takeUp correlation commit = some next) :
    next = .accept correlation (.commit commit) := by
  unfold takeUp at taken
  split at taken
  · exact (Option.some.inj taken).symm
  · cases taken

theorem respond_accepts
    {event : NostrEvent}
    {correlation : ReceiptCorrelation}
    {caseRow : Option BrokerCaseRow}
    {latest : Option String}
    {next : Task}
    (responded : respond json event correlation caseRow latest = some next) :
    ∃ work, next = .accept correlation work := by
  unfold respond at responded
  split at responded
  · exact ⟨_, (Option.some.inj responded).symm⟩
  · exact ⟨_, takeUp_accepts responded⟩

theorem supersede_accepts
    {event : NostrEvent}
    {correlation : ReceiptCorrelation}
    {supersededEventId : String}
    {target : SupersededDecisionRow}
    {caseRow : Option BrokerCaseRow}
    {ranks : String → Nat}
    {next : Task}
    (superseded : supersede json event correlation supersededEventId target caseRow ranks =
      some next) :
    ∃ work, next = .accept correlation work := by
  unfold supersede at superseded
  split at superseded
  · exact ⟨_, (Option.some.inj superseded).symm⟩
  · exact ⟨_, takeUp_accepts superseded⟩

theorem takeAppeal_accepts
    {event : NostrEvent}
    {correlation : ReceiptCorrelation}
    {citedEventId : String}
    {caseRow : Option BrokerCaseRow}
    {citedCase : Option String}
    {next : Task}
    (taken : takeAppeal event correlation citedEventId caseRow citedCase = some next) :
    ∃ work, next = .accept correlation work := by
  unfold takeAppeal at taken
  split at taken
  · exact ⟨_, (Option.some.inj taken).symm⟩
  · exact ⟨_, takeUp_accepts taken⟩

/-- An operation leaves a task with fewer operations, which slices nothing new. -/
theorem step_advances
    {db after : Database}
    {fault : Fault}
    {now : Nat}
    {ranks : String → Nat}
    {task next : Task}
    (stepped : task.step json db fault now ranks = (after, some next)) :
    next.remaining < task.remaining ∧ next.identifiers ⊆ task.identifiers := by
  have isNext := congrArg Prod.snd stepped
  cases task with
  | lookup event correlation route =>
      simp only [Task.step] at isNext
      split at isNext
      · cases isNext
      · split at isNext
        · cases isNext
          exact ⟨by simp [Task.remaining], List.nil_subset _⟩
        · cases route with
          | response | supersession | appeal =>
              cases isNext
              exact ⟨by simp [Task.remaining], List.Subset.refl _⟩
  | readTarget event correlation supersededEventId =>
      simp only [Task.step] at isNext
      split at isNext
      · cases isNext
        exact ⟨by simp [Task.remaining], List.nil_subset _⟩
      · cases isNext
        exact ⟨by simp [Task.remaining], List.Subset.refl _⟩
  | readCase event correlation =>
      cases isNext
      exact ⟨by simp [Task.remaining], List.Subset.refl _⟩
  | readSuperseded event correlation supersededEventId target =>
      obtain ⟨work, rfl⟩ := supersede_accepts json isNext
      exact ⟨by simp [Task.remaining], List.nil_subset _⟩
  | readAppealed event correlation citedEventId =>
      cases isNext
      exact ⟨by simp [Task.remaining], List.nil_subset _⟩
  | readLatest event correlation caseRow =>
      obtain ⟨work, rfl⟩ := respond_accepts json isNext
      exact ⟨by simp [Task.remaining], List.nil_subset _⟩
  | readCited event correlation citedEventId caseRow =>
      obtain ⟨work, rfl⟩ := takeAppeal_accepts isNext
      exact ⟨by simp [Task.remaining], List.nil_subset _⟩
  | accept correlation work =>
      simp only [Task.step, Work.next] at isNext
      split at isNext
      · split at isNext
        · cases isNext
        · cases isNext
          exact ⟨by simp [Task.remaining], List.nil_subset _⟩
        · split at isNext
          · cases isNext
            exact ⟨by simp [Task.remaining], List.nil_subset _⟩
          · cases isNext
      · cases isNext
        exact ⟨by simp [Task.remaining], List.nil_subset _⟩
      · cases isNext
  | batch planned =>
      simp only [Task.step] at isNext
      split at isNext
      · unfold afterBatch at isNext
        split at isNext
        · cases isNext
        · cases isNext
          exact ⟨by simp [Task.remaining], List.nil_subset _⟩
      · cases isNext
        exact ⟨by simp [Task.remaining], List.nil_subset _⟩
  | fail eventId error => cases isNext
  | readReceipt report =>
      simp only [Task.step] at isNext
      obtain ⟨row, -, parsed⟩ := Option.bind_eq_some_iff.mp isNext
      obtain ⟨current, -, rfl⟩ := Option.map_eq_some_iff.mp parsed
      exact ⟨by simp [Task.remaining], List.nil_subset _⟩
  | readOutcome report current caseId =>
      simp only [Task.step] at isNext
      split at isNext
      · cases isNext
      · unfold takeReport at isNext
        dsimp only at isNext
        split at isNext
        · cases isNext
        · cases isNext
          exact ⟨by simp [Task.remaining], List.nil_subset _⟩
  | advance report current => cases isNext

/-- A task whose identifiers can be sliced is not stopped. -/
theorem isSome_stepSliced
    {db : Database}
    {fault : Fault}
    {now : Nat}
    {ranks : String → Nat}
    {task : Task}
    (sliceable : ∀ id ∈ task.identifiers, Sliceable id) :
    (task.stepSliced json db fault now ranks).isSome := by
  cases task with
  | readTarget event correlation supersededEventId =>
      unfold Task.stepSliced
      rw [Option.isSome_map, isSome_sliceDecisionId_iff]
      exact sliceable supersededEventId List.mem_cons_self
  | readAppealed event correlation citedEventId =>
      unfold Task.stepSliced
      rw [Option.isSome_map, isSome_sliceDecisionId_iff]
      exact sliceable citedEventId List.mem_cons_self
  | readSuperseded event correlation supersededEventId target =>
      obtain ⟨decisionId, cited⟩ := Option.isSome_iff_exists.mp
        ((isSome_sliceDecisionId_iff supersededEventId).mpr
          (sliceable supersededEventId List.mem_cons_self))
      have own := (isSome_sliceDecisionId_iff event.id).mpr
        (sliceable event.id (List.mem_cons_of_mem _ List.mem_cons_self))
      unfold Task.stepSliced supersedeSliced
      dsimp only
      rw [Option.isSome_map]
      split
      · rfl
      · rw [cited, Option.bind_some]
        split
        · rwa [Option.isSome_map]
        · rfl
  | readLatest event correlation caseRow =>
      unfold Task.stepSliced respondSliced
      dsimp only
      rw [Option.isSome_map]
      split
      · rfl
      · rw [Option.isSome_map, isSome_sliceDecisionId_iff]
        exact sliceable event.id List.mem_cons_self
  | lookup | readCase | readCited | accept | batch | fail | readReceipt | readOutcome | advance =>
      rfl

/-- What an operation finds: the tables, how it goes, the time and the ranks. -/
structure Situation where
  db : Database
  fault : Fault
  now : Nat
  ranks : String → Nat

/-- The run of a task through as many operations at most; `none` is a panic. -/
def Task.runSliced (situations : Nat → Situation) : Nat → Task → Option (Option Task)
  | 0, task => some (some task)
  | count + 1, task =>
      let situation := situations count
      (task.stepSliced json situation.db situation.fault situation.now situation.ranks).bind
        fun result =>
          match result.2 with
          | none => some none
          | some next => next.runSliced situations count

/-- A task whose identifiers can be sliced runs to its end. -/
theorem runSliced_ends
    {situations : Nat → Situation}
    {count : Nat}
    {task : Task}
    (sliceable : ∀ id ∈ task.identifiers, Sliceable id)
    (enough : task.remaining ≤ count) :
    task.runSliced json situations count = some none := by
  induction count generalizing task with
  | zero => exact absurd enough (Nat.not_le_of_gt (remaining_pos task))
  | succ count inductionHypothesis =>
      have isSome : (task.stepSliced json (situations count).db (situations count).fault
          (situations count).now (situations count).ranks).isSome :=
        isSome_stepSliced json sliceable
      obtain ⟨⟨after, next⟩, sliced⟩ := Option.isSome_iff_exists.mp isSome
      rw [Task.runSliced, sliced, Option.bind_some]
      cases next with
      | none => rfl
      | some next =>
          obtain ⟨fewer, within⟩ := step_advances json (stepSliced_eq_step json sliced)
          exact inductionHypothesis (fun id isId => sliceable id (within isId)) (by omega)

end Runs

end Governance
end NostrBbs
