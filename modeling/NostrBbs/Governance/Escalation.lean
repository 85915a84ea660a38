import NostrBbs.Governance.Ageing

/-!
# Every overdue case is escalated once

A sweep that finds a case without a receipt on its page escalates one more case.  While
every tick finds one, no case waits for more sweeps than there are overdue cases.  The
page is filled by the most overdue cases, and those that were escalated before are still
among them as long as they are pending.
-/

namespace NostrBbs
namespace Governance

/-- The request that a move posts, with the time of the event its case points at. -/
def AgeingMove.posted : AgeingMove → Option (AgeingCase × Option Nat)
  | .request row heldAt => some (row, heldAt)
  | _ => none

namespace AgeingState

/-! ## What is claimed, and when it holds -/

/-- The time and the page of a sweep that a move begins. -/
def begins (state : AgeingState) : AgeingMove → Option (Nat × List AgeingCase)
  | .tick now page =>
      if state.sweep.isNone ∧ IsPage state.cases.rows now page then some (now, page) else none
  | _ => none

/-- The cases that are pending past their deadlines. -/
def staleIds (state : AgeingState) (now : Nat) : Finset String :=
  ((state.cases.rows.filter fun row => row.isStale now).map AgeingCase.id).toFinset

/-- The cases that a beginning sweep finds overdue. -/
def overdueAt (state : AgeingState) (move : AgeingMove) : Finset String :=
  ((state.begins move).map fun begun => state.staleIds begun.1).getD ∅

/-- The cases that the sweeps of a run find overdue. -/
def overdueIn : AgeingState → List AgeingMove → Finset String
  | _, [] => ∅
  | state, move :: moves => state.overdueAt move ∪ overdueIn (state.step move) moves

/-- A case is pending past its deadline whenever a sweep begins. -/
def StaysOverdue (caseId : String) (state : AgeingState) (move : AgeingMove) : Prop :=
  ∀ begun ∈ state.begins move, ∃ row ∈ state.cases.find? caseId, row.isStale begun.1

/-- A case is given its receipt past its own deadline. -/
def OnTime (state : AgeingState) (move : AgeingMove) : Prop :=
  ∀ caseId, state.escalated caseId = false → (state.step move).escalated caseId →
    ∃ sweep ∈ state.sweep, ∃ row ∈ state.cases.find? caseId,
      isPastPendingDeadline row.createdAt sweep.now row.hours

/-- A sweep that begins while an overdue case has no receipt has such a case among the
rows it handles, and no request puts off the deadline of a case that a sweep has still to
write to. -/
def MakesProgress (state : AgeingState) (move : AgeingMove) : Prop :=
  (∀ begun ∈ state.begins move,
    (∃ row ∈ state.cases.rows, row.isStale begun.1 ∧ state.escalated row.id = false) →
    ∃ row ∈ begun.2.take ageingBatchSize, state.escalated row.id = false) ∧
  ∀ posted ∈ move.posted, ∀ sweep ∈ state.sweep,
    (∃ read ∈ sweep.rows, read.id = posted.1.id) →
      ∀ held ∈ (upsertCase state.cases posted.1 posted.2).find? posted.1.id,
        held.deadline < sweep.now

instance (caseId : String) (state : AgeingState) (move : AgeingMove) :
    Decidable (StaysOverdue caseId state move) :=
  inferInstanceAs (Decidable (∀ begun ∈ state.begins move, _))

instance (state : AgeingState) (move : AgeingMove) : Decidable (MakesProgress state move) :=
  inferInstanceAs (Decidable ((∀ begun ∈ state.begins move, _) ∧ ∀ posted ∈ move.posted, _))

/-! ## What a step does -/

section

variable {state : AgeingState} {move : AgeingMove} {sweep : AgeingSweep} {caseId : String}
  {now : Nat} {page : List AgeingCase}

@[simp] theorem proceed_cases :
    (state.proceed sweep).cases = state.cases := by
  unfold proceed
  split <;> rfl

@[simp] theorem proceed_receipts :
    (state.proceed sweep).receipts = state.receipts := by
  unfold proceed
  split <;> rfl

@[simp] theorem escalated_proceed :
    (state.proceed sweep).escalated caseId = state.escalated caseId := by
  unfold escalated
  rw [proceed_receipts]

/-- The sweep under way is the one that goes on. -/
theorem mem_proceed_sweep
    {under : AgeingSweep}
    (isUnder : under ∈ (state.proceed sweep).sweep) :
    under = sweep := by
  unfold proceed at isUnder
  split at isUnder
  · cases isUnder
  · exact (Option.some.inj isUnder).symm

theorem isSome_proceed_sweep
    (state : AgeingState)
    (sweep : AgeingSweep) :
    (state.proceed sweep).sweep.isSome ↔ sweep.rows ≠ [] := by
  unfold proceed
  split
  · rename_i ended
    simp [List.isEmpty_iff.mp ended]
  · rename_i goesOn
    simp [mt List.isEmpty_iff.mpr goesOn]

/-- Finished sweeps and the one under way, together. -/
def sweepsBegun (state : AgeingState) : Nat :=
  state.results.length + if state.sweep.isSome then 1 else 0

theorem sweepsBegun_proceed :
    (state.proceed sweep).sweepsBegun = state.results.length + 1 := by
  unfold sweepsBegun proceed
  split
  · simp
  · simp

theorem begins_eq_some
    (begun : state.begins move = some (now, page)) :
    move = .tick now page ∧ state.sweep = none ∧ IsPage state.cases.rows now page := by
  cases move with
  | tick at_ answer =>
      unfold begins at begun
      dsimp only at begun
      split at begun
      · rename_i holds
        cases begun
        exact ⟨rfl, Option.isNone_iff_eq_none.mp holds.1, holds.2⟩
      · cases begun
  | request row heldAt => cases begun
  | decide named after => cases begun
  | write => cases begun

theorem step_of_begins
    (begun : state.begins move = some (now, page)) :
    state.step move = state.proceed
      ⟨now, page.take ageingBatchSize, ⟨0, 0, 0, ageingBatchSize < page.length⟩⟩ := by
  obtain ⟨rfl, idle, isPage⟩ := begins_eq_some begun
  unfold step tick
  dsimp only
  rw [if_pos ⟨Option.isNone_iff_eq_none.mpr idle, isPage⟩]

/-- A move that begins no sweep and is no write leaves receipts and sweeps. -/
theorem step_of_not_begins
    (notBegun : state.begins move = none)
    (notWrite : move ≠ .write) :
    (state.step move).receipts = state.receipts ∧ (state.step move).sweep = state.sweep ∧
      (state.step move).results = state.results := by
  cases move with
  | tick at_ answer =>
      unfold begins at notBegun
      dsimp only at notBegun
      split at notBegun
      · cases notBegun
      · rename_i notHolds
        unfold step tick
        dsimp only
        rw [if_neg notHolds]
        exact ⟨rfl, rfl, rfl⟩
  | request row heldAt => exact ⟨rfl, rfl, rfl⟩
  | decide named after => exact ⟨rfl, rfl, rfl⟩
  | write => exact absurd rfl notWrite

/-- The write of a row that is past its deadline: the case has its receipt after it, and
every other case as before. -/
theorem write_spec
    {row : AgeingCase}
    {rows : List AgeingCase}
    {result : AgeingSweepResult}
    (under : state.sweep = some ⟨now, row :: rows, result⟩)
    (past : row.deadline < now) :
    state.write.cases = state.cases ∧
      state.write.sweepsBegun = state.results.length + 1 ∧
      (∀ next ∈ state.write.sweep, next.now = now ∧ next.rows = rows) ∧
      (state.write.sweep.isSome ↔ rows ≠ []) ∧
      ∀ caseId, state.write.escalated caseId ↔ state.escalated caseId ∨ row.id = caseId := by
  have isPast := (row.isPastPendingDeadline_iff now).mpr past
  unfold write
  rw [under]
  dsimp only
  rw [isPast, if_neg (by simp)]
  split
  · rename_i has
    refine ⟨proceed_cases, sweepsBegun_proceed, ?_, isSome_proceed_sweep _ _, ?_⟩
    · intro next isNext
      rw [mem_proceed_sweep isNext]
      exact ⟨rfl, rfl⟩
    · intro caseId
      rw [escalated_proceed]
      constructor
      · exact .inl
      · rintro (escalated | rfl)
        · exact escalated
        · exact has
  · refine ⟨proceed_cases, sweepsBegun_proceed, ?_, isSome_proceed_sweep _ _, ?_⟩
    · intro next isNext
      rw [mem_proceed_sweep isNext]
      exact ⟨rfl, rfl⟩
    · intro caseId
      rw [escalated_proceed]
      unfold escalated
      dsimp only
      rw [SideReceipts.has_record]
      simp [escalation]

/-- A row that is within its deadline is passed over. -/
theorem write_receipts_of_not_past
    {row : AgeingCase}
    {rows : List AgeingCase}
    {result : AgeingSweepResult}
    (under : state.sweep = some ⟨now, row :: rows, result⟩)
    (notPast : ¬row.deadline < now) :
    state.write.receipts = state.receipts := by
  have isWithin : isPastPendingDeadline row.createdAt now row.hours = false := by
    rw [Bool.eq_false_iff]
    exact mt (row.isPastPendingDeadline_iff now).mp notPast
  unfold write
  rw [under]
  dsimp only
  rw [isWithin, if_pos (by simp), proceed_receipts]

/-- A receipt stays. -/
theorem escalated_step
    (has : state.escalated caseId) :
    (state.step move).escalated caseId := by
  cases begun : state.begins move with
  | some begun' =>
      rw [step_of_begins begun, escalated_proceed]
      exact has
  | none =>
      by_cases isWrite : move = .write
      · subst isWrite
        change state.write.escalated caseId
        cases under : state.sweep with
        | none =>
            unfold write
            rw [under]
            exact has
        | some sweep =>
            obtain ⟨now, rows, result⟩ := sweep
            cases rows with
            | nil =>
                unfold write
                rw [under]
                exact has
            | cons row rows =>
                by_cases past : row.deadline < now
                · exact ((write_spec under past).2.2.2.2 caseId).mpr (.inl has)
                · unfold escalated
                  rw [write_receipts_of_not_past under past]
                  exact has
      · unfold escalated
        rw [(step_of_not_begins begun isWrite).1]
        exact has

theorem escalated_run
    (has : state.escalated caseId)
    (moves : List AgeingMove) :
    (Lib.run step state moves).escalated caseId := by
  have kept : ∀ reached move, escalated reached caseId = true →
      (step reached move).escalated caseId = true :=
    fun reached move hasThen => escalated_step hasThen
  exact Lib.invariant_run kept has moves

end

/-! ## Receipts on time -/

/-- The rows that a sweep has still to handle are past their deadlines, as they were read
and as the cases now stand. -/
structure Timely (state : AgeingState) : Prop where
  read : ∀ sweep ∈ state.sweep, ∀ row ∈ sweep.rows, row.deadline < sweep.now
  current : ∀ sweep ∈ state.sweep, ∀ row ∈ sweep.rows,
    ∃ held ∈ state.cases.find? row.id, held.deadline < sweep.now

section

variable {state : AgeingState} {move : AgeingMove}

/-- A case that is moved keeps its deadline. -/
theorem find?_moveCase
    {cases : Lib.Table AgeingCase AgeingCase.id}
    {caseId named after : String}
    {row : AgeingCase}
    (found : cases.find? caseId = some row) :
    ∃ held ∈ (moveCase cases named after).find? caseId, held.deadline = row.deadline := by
  unfold moveCase
  rw [Lib.Table.find?_updateWhere, found, Option.map_some]
  refine ⟨_, rfl, ?_⟩
  split <;> rfl

/-- A request leaves the other cases. -/
theorem find?_upsertCase
    {cases : Lib.Table AgeingCase AgeingCase.id}
    {caseId : String}
    {row held : AgeingCase}
    {heldAt : Option Nat}
    (found : cases.find? caseId = some held)
    (other : caseId ≠ row.id) :
    (upsertCase cases row heldAt).find? caseId = some held := by
  unfold upsertCase
  split
  · rename_i inserted isInserted
    rw [Lib.Table.find?_of_insert isInserted, if_neg (Ne.symm other)]
    exact found
  · have isHeld := (Lib.Table.find?_eq_some_iff.mp found).2
    rw [Lib.Table.find?_updateWhere, found, Option.map_some, if_neg]
    rw [Bool.and_eq_true, Bool.and_eq_true, Bool.and_eq_true, Bool.and_eq_true, beq_iff_eq]
    rintro ⟨⟨⟨⟨same, -⟩, -⟩, -⟩, -⟩
    exact other (isHeld.symm.trans same)

/-- A request leaves a case in the table. -/
theorem isSome_upsertCase
    {cases : Lib.Table AgeingCase AgeingCase.id}
    {caseId : String}
    {held : AgeingCase}
    (row : AgeingCase)
    (heldAt : Option Nat)
    (found : cases.find? caseId = some held) :
    ((upsertCase cases row heldAt).find? caseId).isSome := by
  unfold upsertCase
  split
  · rename_i inserted isInserted
    rw [Lib.Table.find?_of_insert isInserted]
    split
    · rfl
    · rw [found]
      rfl
  · rw [Lib.Table.find?_updateWhere, found]
    rfl

theorem Timely.step
    (timely : Timely state)
    (progress : MakesProgress state move) :
    Timely (state.step move) := by
  cases begun : state.begins move with
  | some sweep =>
      obtain ⟨now, page⟩ := sweep
      obtain ⟨-, -, isPage⟩ := begins_eq_some begun
      have past : ∀ row ∈ page.take ageingBatchSize,
          row ∈ state.cases.rows ∧ row.deadline < now := by
        intro row isRow
        obtain ⟨held, stale⟩ := isPage.selected row (List.mem_of_mem_take isRow)
        unfold AgeingCase.isStale at stale
        rw [Bool.and_eq_true, decide_eq_true_eq] at stale
        exact ⟨held, stale.2⟩
      rw [step_of_begins begun]
      constructor
      · intro under isUnder row isRow
        rw [mem_proceed_sweep isUnder] at isRow ⊢
        exact (past row isRow).2
      · intro under isUnder row isRow
        rw [mem_proceed_sweep isUnder] at isRow ⊢
        rw [proceed_cases]
        obtain ⟨held, isPast⟩ := past row isRow
        exact ⟨row, Lib.Table.find?_of_mem held, isPast⟩
  | none =>
      cases move with
      | tick now page =>
          obtain ⟨-, sameSweep, -⟩ := step_of_not_begins begun nofun
          have sameCases : (state.step (.tick now page)).cases = state.cases := by
            unfold AgeingState.step tick
            dsimp only
            split
            · exact proceed_cases
            · rfl
          constructor
          · rw [sameSweep]
            exact timely.read
          · rw [sameSweep, sameCases]
            exact timely.current
      | request row heldAt =>
          refine ⟨timely.read, ?_⟩
          intro sweep isUnder read isRead
          obtain ⟨held, found, past⟩ := timely.current sweep isUnder read isRead
          by_cases same : read.id = row.id
          · obtain ⟨after, isAfter⟩ := Option.isSome_iff_exists.mp
              (isSome_upsertCase row heldAt found)
            refine ⟨after, isAfter, ?_⟩
            rw [same] at isAfter
            exact progress.2 (row, heldAt) rfl sweep isUnder ⟨read, isRead, same⟩ after isAfter
          · exact ⟨held, find?_upsertCase found same, past⟩
      | decide named after =>
          refine ⟨timely.read, ?_⟩
          intro sweep isUnder read isRead
          obtain ⟨held, found, past⟩ := timely.current sweep isUnder read isRead
          obtain ⟨moved, isMoved, sameDeadline⟩ := find?_moveCase found
          refine ⟨moved, isMoved, ?_⟩
          rw [sameDeadline]
          exact past
      | write =>
          change Timely state.write
          cases under : state.sweep with
          | none =>
              unfold AgeingState.write
              rw [under]
              exact timely
          | some sweep =>
              obtain ⟨now, rows, result⟩ := sweep
              cases rows with
              | nil =>
                  unfold AgeingState.write
                  rw [under]
                  exact timely
              | cons row rows =>
                  have past := timely.read _ under row List.mem_cons_self
                  obtain ⟨sameCases, -, rest, -, -⟩ := write_spec under past
                  constructor
                  · intro next isNext other isOther
                    obtain ⟨sameNow, sameRows⟩ := rest next isNext
                    rw [sameRows] at isOther
                    rw [sameNow]
                    exact timely.read _ under other (List.mem_cons_of_mem row isOther)
                  · intro next isNext other isOther
                    obtain ⟨sameNow, sameRows⟩ := rest next isNext
                    rw [sameRows] at isOther
                    rw [sameNow, sameCases]
                    exact timely.current _ under other (List.mem_cons_of_mem row isOther)

/-- Receipts are on time while the rows of the sweep are. -/
theorem Timely.onTime
    (timely : Timely state) :
    OnTime state move := by
  intro caseId hadNone hasNow
  cases begun : state.begins move with
  | some sweep =>
      rw [step_of_begins begun, escalated_proceed, hadNone] at hasNow
      cases hasNow
  | none =>
      by_cases isWrite : move = .write
      · subst isWrite
        change state.write.escalated caseId at hasNow
        cases under : state.sweep with
        | none =>
            unfold write at hasNow
            rw [under] at hasNow
            dsimp only at hasNow
            rw [hadNone] at hasNow
            cases hasNow
        | some sweep =>
            obtain ⟨now, rows, result⟩ := sweep
            cases rows with
            | nil =>
                unfold write at hasNow
                rw [under] at hasNow
                dsimp only at hasNow
                rw [hadNone] at hasNow
                cases hasNow
            | cons row rows =>
                have past := timely.read _ under row List.mem_cons_self
                rcases ((write_spec under past).2.2.2.2 caseId).mp hasNow with had | isRow
                · rw [hadNone] at had
                  cases had
                · obtain ⟨held, found, isPast⟩ :=
                    timely.current _ under row List.mem_cons_self
                  refine ⟨_, rfl, held, ?_, (held.isPastPendingDeadline_iff now).mpr isPast⟩
                  rw [← isRow]
                  exact found
      · unfold escalated at hasNow hadNone
        rw [(step_of_not_begins begun isWrite).1, hadNone] at hasNow
        cases hasNow

end

/-! ## Sweeps and receipts -/

/-- The cases that were escalated since the start. -/
def gained (start state : AgeingState) : Finset String :=
  ((state.receipts.rows.filter fun receipt =>
    receipt.stage = .escalatedOnAge ∧ start.escalated receipt.caseId = false).map
      SideReceipt.caseId).toFinset

/-- A row that the sweep has still to handle has no receipt. -/
def Waiting (state : AgeingState) : Prop :=
  ∃ sweep ∈ state.sweep, ∃ row ∈ sweep.rows, state.escalated row.id = false

open Classical in
/-- The sweeps that were begun since the start gained a case each, but for the one under
way, and what it reads was overdue. -/
structure Accounted (start state : AgeingState) (seen : Finset String) : Prop where
  timely : Timely state
  reads : ∀ sweep ∈ state.sweep, ∀ row ∈ sweep.rows, row.id ∈ seen
  grows : ∀ caseId, start.escalated caseId → state.escalated caseId
  overdue : gained start state ⊆ seen
  begun : state.sweepsBegun ≤ (gained start state).card + if state.Waiting then 1 else 0

section

variable {start state : AgeingState} {move : AgeingMove} {seen : Finset String}
  {caseId : String}

theorem mem_gained :
    caseId ∈ gained start state ↔
      state.escalated caseId ∧ start.escalated caseId = false := by
  unfold gained
  rw [List.mem_toFinset, List.mem_map]
  constructor
  · rintro ⟨receipt, isReceipt, rfl⟩
    obtain ⟨held, isStage⟩ := List.mem_filter.mp isReceipt
    rw [decide_eq_true_eq] at isStage
    refine ⟨?_, isStage.2⟩
    have found := Lib.Table.find?_of_mem held
    unfold escalated SideReceipts.has
    rw [SideReceipt.key, isStage.1] at found
    rw [found]
    rfl
  · rintro ⟨isEscalated, notBefore⟩
    obtain ⟨receipt, found⟩ := Option.isSome_iff_exists.mp isEscalated
    obtain ⟨held, isKey⟩ := Lib.Table.find?_eq_some_iff.mp found
    rw [SideReceipt.key, Prod.mk.injEq] at isKey
    obtain ⟨rfl, isStage⟩ := isKey
    refine ⟨receipt, List.mem_filter.mpr ⟨held, ?_⟩, rfl⟩
    rw [decide_eq_true_eq]
    exact ⟨isStage, notBefore⟩

theorem mem_staleIds
    {now : Nat} :
    caseId ∈ state.staleIds now ↔ ∃ row ∈ state.cases.rows, row.isStale now ∧ row.id = caseId := by
  unfold staleIds
  rw [List.mem_toFinset, List.mem_map]
  simp [and_assoc]

theorem overdueAt_of_begins
    {now : Nat}
    {page : List AgeingCase}
    (begun : state.begins move = some (now, page)) :
    state.overdueAt move = state.staleIds now := by
  unfold overdueAt
  rw [begun]
  rfl

/-- The receipts alone tell which cases were gained. -/
theorem gained_congr
    (start : AgeingState)
    {after : AgeingState}
    (same : ∀ caseId, after.escalated caseId = state.escalated caseId) :
    gained start after = gained start state := by
  ext caseId
  rw [mem_gained, mem_gained, same]

/-- A sweep that begins has a case to gain. -/
theorem Accounted.begin
    (accounted : Accounted start state seen)
    (progress : MakesProgress state move)
    {now : Nat}
    {page : List AgeingCase}
    (begun : state.begins move = some (now, page))
    (waits : ∃ row ∈ state.cases.rows, row.isStale now ∧ state.escalated row.id = false) :
    Accounted start (state.step move) (seen ∪ state.overdueAt move) := by
  obtain ⟨-, idle, isPage⟩ := begins_eq_some begun
  obtain ⟨fresh, isFresh, noReceipt⟩ := progress.1 (now, page) begun waits
  have timely := accounted.timely.step progress
  have sameReceipts : ∀ caseId, (state.step move).escalated caseId = state.escalated caseId := by
    intro caseId
    rw [step_of_begins begun, escalated_proceed]
  have sameGained := gained_congr start sameReceipts
  have isWaiting : (state.step move).Waiting := by
    refine ⟨⟨now, page.take ageingBatchSize, ⟨0, 0, 0, ageingBatchSize < page.length⟩⟩, ?_,
      fresh, isFresh, ?_⟩
    · rw [step_of_begins begun]
      unfold proceed
      rw [if_neg]
      · rfl
      · rw [List.isEmpty_iff]
        exact List.ne_nil_of_mem isFresh
    · rw [sameReceipts]
      exact noReceipt
  refine ⟨timely, ?_, ?_, ?_, ?_⟩
  · intro sweep isUnder row isRow
    rw [step_of_begins begun] at isUnder
    rw [mem_proceed_sweep isUnder] at isRow
    obtain ⟨held, isStale⟩ := isPage.selected row (List.mem_of_mem_take isRow)
    rw [overdueAt_of_begins begun]
    exact Finset.mem_union_right seen (mem_staleIds.mpr ⟨row, held, isStale, rfl⟩)
  · intro caseId had
    rw [sameReceipts]
    exact accounted.grows caseId had
  · rw [sameGained]
    exact accounted.overdue.trans Finset.subset_union_left
  · have before := accounted.begun
    have notWaiting : ¬state.Waiting := by
      rintro ⟨sweep, isUnder, -⟩
      rw [idle] at isUnder
      cases isUnder
    rw [if_neg notWaiting] at before
    unfold sweepsBegun at before
    rw [idle] at before
    rw [sameGained, if_pos isWaiting, step_of_begins begun, sweepsBegun_proceed]
    simp only [Option.isSome_none, Bool.false_eq_true, if_false, Nat.add_zero] at before
    omega

/-- A row that is handled is gained, or had its receipt. -/
theorem Accounted.write
    (accounted : Accounted start state seen)
    (progress : MakesProgress state .write) :
    Accounted start state.write seen := by
  have timely : Timely state.write := accounted.timely.step progress
  cases under : state.sweep with
  | none =>
      unfold AgeingState.write at timely ⊢
      rw [under] at timely ⊢
      exact accounted
  | some sweep =>
      obtain ⟨now, rows, result⟩ := sweep
      cases rows with
      | nil =>
          unfold AgeingState.write at timely ⊢
          rw [under] at timely ⊢
          exact accounted
      | cons row rows =>
          have past := accounted.timely.read _ under row List.mem_cons_self
          obtain ⟨-, begunSame, rest, goesOn, receipts⟩ := write_spec under past
          have rowSeen := accounted.reads _ under row List.mem_cons_self
          have before := accounted.begun
          have sameBegun : state.write.sweepsBegun = state.sweepsBegun := by
            rw [begunSame]
            unfold sweepsBegun
            rw [under]
            rfl
          refine ⟨timely, ?_, ?_, ?_, ?_⟩
          · intro next isNext other isOther
            rw [(rest next isNext).2] at isOther
            exact accounted.reads _ under other (List.mem_cons_of_mem row isOther)
          · exact fun caseId had => (receipts caseId).mpr (.inl (accounted.grows caseId had))
          · intro caseId isGained
            obtain ⟨isEscalated, notBefore⟩ := mem_gained.mp isGained
            rcases (receipts caseId).mp isEscalated with had | rfl
            · exact accounted.overdue (mem_gained.mpr ⟨had, notBefore⟩)
            · exact rowSeen
          · rw [sameBegun]
            by_cases had : state.escalated row.id
            · -- the row had its receipt: nothing is gained, and the others wait as before
              have sameReceipts : ∀ caseId,
                  state.write.escalated caseId = state.escalated caseId := by
                intro caseId
                rw [Bool.eq_iff_iff, receipts]
                constructor
                · rintro (has | rfl)
                  · exact has
                  · exact had
                · exact .inl
              have waitsOn : state.Waiting → state.write.Waiting := by
                rintro ⟨sweep, isUnder, other, isOther, noReceipt⟩
                rw [under] at isUnder
                cases isUnder
                rcases List.mem_cons.mp isOther with rfl | isRest
                · rw [had] at noReceipt
                  cases noReceipt
                · obtain ⟨next, isNext⟩ := Option.isSome_iff_exists.mp
                    (goesOn.mpr (List.ne_nil_of_mem isRest))
                  refine ⟨next, isNext, other, ?_, ?_⟩
                  · rw [(rest next isNext).2]
                    exact isRest
                  · rw [sameReceipts]
                    exact noReceipt
              rw [gained_congr start sameReceipts]
              by_cases waits : state.Waiting
              · rw [if_pos waits] at before
                rw [if_pos (waitsOn waits)]
                exact before
              · rw [if_neg waits] at before
                exact before.trans (Nat.le_add_right _ _)
            · -- the row is gained
              rw [Bool.not_eq_true] at had
              have notBefore : start.escalated row.id = false := by
                by_contra escalatedBefore
                rw [Bool.not_eq_false] at escalatedBefore
                rw [accounted.grows row.id escalatedBefore] at had
                cases had
              have oneMore : (gained start state).card + 1 ≤ (gained start state.write).card := by
                have isNew : row.id ∉ gained start state := by
                  intro isGained
                  rw [(mem_gained.mp isGained).1] at had
                  cases had
                rw [← Finset.card_insert_of_notMem isNew]
                apply Finset.card_le_card
                intro caseId isMember
                rcases Finset.mem_insert.mp isMember with rfl | isGained
                · exact mem_gained.mpr ⟨(receipts row.id).mpr (.inr rfl), notBefore⟩
                · obtain ⟨hadIt, notIt⟩ := mem_gained.mp isGained
                  exact mem_gained.mpr ⟨(receipts caseId).mpr (.inl hadIt), notIt⟩
              split at before
              · omega
              · omega

/-- Other moves leave receipts and sweeps. -/
theorem Accounted.other
    (accounted : Accounted start state seen)
    (progress : MakesProgress state move)
    (notBegun : state.begins move = none)
    (notWrite : move ≠ .write) :
    Accounted start (state.step move) (seen ∪ state.overdueAt move) := by
  obtain ⟨sameReceipts, sameSweep, sameResults⟩ := step_of_not_begins notBegun notWrite
  have same : ∀ caseId, (state.step move).escalated caseId = state.escalated caseId := by
    intro caseId
    unfold escalated
    rw [sameReceipts]
  have nothing : state.overdueAt move = ∅ := by
    unfold overdueAt
    rw [notBegun]
    rfl
  have sameWaiting : (state.step move).Waiting ↔ state.Waiting := by
    unfold Waiting
    rw [sameSweep]
    simp only [same]
  rw [nothing, Finset.union_empty]
  refine ⟨accounted.timely.step progress, ?_, ?_, ?_, ?_⟩
  · rw [sameSweep]
    exact accounted.reads
  · intro caseId had
    rw [same]
    exact accounted.grows caseId had
  · rw [gained_congr start same]
    exact accounted.overdue
  · have sameBegun : (state.step move).sweepsBegun = state.sweepsBegun := by
      unfold sweepsBegun
      rw [sameSweep, sameResults]
    rw [gained_congr start same, sameBegun]
    have before := accounted.begun
    by_cases waits : state.Waiting
    · rw [if_pos waits] at before
      rw [if_pos (sameWaiting.mpr waits)]
      exact before
    · rw [if_neg waits] at before
      rw [if_neg (mt sameWaiting.mp waits)]
      exact before

/-- While a case waits for its receipt every sweep that begins is accounted for. -/
theorem Accounted.run
    {caseId : String}
    {moves : List AgeingMove}
    (accounted : Accounted start state seen)
    (progress : Lib.Along step MakesProgress state moves)
    (stays : Lib.Along step (StaysOverdue caseId) state moves)
    (noReceipt : (Lib.run step state moves).escalated caseId = false) :
    Accounted start (Lib.run step state moves) (seen ∪ overdueIn state moves) := by
  induction moves generalizing state seen with
  | nil =>
      unfold overdueIn
      rw [Finset.union_empty]
      exact accounted
  | cons move moves inductionHypothesis =>
      unfold overdueIn
      rw [← Finset.union_assoc]
      refine inductionHypothesis ?_ progress.2 stays.2 noReceipt
      cases begun : state.begins move with
      | some sweep =>
          obtain ⟨now, page⟩ := sweep
          obtain ⟨row, found, isStale⟩ := stays.1 (now, page) begun
          obtain ⟨held, isCase⟩ := Lib.Table.find?_eq_some_iff.mp found
          refine accounted.begin progress.1 begun ⟨row, held, isStale, ?_⟩
          by_contra has
          rw [Bool.not_eq_false, isCase] at has
          rw [escalated_run has (move :: moves)] at noReceipt
          cases noReceipt
      | none =>
          by_cases isWrite : move = .write
          · subst isWrite
            have nothing : state.overdueAt .write = ∅ := rfl
            rw [nothing, Finset.union_empty]
            exact accounted.write progress.1
          · exact accounted.other progress.1 begun isWrite

end

end AgeingState

open AgeingState in
/-- In every run whose sweeps make progress, a case that stays pending past its deadline
and has no receipt has waited for no more sweeps than there were other overdue cases;
every receipt is given past the deadline of its case, and no case has two. -/
theorem overdue_cases_escalated
    (start : AgeingState)
    (idle : start.sweep = none)
    (unswept : start.results = [])
    (moves : List AgeingMove)
    (progress : Lib.Along step MakesProgress start moves) :
    (∀ caseId, Lib.Along step (StaysOverdue caseId) start moves →
      (Lib.run step start moves).escalated caseId = false →
      (Lib.run step start moves).results.length ≤
        ((overdueIn start moves).erase caseId).card) ∧
    Lib.Along step OnTime start moves ∧
    ∀ caseId, ((Lib.run step start moves).receipts.rows.filter fun receipt =>
      receipt.key = (caseId, .escalatedOnAge)).length ≤ 1 := by
  have timely : Timely start := by
    constructor
    · rw [idle]
      exact nofun
    · rw [idle]
      exact nofun
  refine ⟨?_, ?_, ?_⟩
  · intro caseId stays noReceipt
    have nothing : gained start start = ∅ := by
      apply Finset.eq_empty_of_forall_notMem
      intro other isGained
      obtain ⟨has, hasNot⟩ := mem_gained.mp isGained
      rw [has] at hasNot
      cases hasNot
    have initially : Accounted start start ∅ := by
      refine ⟨timely, ?_, fun _ => id, ?_, ?_⟩
      · rw [idle]
        exact nofun
      · rw [nothing]
      · unfold sweepsBegun
        rw [idle, unswept]
        exact Nat.zero_le _
    have accounted := initially.run progress stays noReceipt
    rw [Finset.empty_union] at accounted
    have others : gained start (Lib.run step start moves) ⊆ (overdueIn start moves).erase caseId := by
      intro other isGained
      refine Finset.mem_erase.mpr ⟨?_, accounted.overdue isGained⟩
      rintro rfl
      rw [(mem_gained.mp isGained).1] at noReceipt
      cases noReceipt
    have bounded := Finset.card_le_card others
    have begun := accounted.begun
    unfold sweepsBegun at begun
    -- a row that waits is of the sweep under way
    have underWay : (Lib.run step start moves).Waiting →
        (Lib.run step start moves).sweep.isSome := by
      rintro ⟨sweep, isUnder, -⟩
      exact Option.isSome_iff_exists.mpr ⟨sweep, isUnder⟩
    by_cases waits : (Lib.run step start moves).Waiting
    · rw [if_pos waits, if_pos (underWay waits)] at begun
      omega
    · rw [if_neg waits] at begun
      omega
  · exact Lib.along_of_along (fun state move timely progress => Timely.step timely progress)
      (fun state move timely _ => Timely.onTime timely) timely progress
  · exact fun caseId => SideReceipts.receipts_le_one _ caseId _

/-! ## A backlog -/

namespace Sample

open AgeingState

/-- A case that was raised some seconds after the first. -/
def backlogCase (index : Nat) : AgeingCase where
  id := String.ofList (List.replicate index 'c')
  state := "open"
  createdBy := "agent"
  nostrEventId := "request"
  createdAt := index
  updatedAt := index
  maxPendingHours := none

theorem backlogCase_injective :
    Function.Injective (AgeingCase.id ∘ backlogCase) := by
  intro first second same
  have sameChars := congrArg String.toList same
  simpa [backlogCase] using congrArg List.length sameChars

/-- Some cases of one deadline. -/
def backlogRows (count : Nat) : List AgeingCase :=
  (List.range count).map backlogCase

/-- As many cases as the query answers, and no receipt. -/
def backlog : AgeingState where
  cases := ⟨backlogRows (ageingBatchSize + 1), by
    rw [backlogRows, List.map_map]
    exact List.nodup_range.map backlogCase_injective⟩
  receipts := .empty
  sweep := none
  results := []

/-- The time of every tick: all cases are overdue. -/
def late : Nat := 1000000

/-- The case that was raised last. -/
def lastCase : AgeingCase :=
  backlogCase ageingBatchSize

/-- A tick, and its sweep to the end. -/
def sweepMoves : List AgeingMove :=
  .tick late (backlogRows (ageingBatchSize + 1)) :: List.replicate ageingBatchSize .write

/-- Two cases, and a sweep that has written to one of them. -/
def pair : AgeingState :=
  { backlog with cases := ⟨backlogRows 2, by decide⟩ }

end Sample

open AgeingState Sample in
theorem overdue_cases_escalated_pair :
    Lib.Along step MakesProgress pair [.tick late (backlogRows 2), .write] ∧
      (Lib.run step pair [.tick late (backlogRows 2), .write]).results.length ≤
        ((overdueIn pair [.tick late (backlogRows 2), .write]).erase (backlogCase 1).id).card := by
  have progress : Lib.Along step MakesProgress pair [.tick late (backlogRows 2), .write] := by
    decide +kernel
  refine ⟨progress, ?_⟩
  exact (overdue_cases_escalated pair rfl rfl _ progress).1 (backlogCase 1).id
    (by decide +kernel) (by decide +kernel)

namespace Sample

open AgeingState

/-- Between two sweeps over the backlog the last case has no receipt. -/
structure Starving (state : AgeingState) (finished : Nat) : Prop where
  sameCases : state.cases = backlog.cases
  idle : state.sweep = none
  finished : state.results.length = finished
  noReceipt : state.escalated lastCase.id = false

theorem mem_backlogRows
    {row : AgeingCase}
    {count : Nat} :
    row ∈ backlogRows count ↔ ∃ index < count, backlogCase index = row := by
  unfold backlogRows
  rw [List.mem_map]
  simp only [List.mem_range]

theorem backlog_stale
    {row : AgeingCase}
    (isRow : row ∈ backlogRows (ageingBatchSize + 1)) :
    row.isStale late := by
  obtain ⟨index, below, rfl⟩ := mem_backlogRows.mp isRow
  unfold AgeingCase.isStale
  rw [Bool.and_eq_true, decide_eq_true_eq]
  refine ⟨rfl, ?_⟩
  change index + 72 * 3600 < 1000000
  unfold ageingBatchSize at below
  omega

/-- All the backlog is one page. -/
theorem isPage_backlog :
    IsPage (backlogRows (ageingBatchSize + 1)) late (backlogRows (ageingBatchSize + 1)) := by
  refine Lib.isSelection_all ?_ (fun row isRow => backlog_stale isRow) ?_ ?_
  · exact List.Nodup.of_map AgeingCase.id backlog.cases.distinct
  · unfold backlogRows
    rw [List.pairwise_map]
    refine List.pairwise_lt_range.imp ?_
    intro first second before
    change first + 72 * 3600 ≤ second + 72 * 3600
    omega
  · simp [backlogRows]

/-- The rest of a sweep over rows before the last one. -/
theorem run_writes
    {state : AgeingState}
    {rows : List AgeingCase}
    {result : AgeingSweepResult}
    (under : state.sweep = some ⟨late, rows, result⟩)
    (goesOn : rows ≠ [])
    (past : ∀ row ∈ rows, row.deadline < late)
    (before : ∀ row ∈ rows, row.id ≠ lastCase.id) :
    (Lib.run step state (List.replicate rows.length .write)).cases = state.cases ∧
      (Lib.run step state (List.replicate rows.length .write)).sweep = none ∧
      (Lib.run step state (List.replicate rows.length .write)).results.length =
        state.results.length + 1 ∧
      (Lib.run step state (List.replicate rows.length .write)).escalated lastCase.id =
        state.escalated lastCase.id := by
  induction rows generalizing state result with
  | nil => exact absurd rfl goesOn
  | cons row rest inductionHypothesis =>
      obtain ⟨sameCases, begun, next, isNext, receipts⟩ :=
        write_spec under (past row List.mem_cons_self)
      have sameLast : state.write.escalated lastCase.id = state.escalated lastCase.id := by
        rw [Bool.eq_iff_iff, receipts]
        exact or_iff_left (before row List.mem_cons_self)
      unfold sweepsBegun at begun
      rw [List.length_cons, List.replicate_succ, Lib.run_cons]
      change (Lib.run step state.write _).cases = _ ∧ _
      cases ended : state.write.sweep with
      | none =>
          have noRest : rest = [] := by
            by_contra more
            have isSome := isNext.mpr more
            rw [ended] at isSome
            cases isSome
          subst noRest
          rw [ended] at begun
          exact ⟨sameCases, ended, begun, sameLast⟩
      | some sweep =>
          obtain ⟨sameNow, sameRows⟩ := next sweep ended
          have more : rest ≠ [] := isNext.mp (by rw [ended]; rfl)
          have isRest : state.write.sweep = some ⟨late, rest, sweep.result⟩ := by
            rw [ended, ← sameNow, ← sameRows]
          obtain ⟨restCases, idle, finished, restLast⟩ := inductionHypothesis isRest more
            (fun other isOther => past other (List.mem_cons_of_mem row isOther))
            (fun other isOther => before other (List.mem_cons_of_mem row isOther))
          rw [ended] at begun
          refine ⟨restCases.trans sameCases, idle, ?_, restLast.trans sameLast⟩
          change (Lib.run step state.write _).results.length = state.results.length + 1
          rw [finished]
          exact begun

/-- No write begins a sweep. -/
theorem along_writes
    (caseId : String)
    (state : AgeingState)
    (count : Nat) :
    Lib.Along step (StaysOverdue caseId) state (List.replicate count .write) := by
  rw [Lib.along_iff_prefixes]
  intro taken move isInitial
  have isMove : move ∈ List.replicate count AgeingMove.write :=
    isInitial.subset (List.mem_append_right taken (List.mem_singleton_self move))
  rw [List.eq_of_mem_replicate isMove]
  exact nofun

theorem Starving.sweep
    {state : AgeingState}
    {finished : Nat}
    (starving : Starving state finished) :
    Lib.Along step (StaysOverdue lastCase.id) state sweepMoves ∧
      Starving (Lib.run step state sweepMoves) (finished + 1) := by
  have isPage : IsPage state.cases.rows late (backlogRows (ageingBatchSize + 1)) := by
    rw [starving.sameCases]
    exact isPage_backlog
  have begun : state.begins (.tick late (backlogRows (ageingBatchSize + 1))) =
      some (late, backlogRows (ageingBatchSize + 1)) := by
    unfold begins
    dsimp only
    rw [if_pos ⟨Option.isNone_iff_eq_none.mpr starving.idle, isPage⟩]
  have isHandled : (backlogRows (ageingBatchSize + 1)).take ageingBatchSize =
      backlogRows ageingBatchSize := by
    unfold backlogRows
    rw [← List.map_take, List.take_range, Nat.min_eq_left (Nat.le_succ ageingBatchSize)]
  have isLength : (backlogRows ageingBatchSize).length = ageingBatchSize := by
    simp [backlogRows]
  have isStep := step_of_begins begun
  rw [isHandled] at isStep
  have under : (state.step (.tick late (backlogRows (ageingBatchSize + 1)))).sweep =
      some ⟨late, backlogRows ageingBatchSize, ⟨0, 0, 0,
        ageingBatchSize < (backlogRows (ageingBatchSize + 1)).length⟩⟩ := by
    rw [isStep]
    rfl
  have swept := run_writes under (by decide)
    (by
      intro row isRow
      obtain ⟨index, below, isCase⟩ := mem_backlogRows.mp isRow
      have stale := backlog_stale (mem_backlogRows.mpr ⟨index, Nat.lt_succ_of_lt below, isCase⟩)
      unfold AgeingCase.isStale at stale
      rw [Bool.and_eq_true, decide_eq_true_eq] at stale
      exact stale.2)
    (by
      intro row isRow same
      obtain ⟨index, below, rfl⟩ := mem_backlogRows.mp isRow
      exact Nat.ne_of_lt below (backlogCase_injective same))
  rw [isLength] at swept
  obtain ⟨sameCases, idle, oneMore, sameLast⟩ := swept
  have isRun : Lib.run step state sweepMoves =
      Lib.run step (state.step (.tick late (backlogRows (ageingBatchSize + 1))))
        (List.replicate ageingBatchSize .write) := by
    unfold sweepMoves
    rw [Lib.run_cons]
  refine ⟨⟨?_, along_writes _ _ _⟩, ?_⟩
  · intro begun' isBegun
    rw [begun] at isBegun
    cases isBegun
    have isLast : lastCase ∈ state.cases.rows := by
      rw [starving.sameCases]
      exact mem_backlogRows.mpr ⟨ageingBatchSize, Nat.lt_succ_self _, rfl⟩
    refine ⟨lastCase, Lib.Table.find?_of_mem isLast, ?_⟩
    rw [starving.sameCases] at isLast
    exact backlog_stale isLast
  · rw [isRun]
    constructor
    · rw [sameCases, isStep, proceed_cases]
      exact starving.sameCases
    · exact idle
    · rw [oneMore, isStep, ← starving.finished]
      rfl
    · rw [sameLast, isStep, escalated_proceed]
      exact starving.noReceipt

end Sample

open AgeingState Sample in
/-- No number of sweeps is enough for the last of the backlog to have a receipt, though it is
overdue all along. -/
theorem backlog_starves :
    ¬ ∃ sweeps : Nat,
      Lib.Along step (StaysOverdue lastCase.id) backlog
          (List.replicate sweeps sweepMoves).flatten →
        (Lib.run step backlog (List.replicate sweeps sweepMoves).flatten).results.length =
            sweeps →
          (Lib.run step backlog (List.replicate sweeps sweepMoves).flatten).escalated
            lastCase.id = true := by
  rintro ⟨sweeps, escalates⟩
  have starved : ∀ count, Lib.Along step (StaysOverdue lastCase.id) backlog
        (List.replicate count sweepMoves).flatten ∧
      Starving (Lib.run step backlog (List.replicate count sweepMoves).flatten) count := by
    intro count
    induction count with
    | zero => exact ⟨trivial, ⟨rfl, rfl, rfl, rfl⟩⟩
    | succ count inductionHypothesis =>
        obtain ⟨along, starving⟩ := inductionHypothesis
        obtain ⟨sweepAlong, swept⟩ := starving.sweep
        rw [List.replicate_succ', List.flatten_append, List.flatten_singleton, Lib.run_append]
        exact ⟨(Lib.along_append _ _ _).mpr ⟨along, sweepAlong⟩, swept⟩
  obtain ⟨along, starving⟩ := starved sweeps
  have receipt := escalates along starving.finished
  rw [starving.noReceipt] at receipt
  cases receipt

end Governance
end NostrBbs
