import NostrBbs.Governance.SideReceipts
import NostrBbs.Governance.Tables
import NostrBbs.Lib.Run
import NostrBbs.Lib.Selection

/-!
# Escalation on age

The sweep that gives every pending case past its panel's deadline a receipt.  A tick
reads one page of the most overdue cases, those with a receipt among them, and then
writes receipts row by row, while decisions and requests go on.
-/

namespace NostrBbs
namespace Governance

/-- Hours that a case may be pending when its panel names no deadline. -/
def defaultMaxPendingHours : Nat := 72

/-- Whether a case is past its ageing deadline. -/
def isPastPendingDeadline (createdAt now maxPendingHours : Nat) : Bool :=
  let hours := if maxPendingHours = 0 then defaultMaxPendingHours else maxPendingHours
  hours * 3600 < now - createdAt

/-- The columns of a case that the sweep and a request read. -/
structure AgeingCase where
  id : String
  state : String
  createdBy : String
  nostrEventId : String
  createdAt : Nat
  updatedAt : Nat
  maxPendingHours : Option Nat
deriving DecidableEq, Repr

namespace AgeingCase

/-- The deadline in hours, the default for none or zero. -/
def hours (case : AgeingCase) : Nat :=
  (case.maxPendingHours.filter (0 < ·)).getD defaultMaxPendingHours

/-- The time at which a case is due. -/
def deadline (case : AgeingCase) : Nat :=
  case.createdAt + case.hours * 3600

/-- A case that is pending past its deadline. -/
def isStale (case : AgeingCase) (now : Nat) : Bool :=
  pendingStates.contains case.state && decide (case.deadline < now)

/-- A deadline is at least an hour. -/
theorem hours_pos
    (case : AgeingCase) :
    0 < case.hours := by
  unfold hours
  cases case.maxPendingHours with
  | none => decide
  | some hours =>
      by_cases positive : 0 < hours
      · simp [Option.filter, positive]
      · simp [Option.filter, positive, defaultMaxPendingHours]

/-- The query and the predicate agree on what is overdue. -/
theorem isPastPendingDeadline_iff
    (case : AgeingCase)
    (now : Nat) :
    isPastPendingDeadline case.createdAt now case.hours ↔ case.deadline < now := by
  have positive := case.hours_pos
  unfold isPastPendingDeadline deadline
  dsimp only
  rw [if_neg (Nat.ne_of_gt positive), decide_eq_true_eq]
  omega

end AgeingCase

/-! ## Sweeps -/

/-- What one ageing sweep did. -/
structure AgeingSweepResult where
  scanned : Nat
  escalated : Nat
  alreadyEscalated : Nat
  truncated : Bool
deriving DecidableEq, Repr

/-- A sweep between two of its writes: the time it read, and the rows that it has still
to go through. -/
structure AgeingSweep where
  now : Nat
  rows : List AgeingCase
  result : AgeingSweepResult

/-- The cases and their receipts, the sweep under way and what earlier ones did. -/
structure AgeingState where
  cases : Lib.Table AgeingCase AgeingCase.id
  receipts : SideReceipts
  sweep : Option AgeingSweep
  results : List AgeingSweepResult

/-- An answer to the sweep's query: stale cases, the most overdue first. -/
abbrev IsPage (cases : List AgeingCase) (now : Nat) (page : List AgeingCase) : Prop :=
  Lib.IsSelection cases (fun row => row.isStale now) AgeingCase.deadline (ageingBatchSize + 1) page

/-- What happens to the cases: a request is posted, possibly anew; a decision, a
supersession, an appeal or an expiry moves a case; a tick reads its page, which the
database chooses among equally overdue cases; the sweep goes through its next row. -/
inductive AgeingMove where
  | request (row : AgeingCase) (heldAt : Option Nat)
  | decide (caseId state : String)
  | tick (now : Nat) (page : List AgeingCase)
  | write

namespace AgeingState

/-- A request becomes an open case, or replaces the request that its author's pending
case points at when it is strictly newer than that one. -/
def upsertCase (cases : Lib.Table AgeingCase AgeingCase.id) (row : AgeingCase)
    (heldAt : Option Nat) : Lib.Table AgeingCase AgeingCase.id :=
  match cases.insert { row with state := CaseState.open.asStr, updatedAt := row.createdAt } with
  | some inserted => inserted
  | none =>
      cases.updateWhere
        (fun held => held.id == row.id && held.createdBy == row.createdBy &&
          pendingStates.contains held.state && held.nostrEventId != row.nostrEventId &&
            decide (heldAt.getD 0 < row.createdAt))
        (fun held => { held with
          nostrEventId := row.nostrEventId
          updatedAt := row.createdAt
          maxPendingHours := row.maxPendingHours })
        fun _ => rfl

def moveCase (cases : Lib.Table AgeingCase AgeingCase.id) (caseId state : String) :
    Lib.Table AgeingCase AgeingCase.id :=
  cases.updateWhere (fun row => row.id = caseId) (fun row => { row with state := state })
    fun _ => rfl

/-- A sweep goes on to its next row, or ends. -/
def proceed (state : AgeingState) (sweep : AgeingSweep) : AgeingState :=
  if sweep.rows.isEmpty then
    { state with sweep := none, results := state.results ++ [sweep.result] }
  else { state with sweep := some sweep }

/-- A tick, when no sweep is under way, takes the page that its query answers. -/
def tick (state : AgeingState) (now : Nat) (page : List AgeingCase) : AgeingState :=
  if state.sweep.isNone ∧ IsPage state.cases.rows now page then
    state.proceed ⟨now, page.take ageingBatchSize, ⟨0, 0, 0, ageingBatchSize < page.length⟩⟩
  else state

/-- The receipt of a case that is escalated. -/
def escalation (row : AgeingCase) (now : Nat) : SideReceipt where
  caseId := row.id
  stage := .escalatedOnAge
  recordedAt := now
  detail := s!"pending {(now - row.createdAt) / 3600}h against a {row.hours}h deadline"

/-- The sweep goes through its next row. -/
def write (state : AgeingState) : AgeingState :=
  match state.sweep with
  | none => state
  | some ⟨_, [], _⟩ => state
  | some ⟨now, row :: rows, result⟩ =>
      if !isPastPendingDeadline row.createdAt now row.hours then
        state.proceed ⟨now, rows, { result with scanned := result.scanned + 1 }⟩
      else if state.receipts.has row.id .escalatedOnAge then
        state.proceed
          ⟨now, rows,
            { result with
              scanned := result.scanned + 1
              alreadyEscalated := result.alreadyEscalated + 1 }⟩
      else
        { state with receipts := state.receipts.record (escalation row now) }.proceed
          ⟨now, rows,
            { result with
              scanned := result.scanned + 1
              escalated := result.escalated + 1 }⟩

def step (state : AgeingState) : AgeingMove → AgeingState
  | .request row heldAt => { state with cases := upsertCase state.cases row heldAt }
  | .decide caseId after => { state with cases := moveCase state.cases caseId after }
  | .tick now page => state.tick now page
  | .write => state.write

/-- A case has its receipt. -/
def escalated (state : AgeingState) (caseId : String) : Bool :=
  state.receipts.has caseId .escalatedOnAge

end AgeingState

end Governance
end NostrBbs
