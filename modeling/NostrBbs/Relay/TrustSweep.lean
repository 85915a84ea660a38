import NostrBbs.Lib.Keyset
import NostrBbs.Lib.Run
import NostrBbs.Relay.Trust
import Mathlib.Data.Prod.Lex
import Mathlib.Data.String.Basic

/-!
# The demotion sweep

A sweep walks the rows that may be demoted by pages after a cursor, while other requests
change the table between its operations.  It evaluates no row twice, changes no row twice
and skips no row that stays eligible, and neither does a chain of sweeps, each of which
starts from the cursor that is stored for it.
-/

namespace NostrBbs
namespace Relay

def demotionBatchSize : Nat := 200

def demotionMaxRows : Nat := 50000

def maxSampledFailures : Nat := 32

/-- The sort key of a row: the time of its last activity, then its key. -/
abbrev SweepCursor := Nat ×ₗ String

/-- The cursor positioned immediately after a row. -/
def SweepCursor.after (row : WhitelistTrustRow) : SweepCursor :=
  toLex (row.lastActiveAt.getD 0, row.pubkey)

def SweepCursor.pubkey (cursor : SweepCursor) : String :=
  (ofLex cursor).2

inductive FailureStage where
  | page | commit
deriving DecidableEq

structure SweepFailure where
  pubkey : Option String
  stage : FailureStage
  error : String
deriving DecidableEq

/-- The outcome of a sweep. -/
structure DemotionSweepResult where
  scanned : Nat := 0
  demoted : Nat := 0
  held : Nat := 0
  failed : Nat := 0
  truncated : Bool := false
  aborted : Bool := false
  failures : List SweepFailure := []
  resumePubkey : Option String := none
  resumeCursor : Option SweepCursor := none

namespace DemotionSweepResult

def isBalanced (result : DemotionSweepResult) : Bool :=
  result.scanned = result.demoted + result.held + result.failed

def recordFailure
    (result : DemotionSweepResult)
    (pubkey : Option String)
    (stage : FailureStage)
    (error : String) : DemotionSweepResult :=
  if result.failures.length < maxSampledFailures then
    { result with failures := result.failures ++ [⟨pubkey, stage, error⟩] }
  else
    result

end DemotionSweepResult

/-! ## Other requests -/

/-- What other requests do to the table.  They stamp an activity with a time at or after
the start of the sweep, and are free in everything else. -/
structure Requests (now : Nat) where
  change : TrustTable → TrustTable
  stamps : ∀ table, ∀ row ∈ (change table).rows,
    row.lastActiveAt = none ∨ (∃ time ∈ row.lastActiveAt, now ≤ time) ∨
      ∃ old ∈ table.rows, old.pubkey = row.pubkey ∧ old.lastActiveAt = row.lastActiveAt

/-- No request. -/
def Requests.idle (now : Nat) : Requests now where
  change table := table
  stamps _ row isRow := .inr (.inr ⟨row, isRow, rfl, rfl⟩)

/-- A request after others. -/
def Requests.next {now : Nat} (first second : Requests now) : Requests now where
  change table := second.change (first.change table)
  stamps table row isRow := by
    rcases second.stamps _ row isRow with isNull | isLate | ⟨old, isOld, sameKey, sameTime⟩
    · exact .inl isNull
    · exact .inr (.inl isLate)
    · rw [← sameKey, ← sameTime]
      exact first.stamps table old isOld

/-- The write of an activity, which may count a day. -/
def updateLastActive
    {now : Nat}
    (pubkey : String)
    (time : Nat)
    (newDay : Bool)
    (later : now ≤ time) : Requests now where
  change table := table.updateWhere (fun row => row.pubkey = pubkey) (fun row =>
    { row with
      lastActiveAt := some time
      daysActive := row.daysActive + if newDay then 1 else 0 }) fun _ => rfl
  stamps table row isRow := by
    obtain ⟨old, isOld, rfl⟩ := Lib.Table.mem_updateWhere.mp isRow
    split
    · exact .inr (.inl ⟨time, rfl, later⟩)
    · exact .inr (.inr ⟨old, isOld, rfl, rfl⟩)

/-- A commit can fail before it has an effect, or after it. -/
inductive CommitFault where
  | refused (error : String)
  | unconfirmed

/-- What happens around each operation of a sweep. -/
structure Environment (now : Nat) where
  meanwhile : Nat → Requests now
  pageError : Nat → Option String
  commitFault : Nat → Option CommitFault

/-! ## The engine -/

/-- A sweep under way.  The last three fields are a record of it: the keys that each page
query could choose from, the keys evaluated, and the rows changed. -/
structure TrustSweep where
  table : TrustTable
  operations : Nat := 0
  cursor : Option SweepCursor
  result : DemotionSweepResult := {}
  offered : List (List SweepCursor) := []
  evaluated : List SweepCursor := []
  committed : List String := []

/-- The demotable band, past the inactivity gate, and not exempt. -/
def isCandidate (cutoff : Int) (row : WhitelistTrustRow) : Bool :=
  TrustLevel.member.asI32 ≤ row.trustLevel ∧ row.trustLevel ≤ TrustLevel.regular.asI32 ∧
    (row.lastActiveAt.getD 0 : Int) ≤ cutoff ∧ row.isAdmin.getD 0 = 0

def candidatePage
    (cutoff : Int)
    (after : Option SweepCursor)
    (limit : Nat)
    (table : TrustTable) : List WhitelistTrustRow :=
  Lib.keysetPage SweepCursor.after limit after (table.rows.filter (isCandidate cutoff))

/-- A row is as it was observed, so that its demotion applies. -/
def asObserved (observed row : WhitelistTrustRow) : Bool :=
  row.pubkey = observed.pubkey ∧
    row.trustLevel = (TrustLevel.fromI32 observed.trustLevel).asI32 ∧
    row.isAdmin = observed.isAdmin ∧ row.isAdmin.getD 0 ≠ 1 ∧
    row.lastActiveAt = observed.lastActiveAt ∧
    row.trustLevelUpdatedAt = observed.trustLevelUpdatedAt ∧
    row.daysActive = observed.daysActive ∧ row.postsRead = observed.postsRead ∧
    row.postsCreated = observed.postsCreated ∧
    row.modActionsAgainst = observed.modActionsAgainst

/-- The trust update and its audit row, in one batch. -/
def commitDemotion
    (target : TrustLevel)
    (now : Nat)
    (observed : WhitelistTrustRow)
    (fault : Option CommitFault)
    (sweep : TrustSweep) : TrustSweep × Except String Unit :=
  match fault with
  | some (.refused error) => (sweep, .error error)
  | _ =>
      let conflict := "trust snapshot for " ++ observed.pubkey ++
        " changed concurrently or commit metadata unavailable"
      if sweep.table.countWhere (asObserved observed) = 1 then
        ({ sweep with
            table := sweep.table.updateWhere (asObserved observed) (fun row =>
              { row with trustLevel := target.asI32, trustLevelUpdatedAt := some now }) fun _ => rfl
            committed := sweep.committed ++ [observed.pubkey] },
          if fault.isSome then .error conflict else .ok ())
      else
        (sweep, .error conflict)

section Engine

variable (belowBand : BelowBand) (thresholds : TrustThresholds) {now : Nat}
  (environment : Environment now) (batchSize maxRows : Nat)

/-- The other requests have their turn before the next operation. -/
def TrustSweep.await (sweep : TrustSweep) : TrustSweep :=
  { sweep with
    table := (environment.meanwhile sweep.operations).change sweep.table
    operations := sweep.operations + 1 }

/-- The cursor advances before anything that can fail. -/
def TrustSweep.advance (sweep : TrustSweep) (row : WhitelistTrustRow) : TrustSweep :=
  { sweep with
    cursor := some (SweepCursor.after row)
    evaluated := sweep.evaluated ++ [SweepCursor.after row]
    result :=
      { sweep.result with
        resumeCursor := some (SweepCursor.after row)
        resumePubkey := some row.pubkey
        scanned := sweep.result.scanned + 1 } }

/-- The evaluation of one row of a page. -/
def evaluateRow (sweep : TrustSweep) (row : WhitelistTrustRow) : TrustSweep :=
  let sweep := sweep.advance row
  match decideDemotion belowBand thresholds now row with
  | .hold _ => { sweep with result := { sweep.result with held := sweep.result.held + 1 } }
  | .demote _ target =>
      match commitDemotion target now row (environment.commitFault sweep.operations)
        (sweep.await environment) with
      | (sweep, .ok ()) =>
          { sweep with result := { sweep.result with demoted := sweep.result.demoted + 1 } }
      | (sweep, .error error) =>
          { sweep with
            result := { sweep.result with failed := sweep.result.failed + 1 }.recordFailure
              (some row.pubkey) .commit error }

/-- The rows of a page in turn, and whether the sweep returns within it. -/
def evaluatePage : List WhitelistTrustRow → TrustSweep → TrustSweep × Bool
  | [], sweep => (sweep, false)
  | row :: rest, sweep =>
      let sweep := evaluateRow belowBand thresholds environment sweep row
      if maxRows ≤ sweep.result.scanned then
        ({ sweep with result := { sweep.result with truncated := true } }, true)
      else
        evaluatePage rest sweep

/-- Page after page; nothing when the fuel is out. -/
def sweepPages : Nat → TrustSweep → Option TrustSweep
  | 0, _ => none
  | fuel + 1, sweep =>
      match environment.pageError sweep.operations with
      | some error =>
          let sweep := sweep.await environment
          some { sweep with
            result := { sweep.result with aborted := true }.recordFailure none .page error }
      | none =>
          let cutoff : Int := now - inactivityDemotionSecs
          let sweep := sweep.await environment
          let page := candidatePage cutoff sweep.cursor (max batchSize 1) sweep.table
          let sweep := { sweep with
            offered := sweep.offered ++
              [(sweep.table.rows.filter (isCandidate cutoff)).map SweepCursor.after] }
          if page.length = 0 then
            some sweep
          else
            match evaluatePage belowBand thresholds environment maxRows page sweep with
            | (sweep, true) => some sweep
            | (sweep, false) =>
                if page.length < max batchSize 1 then
                  some sweep
                else
                  sweepPages fuel sweep

/-- A sweep from a cursor. -/
def runDemotionSweepFrom
    (after : Option SweepCursor)
    (table : TrustTable) : Option TrustSweep :=
  sweepPages belowBand thresholds environment batchSize maxRows (maxRows + 1)
    { table, cursor := after }

end Engine

end Relay
end NostrBbs
