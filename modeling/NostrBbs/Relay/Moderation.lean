import NostrBbs.Lib.Pool
import NostrBbs.Lib.Table
import NostrBbs.Relay.Admission

/-!
# Reports and what they hide

Members report events, three pending reports hide the event, and administrators
resolve reports.  A report is inserted, its event's pending reports are counted and the
event is hidden by three statements, between which others may come.  Who is a member,
an administrator or a device's owner does not change here.
-/

namespace NostrBbs
namespace Relay

open Lib.Program (call)

/-! ## Rows -/

inductive ReportStatus where
  | pending | resolvedDismiss | resolvedApprove
deriving DecidableEq, Repr

/-- A report as it is inserted. -/
structure Report where
  reportEventId : String
  reporterPubkey : String
  reportedEventId : String
  reportedPubkey : String
  reason : String
  reasonText : Option String
  createdAt : Nat
deriving DecidableEq, Repr

/-- How an administrator resolved a report. -/
structure Resolved where
  resolvedBy : String
  resolution : String
  resolvedAt : Nat
deriving DecidableEq, Repr

/-- A row of the reports. -/
structure ReportRow where
  id : Nat
  report : Report
  status : ReportStatus
  resolved : Option Resolved
deriving DecidableEq, Repr

namespace ReportRow

def reportEventId (row : ReportRow) : String :=
  row.report.reportEventId

/-- A pending report against an event. -/
def isPendingFor (row : ReportRow) (eventId : String) : Bool :=
  row.report.reportedEventId == eventId && row.status == .pending

end ReportRow

abbrev Reports := Lib.Table ReportRow ReportRow.reportEventId

/-- Who hid an event. -/
inductive HiddenBy where
  | autoModeration
  | admin (pubkey : String)
deriving DecidableEq, Repr

structure HiddenRow where
  eventId : String
  hiddenBy : HiddenBy
  reason : String
  createdAt : Nat
deriving DecidableEq, Repr

abbrev HiddenEvents := Lib.Table HiddenRow HiddenRow.eventId

/-- The reports, the hidden events and the stored ones. -/
structure Moderated (trigger : TagTrigger) where
  reports : Reports
  hidden : HiddenEvents
  store : Store trigger

namespace Moderated

variable {trigger : TagTrigger} (state : Moderated trigger)

def isHidden (eventId : String) : Bool :=
  (state.hidden.find? eventId).isSome

def pendingReports (eventId : String) : List ReportRow :=
  state.reports.rows.filter fun row => row.isPendingFor eventId

/-- A report inserted as pending, unless its event was reported before. -/
def insertReport (report : Report) : Moderated trigger :=
  { state with
    reports := (state.reports.insert ⟨state.reports.rows.length + 1, report, .pending, none⟩).getD
      state.reports }

/-- A report resolved. -/
def resolveReport (id : Nat) (status : ReportStatus) (resolved : Resolved) : Moderated trigger :=
  { state with
    reports := state.reports.updateWhere (fun row => row.id == id)
      (fun row => { row with status := status, resolved := some resolved }) fun _ => rfl }

/-- An event hidden, unless it is. -/
def hideEvent (row : HiddenRow) : Moderated trigger :=
  { state with hidden := (state.hidden.insert row).getD state.hidden }

end Moderated

/-! ## Statements -/

inductive ModerationOp where
  | saveEvent (event : NostrEvent) (treatment : EventTreatment) (now : Nat)
  | broadcastEvent (event : NostrEvent)
  | insertReport (report : Report)
  | countPending (eventId : String)
  | hideEvent (row : HiddenRow)
  | selectReport (id : Nat)
  | resolveReport (id : Nat) (status : ReportStatus) (resolved : Resolved)
  | deleteEvents (doomed : EventRow → Bool)

/-- What a statement answers: `none` and `false` when it failed. -/
abbrev ModerationOp.Answer : ModerationOp → Type
  | saveEvent _ _ _ => Bool
  | broadcastEvent _ => Unit
  | insertReport _ => Bool
  | countPending _ => Option Nat
  | hideEvent _ => Unit
  | selectReport _ => Option (Option ReportRow)
  | resolveReport _ _ _ => Bool
  | deleteEvents _ => Unit

/-- A statement may fail, and leave the tables. -/
structure ModerationChoice where
  fails : Bool
deriving DecidableEq, Repr

abbrev ModerationProgram := Lib.Program ModerationOp ModerationOp.Answer

/-- What a statement does. -/
def answerModeration {trigger : TagTrigger} (state : Moderated trigger)
    (choice : ModerationChoice) : (op : ModerationOp) → Moderated trigger × op.Answer
  | .saveEvent event treatment now =>
      if choice.fails then (state, false)
      else ({ state with store := state.store.saveEvent event treatment now }, true)
  | .broadcastEvent _ => (state, ())
  | .insertReport report =>
      if choice.fails then (state, false) else (state.insertReport report, true)
  | .countPending eventId =>
      (state, if choice.fails then none else some (state.pendingReports eventId).length)
  | .hideEvent row => (if choice.fails then state else state.hideEvent row, ())
  | .selectReport id =>
      (state, if choice.fails then none
        else some (state.reports.rows.find? fun row => row.id == id))
  | .resolveReport id status resolved =>
      if choice.fails then (state, false) else (state.resolveReport id status resolved, true)
  | .deleteEvents doomed =>
      (if choice.fails then state
        else { state with store := state.store.deleteWhere doomed }, ())

/-! ## Reporting -/

/-- The pending reports that hide an event. -/
def autoHideThreshold : Nat := 3

/-- The row that hides an event by its reports. -/
def autoHidden (eventId : String) (now : Nat) : HiddenRow where
  eventId := eventId
  hiddenBy := .autoModeration
  reason := "auto-hide: 3+ reports"
  createdAt := now

/-- A report inserted, and its event hidden when it has three pending reports. -/
def insertReport (report : Report) (now : Nat) : ModerationProgram Bool := do
  let inserted : Bool ← call (ModerationOp.insertReport report)
  if !inserted then pure false
  else
    let pendingCount : Option Nat ← call (ModerationOp.countPending report.reportedEventId)
    match pendingCount with
    | none => pure false
    | some pendingCount =>
        if autoHideThreshold ≤ pendingCount then
          let _ ← call (ModerationOp.hideEvent (autoHidden report.reportedEventId now))
          pure true
        else pure false

/-- The reason of a report: its code and free text. -/
def reportReason (event : NostrEvent) : String × Option String :=
  let reason := (tagValue event "report").getD
    (if event.content = "" then "other" else event.content)
  if reason ∈ ["nudity", "profanity", "illegal", "spam", "impersonation"] then
    (reason, if event.content = "" then none else some event.content)
  else ("other", some reason)

/-- A report event processed once it is stored. -/
def processReport (event : NostrEvent) (now : Nat) : ModerationProgram Unit :=
  match tagValue event "e", tagValue event "p" with
  | some reportedEventId, some reportedPubkey => do
      let reason := reportReason event
      let _ ← insertReport ⟨event.id, event.pubkey, reportedEventId, reportedPubkey, reason.1,
        reason.2, now⟩ now
      pure ()
  | _, _ => pure ()

/-- An event that comes in. -/
def submitEvent (ingress : Ingress) (submission : Submission) : ModerationProgram EventReply :=
  let event := submission.event
  if !submission.withinRate then pure (.notice "rate limit exceeded")
  else
    match ingress.refusal submission.sessionAuthed event submission.now with
    | some reason => pure (.ok false reason)
    | none =>
        let treatment := eventTreatment event.kind
        if treatment = .ephemeral then do
          let _ ← call (ModerationOp.broadcastEvent event)
          pure (.ok true "")
        else do
          let saved : Bool ← call (ModerationOp.saveEvent event treatment submission.now)
          if !saved then pure (.ok false "error: failed to save event")
          else
            let _ ← call (ModerationOp.broadcastEvent event)
            if event.kind = kindReport then
              let _ ← processReport event submission.now
              pure (.ok true "")
            else pure (.ok true "")

/-! ## Resolving -/

/-- A request to resolve a report: the administrator or why there is none. -/
structure Resolution where
  admin : Except (Nat × String) String
  reportId : Option Nat
  resolution : Option String
  reason : String
  now : Nat

/-- The status that a resolution gives a report. -/
def statusOf (resolution : String) : Option ReportStatus :=
  if resolution = "dismiss" then some .resolvedDismiss
  else if resolution = "hide" ∨ resolution = "delete" then some .resolvedApprove
  else none

/-- A resolution's status and error, if any. -/
def handleResolveReport (request : Resolution) : ModerationProgram (Nat × Option String) :=
  match request.admin with
  | .error (status, error) => pure (status, some error)
  | .ok admin =>
      match request.reportId with
      | none => pure (400, some "Missing report_id")
      | some id =>
          match request.resolution, request.resolution.bind statusOf with
          | some resolution, some status => do
              let found : Option (Option ReportRow) ← call (ModerationOp.selectReport id)
              match found with
              | none => pure (500, none)
              | some none => pure (404, some "Report not found")
              | some (some row) =>
                  if row.status ≠ .pending then pure (400, some "Report already resolved")
                  else
                    let updated : Bool ← call (ModerationOp.resolveReport id status
                      ⟨admin, resolution, request.now⟩)
                    if !updated then pure (500, none)
                    else if resolution = "hide" then
                      let _ ← call (ModerationOp.hideEvent
                        ⟨row.report.reportedEventId, .admin admin, request.reason, request.now⟩)
                      pure (200, none)
                    else if resolution = "delete" then
                      let _ ← call (ModerationOp.deleteEvents fun stored =>
                        stored.id == row.report.reportedEventId)
                      pure (200, none)
                    else pure (200, none)
          | _, _ => pure (400, some "Invalid resolution. Use: dismiss, hide, delete")

/-! ## Runs -/

/-- An event is submitted, a report is resolved, or stored events are deleted for another
reason. -/
inductive ModerationRequest where
  | submit (submission : Submission)
  | resolve (request : Resolution)
  | deleteEvents (doomed : EventRow → Bool)

inductive ModerationReply where
  | submitted (reply : EventReply)
  | resolved (reply : Nat × Option String)
  | deleted

namespace Ingress

variable (ingress : Ingress)

def moderationProgram : ModerationRequest → ModerationProgram ModerationReply
  | .submit submission => do
      let reply ← submitEvent ingress submission
      pure (.submitted reply)
  | .resolve request => do
      let reply ← handleResolveReport request
      pure (.resolved reply)
  | .deleteEvents doomed => do
      let _ ← call (ModerationOp.deleteEvents doomed)
      pure .deleted

end Ingress

abbrev ModerationEvent := Lib.Event ModerationOp ModerationChoice ModerationOp.Answer

abbrev ModerationMove := Lib.Move ModerationRequest ModerationChoice

abbrev ModerationPool (trigger : TagTrigger) :=
  Lib.Pool (Moderated trigger) ModerationRequest ModerationOp ModerationChoice
    ModerationOp.Answer ModerationReply

abbrev stepModeration (trigger : TagTrigger) (ingress : Ingress) :
    ModerationPool trigger → ModerationMove → ModerationPool trigger :=
  Lib.Pool.step ingress.moderationProgram answerModeration

end Relay
end NostrBbs
