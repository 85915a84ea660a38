import NostrBbs.Relay.Moderation
import NostrBbs.Relay.OverSets

/-!
# Hiding needs three people

An event is hidden by reports when three members have pending ones against it, provided
that the rows that are counted are three members' and no administrator resolves one
before the event is hidden.  What is hidden is kept from the other sessions exactly when
the read gates withhold it anyway.
-/

namespace NostrBbs
namespace Relay

open Lib (Visits Along)
open Lib.Program (call)

/-! ## Three members -/

section Members

variable {trigger : TagTrigger} (ingress : Ingress)

/-- A key reports as an administrator or for a member of the first trust level or above. -/
def Entitled (pubkey : String) : Prop :=
  ingress.isAdmin pubkey = true ∨
    (ingress.trustLevel (ingress.effectivePubkey pubkey)).below .member = false

/-- The members with pending reports against an event, each device counting as its
owner. -/
def pendingMembers (state : Moderated trigger) (eventId : String) : Finset String :=
  ((state.pendingReports eventId).map fun row =>
    ingress.effectivePubkey row.report.reporterPubkey).toFinset

/-- Three members each have a pending report against an event. -/
def ThreeReport (state : Moderated trigger) (eventId : String) : Prop :=
  ∃ members : Finset String, 3 ≤ members.card ∧ ∀ member ∈ members,
    ∃ row ∈ state.pendingReports eventId,
      ingress.effectivePubkey row.report.reporterPubkey = member ∧
        Entitled ingress row.report.reporterPubkey

/-- An event that is hidden by its reports has those of three members. -/
def HidesByThree (pool : ModerationPool trigger) (move : ModerationMove) : Prop :=
  Lib.Pool.PerformsAfter (fun state _ _ op => ∀ row, op = .hideEvent row →
    row.hiddenBy = .autoModeration → ThreeReport ingress state row.eventId) pool move

/-- The event that a request is about to hide by its reports. -/
def aboutToHide : ModerationProgram ModerationReply → Option String
  | .perform (.hideEvent row) _ =>
      if row.hiddenBy = .autoModeration then some row.eventId else none
  | _ => none

/-- Reports that are counted to three are three members', and a report that is resolved
leaves three members' to every event that is about to be hidden. -/
def CountsMembers (pool : ModerationPool trigger) (choice : ModerationChoice) :
    ModerationOp → Prop
  | .countPending eventId =>
      choice.fails = false → 3 ≤ (pool.state.pendingReports eventId).length →
        3 ≤ (pendingMembers ingress pool.state eventId).card
  | .resolveReport id status resolved =>
      choice.fails = false → ∀ task ∈ pool.tasks, ∀ eventId ∈ aboutToHide task.rest,
        3 ≤ (pendingMembers ingress (pool.state.resolveReport id status resolved) eventId).card
  | _ => True

def JudgesMembers (pool : ModerationPool trigger) (move : ModerationMove) : Prop :=
  Lib.Pool.PerformsAfter (fun _ _ choice op => CountsMembers ingress pool choice op) pool move

instance CountsMembers.decidable (pool : ModerationPool trigger) (choice : ModerationChoice)
    (op : ModerationOp) : Decidable (CountsMembers ingress pool choice op) :=
  match op with
  | .countPending eventId =>
      inferInstanceAs (Decidable (choice.fails = false →
        3 ≤ (pool.state.pendingReports eventId).length →
          3 ≤ (pendingMembers ingress pool.state eventId).card))
  | .resolveReport id status resolved =>
      inferInstanceAs (Decidable (choice.fails = false → ∀ task ∈ pool.tasks,
        ∀ eventId ∈ aboutToHide task.rest,
          3 ≤ (pendingMembers ingress (pool.state.resolveReport id status resolved)
            eventId).card))
  | .saveEvent .. | .broadcastEvent _ | .insertReport _ | .hideEvent _ | .selectReport _
  | .deleteEvents _ => isTrue trivial

instance JudgesMembers.decidable (pool : ModerationPool trigger) (move : ModerationMove) :
    Decidable (JudgesMembers ingress pool move) :=
  inferInstanceAs (Decidable (Lib.Pool.PerformsAfter _ pool move))

end Members

/-! ## What the programs do -/

section Programs

variable {ingress : Ingress}

/-- Only entitled keys' reports are inserted, and an event is hidden by its reports just
after they were counted to three. -/
def HidesCounted (ingress : Ingress) (past : List ModerationEvent) : ModerationOp → Prop
  | .insertReport report => Entitled ingress report.reporterPubkey
  | .hideEvent row => row.hiddenBy = .autoModeration →
      ∃ choice count, past.getLast? = some ⟨.countPending row.eventId, choice, some count⟩ ∧
        3 ≤ count
  | _ => True

/-- The trust gate lets only entitled keys report. -/
theorem entitled_of_admitted
    {submission : Submission}
    (admitted : ingress.refusal submission.sessionAuthed submission.event submission.now = none)
    (isReport : submission.event.kind = kindReport) :
    Entitled ingress submission.event.pubkey := by
  have passes : ingress.trustGate submission.event = none := by
    have isGate : ingress.trustGate submission.event ∈
        ingress.earlierGates submission.sessionAuthed submission.event submission.now := by
      unfold Ingress.earlierGates
      simp only [List.mem_cons, true_or, or_true]
    exact List.findSome?_eq_none_iff.mp admitted _ (List.mem_append_left _ isGate)
  have isPrincipal : ingress.principalOf submission.event =
      ingress.effectivePubkey submission.event.pubkey := by
    simp [Ingress.principalOf, isReport, kindReport]
  rcases Bool.eq_false_or_eq_true (ingress.isAdmin submission.event.pubkey) with isAdmin | notAdmin
  · exact .inl isAdmin
  · refine .inr ?_
    by_contra below
    rw [Bool.not_eq_false, ← isPrincipal] at below
    unfold Ingress.trustGate at passes
    dsimp only at passes
    rw [if_neg (by simp [notAdmin]), if_neg (by simp [isReport, kindReport]),
      if_neg (by simp [isReport, kindReport]), if_pos ⟨isReport, below⟩] at passes
    cases passes

theorem follows_insertReport
    {report : Report}
    (now : Nat)
    (past : List ModerationEvent)
    (entitled : Entitled ingress report.reporterPubkey) :
    (insertReport report now).Follows (HidesCounted ingress) past := by
  refine Lib.Program.follows_call entitled ?_
  intro _ inserted
  cases inserted with
  | false => trivial
  | true =>
      refine Lib.Program.follows_call trivial ?_
      intro choice counted
      cases counted with
      | none => trivial
      | some count =>
          dsimp only
          split
          · rename_i enough
            refine Lib.Program.follows_call ?_ fun _ _ => trivial
            intro _
            exact ⟨choice, count, List.getLast?_concat, enough⟩
          · trivial

theorem follows_processReport
    {event : NostrEvent}
    (now : Nat)
    (past : List ModerationEvent)
    (entitled : Entitled ingress event.pubkey) :
    (processReport event now).Follows (HidesCounted ingress) past := by
  unfold processReport
  split
  · exact (follows_insertReport now past entitled).bind fun _ _ => trivial
  · trivial

theorem follows_submitEvent
    (submission : Submission) :
    (submitEvent ingress submission).Follows (HidesCounted ingress) [] := by
  unfold submitEvent
  dsimp only
  split
  · trivial
  · split
    · trivial
    · rename_i admitted
      split
      · exact Lib.Program.follows_call trivial fun _ _ => trivial
      · refine Lib.Program.follows_call trivial ?_
        intro _ saved
        cases saved with
        | false => trivial
        | true =>
            refine Lib.Program.follows_call trivial ?_
            intro _ _
            split
            · rename_i isReport
              exact (follows_processReport _ _ (entitled_of_admitted admitted isReport)).bind
                fun _ _ => trivial
            · trivial

theorem follows_handleResolveReport
    (request : Resolution) :
    (handleResolveReport request).Follows (HidesCounted ingress) [] := by
  unfold handleResolveReport
  split
  · trivial
  · split
    · trivial
    · split
      · refine Lib.Program.follows_call trivial ?_
        intro _ found
        split
        · trivial
        · trivial
        · split
          · trivial
          · refine Lib.Program.follows_call trivial ?_
            intro _ updated
            split
            · trivial
            · split
              · exact Lib.Program.follows_call (by rintro ⟨⟩) fun _ _ => trivial
              · split
                · exact Lib.Program.follows_call trivial fun _ _ => trivial
                · trivial
      · trivial

theorem follows_moderationProgram
    (request : ModerationRequest) :
    (ingress.moderationProgram request).Follows (HidesCounted ingress) [] := by
  cases request with
  | submit submission => exact (follows_submitEvent submission).bind fun _ _ => trivial
  | resolve request => exact (follows_handleResolveReport request).bind fun _ _ => trivial
  | deleteEvents doomed => exact Lib.Program.follows_call trivial fun _ _ => trivial

end Programs

/-! ## Three members' reports are counted -/

section Counted

variable {trigger : TagTrigger} {ingress : Ingress}

/-- Reports are entitled keys', and three members' are pending against every event that is
about to be hidden by its reports. -/
structure MembersKept (ingress : Ingress) (pool : ModerationPool trigger) : Prop where
  entitled : ∀ row ∈ pool.state.reports.rows, Entitled ingress row.report.reporterPubkey
  counted : ∀ task ∈ pool.tasks, ∀ eventId ∈ aboutToHide task.rest,
    3 ≤ (pendingMembers ingress pool.state eventId).card

/-- What keeps the pending reports against an event keeps the members. -/
theorem pendingMembers_mono
    {state after : Moderated trigger}
    {eventId : String}
    (keeps : state.pendingReports eventId ⊆ after.pendingReports eventId) :
    pendingMembers ingress state eventId ⊆ pendingMembers ingress after eventId := by
  intro member isMember
  unfold pendingMembers at isMember ⊢
  rw [List.mem_toFinset] at isMember ⊢
  exact List.map_subset _ keeps isMember

theorem pendingReports_insertReport
    (state : Moderated trigger)
    (report : Report)
    (eventId : String) :
    state.pendingReports eventId ⊆ (state.insertReport report).pendingReports eventId := by
  intro row isPending
  unfold Moderated.pendingReports at isPending ⊢
  rw [List.mem_filter] at isPending ⊢
  refine ⟨?_, isPending.2⟩
  unfold Moderated.insertReport
  dsimp only
  cases inserted : state.reports.insert ⟨state.reports.rows.length + 1, report, .pending, none⟩ with
  | none => exact isPending.1
  | some after => exact (Lib.Table.mem_of_insert inserted).mpr (.inl isPending.1)

/-- Three members' reports stay pending against an event while another task goes on. -/
theorem pendingMembers_answer
    {pool : ModerationPool trigger}
    {choice : ModerationChoice}
    {op : ModerationOp}
    (judged : CountsMembers ingress pool choice op)
    {task : Lib.Task ModerationRequest ModerationOp ModerationChoice ModerationOp.Answer
      ModerationReply}
    (held : task ∈ pool.tasks)
    {eventId : String}
    (isDue : eventId ∈ aboutToHide task.rest)
    (counted : 3 ≤ (pendingMembers ingress pool.state eventId).card) :
    3 ≤ (pendingMembers ingress (answerModeration pool.state choice op).1 eventId).card := by
  cases op with
  | insertReport report =>
      unfold answerModeration
      dsimp only
      split
      · exact counted
      · exact counted.trans (Finset.card_le_card
          (pendingMembers_mono (pendingReports_insertReport pool.state report eventId)))
  | resolveReport id status resolved =>
      unfold answerModeration
      dsimp only
      split
      · exact counted
      · rename_i succeeds
        exact judged (by simpa using succeeds) task held eventId isDue
  | saveEvent event treatment now =>
      unfold answerModeration
      dsimp only
      split <;> exact counted
  | hideEvent row =>
      unfold answerModeration
      dsimp only
      split <;> exact counted
  | deleteEvents doomed =>
      unfold answerModeration
      dsimp only
      split <;> exact counted
  | broadcastEvent event => exact counted
  | countPending other => exact counted
  | selectReport id => exact counted

/-- An operation that the programs allow leaves only entitled keys' reports. -/
theorem entitled_answer
    {state : Moderated trigger}
    (choice : ModerationChoice)
    {past : List ModerationEvent}
    {op : ModerationOp}
    (isAllowed : HidesCounted ingress past op)
    (entitled : ∀ row ∈ state.reports.rows, Entitled ingress row.report.reporterPubkey) :
    ∀ row ∈ (answerModeration state choice op).1.reports.rows,
      Entitled ingress row.report.reporterPubkey := by
  cases op with
  | insertReport report =>
      unfold answerModeration
      dsimp only
      split
      · exact entitled
      · unfold Moderated.insertReport
        dsimp only
        cases inserted :
            state.reports.insert ⟨state.reports.rows.length + 1, report, .pending, none⟩ with
        | none => exact entitled
        | some after =>
            intro row held
            rcases (Lib.Table.mem_of_insert inserted).mp held with isOld | rfl
            · exact entitled row isOld
            · exact isAllowed
  | resolveReport id status resolved =>
      unfold answerModeration
      dsimp only
      split
      · exact entitled
      · intro row held
        obtain ⟨old, isOld, rfl⟩ := List.mem_map.mp held
        have before := entitled old isOld
        split <;> exact before
  | saveEvent event treatment now =>
      unfold answerModeration
      dsimp only
      split <;> exact entitled
  | hideEvent row =>
      unfold answerModeration
      dsimp only
      split <;> exact entitled
  | deleteEvents doomed =>
      unfold answerModeration
      dsimp only
      split <;> exact entitled
  | broadcastEvent event => exact entitled
  | countPending eventId => exact entitled
  | selectReport id => exact entitled

theorem aboutToHide_eq_some
    {program : ModerationProgram ModerationReply}
    {eventId : String}
    (isDue : aboutToHide program = some eventId) :
    ∃ row next, program = .perform (.hideEvent row) next ∧ row.hiddenBy = .autoModeration ∧
      row.eventId = eventId := by
  unfold aboutToHide at isDue
  split at isDue
  · rename_i row next
    split at isDue
    · rename_i byReports
      exact ⟨row, next, rfl, byReports, Option.some.inj isDue⟩
    · cases isDue
  · cases isDue

/-- A task that is about to hide an event has just counted its pending reports. -/
theorem counted_next
    {pool : ModerationPool trigger}
    {choice : ModerationChoice}
    {past : List ModerationEvent}
    {op : ModerationOp}
    {rest : ModerationProgram ModerationReply}
    {eventId : String}
    (follows : rest.Follows (HidesCounted ingress)
      (past ++ [⟨op, choice, (answerModeration pool.state choice op).2⟩]))
    (judged : CountsMembers ingress pool choice op)
    (isDue : eventId ∈ aboutToHide rest) :
    3 ≤ (pendingMembers ingress (answerModeration pool.state choice op).1 eventId).card := by
  obtain ⟨row, next, rfl, byReports, rfl⟩ := aboutToHide_eq_some isDue
  obtain ⟨otherChoice, count, isLast, enough⟩ := follows.1 byReports
  rw [List.getLast?_concat, Option.some.injEq] at isLast
  cases op with
  | countPending eventId =>
      simp only [answerModeration, Lib.Event.mk.injEq, ModerationOp.countPending.injEq] at isLast
      obtain ⟨rfl, rfl, isCount⟩ := isLast
      rw [heq_eq_eq] at isCount
      split at isCount
      · cases isCount
      · rename_i succeeds
        rw [← Option.some.inj isCount] at enough
        exact judged (by simpa using succeeds) enough
  | _ => cases isLast

theorem membersKept_step
    (pool : ModerationPool trigger)
    (move : ModerationMove)
    (holds : pool.Followed (fun _ => HidesCounted ingress) ∧ MembersKept ingress pool)
    (judges : JudgesMembers ingress pool move) :
    (stepModeration trigger ingress pool move).Followed (fun _ => HidesCounted ingress) ∧
      MembersKept ingress (stepModeration trigger ingress pool move) := by
  obtain ⟨followed, kept⟩ := holds
  have followedAfter : (stepModeration trigger ingress pool move).Followed
      (fun _ => HidesCounted ingress) :=
    Lib.Pool.followed_step follows_moderationProgram followed move
  refine ⟨followedAfter, ?_⟩
  rcases Lib.Pool.step_cases ingress.moderationProgram answerModeration pool move with
    unchanged | ⟨request, -, started⟩ |
    ⟨index, choice, task, op, next, rfl, found, isRest, performed⟩
  · rw [stepModeration, unchanged]
    exact kept
  · rw [stepModeration, started]
    refine ⟨kept.entitled, ?_⟩
    intro task member eventId isDue
    rcases List.mem_append.mp member with isOld | isNew
    · exact kept.counted task isOld eventId isDue
    · rw [List.mem_singleton.mp isNew] at isDue
      obtain ⟨row, next, isFirst, byReports, -⟩ := aboutToHide_eq_some isDue
      have follows : (ingress.moderationProgram request).Follows (HidesCounted ingress) [] :=
        follows_moderationProgram request
      change ingress.moderationProgram request = _ at isFirst
      rw [isFirst] at follows
      obtain ⟨_, _, isLast, -⟩ := follows.1 byReports
      cases isLast
  · have judged : CountsMembers ingress pool choice op := judges task found op next isRest
    have follows := followed task (List.mem_of_getElem? found)
    rw [isRest] at follows
    rw [stepModeration, performed]
    refine ⟨entitled_answer choice follows.1 kept.entitled, ?_⟩
    intro other member eventId isDue
    rcases List.mem_or_eq_of_mem_set member with isOld | isNew
    · exact pendingMembers_answer judged isOld isDue (kept.counted other isOld eventId isDue)
    · rw [isNew] at isDue
      exact counted_next (follows.2 choice _) judged isDue

theorem hidesByThree_of_membersKept
    (pool : ModerationPool trigger)
    (move : ModerationMove)
    (kept : MembersKept ingress pool) :
    HidesByThree ingress pool move := by
  cases move with
  | start request => trivial
  | advance index choice =>
      rintro task found op next isRest row rfl byReports
      have isDue : row.eventId ∈ aboutToHide task.rest := by
        rw [isRest]
        simp [aboutToHide, byReports]
      refine ⟨pendingMembers ingress pool.state row.eventId,
        kept.counted task (List.mem_of_getElem? found) row.eventId isDue, ?_⟩
      intro member isMember
      unfold pendingMembers at isMember
      rw [List.mem_toFinset, List.mem_map] at isMember
      obtain ⟨report, isPending, isReporter⟩ := isMember
      exact ⟨report, isPending, isReporter,
        kept.entitled report (List.mem_of_mem_filter isPending)⟩

/-- Along a run on which the counted reports are three members', every event that is hidden
by its reports has those of three. -/
theorem hidesByThree_along
    {state : Moderated trigger}
    (entitled : ∀ row ∈ state.reports.rows, Entitled ingress row.report.reporterPubkey)
    {moves : List ModerationMove}
    (judges : Along (stepModeration trigger ingress) (JudgesMembers ingress)
      (Lib.Pool.idle state) moves) :
    Along (stepModeration trigger ingress) (HidesByThree ingress) (Lib.Pool.idle state) moves :=
  Lib.along_of_along membersKept_step
    (fun pool move holds _ => hidesByThree_of_membersKept pool move holds.2)
    ⟨by rintro task ⟨⟩, entitled, by rintro task ⟨⟩⟩ judges

end Counted

/-! ## What the others still read -/

/-- The events of an id. -/
def filterId (id : String) : NostrFilter where
  ids := some [id]
  authors := none
  kinds := none
  since := none
  «until» := none
  search := none
  extra := Extra.empty

/-- A viewer's request for the event of an id. -/
def frameOfId (viewer : Option String) (id : String) : ReadFrame where
  viewer := viewer
  filters := [(filterId id, none)]
  now := 0

section Reads

variable {trigger : TagTrigger} (ingress : Ingress)

/-- A viewer who reads with no administrator's rights. -/
def ReadsAsMember (viewer : Option String) : Prop :=
  (ingress.resolveViewerContext viewer).viewerIsAdmin = false

/-- REQ and COUNT serve no hidden event to those who read as members. -/
structure ReadsConceal (order : RowOrder) (state : Moderated trigger) : Prop where
  req : ∀ frame, ReadsAsMember ingress frame.viewer →
    ∀ out ∈ (ingress.answerReq state.store order frame).delivered, state.isHidden out.id = false
  count : ∀ frame, ReadsAsMember ingress frame.viewer →
    ingress.answerCount state.store order frame =
      ingress.handleCount frame.viewer (frame.filters.map Prod.fst) fun gated =>
        (state.store.queryEvents order frame.now (gated.zip (frame.filters.map Prod.snd))).filter
          fun event => !state.isHidden event.id

/-- The read gates withhold the hidden events that are stored from all who read as
members. -/
def GatesWithhold (state : Moderated trigger) : Prop :=
  ∀ row ∈ state.store.events, state.isHidden row.id → ∀ viewer, ReadsAsMember ingress viewer →
    (ingress.readDecision viewer row.intoNostrEvent).sent row.intoNostrEvent = none

/-- A hidden event is broadcast to no session that reads as a member. -/
def BroadcastsConceal (pool : ModerationPool trigger) (move : ModerationMove) : Prop :=
  Lib.Pool.PerformsAfter (fun state _ _ op => ∀ event, op = .broadcastEvent event →
    state.isHidden event.id → ∀ session, ReadsAsMember ingress session.authedPubkey →
      ingress.broadcastTo event session = []) pool move

/-- A broadcast passes those who read as members over when its event is hidden. -/
def BroadcastsWithhold (pool : ModerationPool trigger) (move : ModerationMove) : Prop :=
  Lib.Pool.PerformsAfter (fun state _ _ op => ∀ event, op = .broadcastEvent event →
    state.isHidden event.id → ∀ viewer, ReadsAsMember ingress viewer →
      ingress.broadcastForm viewer event = none) pool move

end Reads

section Exact

variable {trigger : TagTrigger} {ingress : Ingress} {order : RowOrder}
  {state : Moderated trigger}

/-- The form in which an event is read keeps its id. -/
theorem id_of_readDecision
    {viewer : Option String}
    {event out : NostrEvent}
    (sent : (ingress.readDecision viewer event).sent event = some out) :
    out.id = event.id := by
  unfold Deployment.readDecision at sent
  split at sent
  · rcases form_cases sent with rfl | ⟨-, rfl⟩
    · rfl
    · rfl
  · cases sent

/-- The events that a frame reads are stored and not expired. -/
theorem mem_queryEvents
    {store : Store trigger}
    {now : Nat}
    {filters : List (NostrFilter × Option Nat)}
    {event : NostrEvent}
    (read : event ∈ store.queryEvents order now filters) :
    ∃ row ∈ store.events, row.intoNostrEvent = event := by
  unfold Store.queryEvents at read
  obtain ⟨row, isRow, isEvent⟩ := List.mem_map.mp (List.mem_of_mem_filter read)
  exact ⟨row, mem_events_of_frameRows isRow, isEvent⟩

/-- A stored row is selected by its id alone. -/
theorem mem_selectedRows_filterId
    {store : Store trigger}
    {row : EventRow}
    (held : row ∈ store.events)
    (id : String)
    (limit : Nat) :
    row ∈ selectedRows store (filterId id) limit ↔ row.id = id := by
  have started : Builder.start.Means store.tags row True := Builder.means_start
  have listed := started.addAmong .id (some [.text id])
  have selects := listed.selects [.number limit]
  rw [mem_selectedRows held]
  refine selects.trans ?_
  simp [EventRow.column]

theorem queryEvents_frameOfId
    {store : Store trigger}
    {row : EventRow}
    (held : row ∈ store.events) :
    row.intoNostrEvent ∈ store.queryEvents order 0 [(filterId row.id, none)] := by
  have selected : row ∈ selectedRows store (filterId row.id) (ownLimit none) :=
    (mem_selectedRows_filterId held row.id _).mpr rfl
  have read : row ∈ store.frameRows order maxRowsPerFrame [(filterId row.id, none)] := by
    have few : [(filterId row.id, (none : Option Nat))].length * maxQueryLimit ≤ maxRowsPerFrame := by
      rw [List.length_singleton]
      decide
    rw [frameRows_eq few, List.flatMap_singleton]
    by_contra leftOut
    have many : (store.queryRows order (filterId row.id) (ownLimit none)).length = ownLimit none :=
      (newest_queryRows selected leftOut).1
    have single : ∀ other ∈ store.queryRows order (filterId row.id) (ownLimit none),
        other = row := by
      intro other isRead
      have isSelected := mem_queryRows isRead
      have otherHeld := mem_events_of_selected isSelected
      exact store.eq_of_id otherHeld held ((mem_selectedRows_filterId otherHeld _ _).mp isSelected)
    cases rows : store.queryRows order (filterId row.id) (ownLimit none) with
    | nil =>
        rw [rows] at many
        exact absurd many (by decide)
    | cons first rest =>
        have isRead : first ∈ store.queryRows order (filterId row.id) (ownLimit none) := by
          rw [rows]
          exact List.mem_cons_self
        rw [single first isRead] at isRead
        exact leftOut isRead
  unfold Store.queryEvents
  rw [List.mem_filter]
  refine ⟨List.mem_map_of_mem read, ?_⟩
  simp [isExpired]

/-- REQ and COUNT serve no hidden event exactly when the read gates withhold those that are
stored. -/
theorem readsConceal_iff :
    ReadsConceal ingress order state ↔ GatesWithhold ingress state := by
  constructor
  · intro conceals row held isHidden viewer asMember
    rw [Option.eq_none_iff_forall_ne_some]
    intro out sent
    have served := conceals.req (frameOfId viewer row.id) asMember out (mem_delivered.mpr
      ⟨[filterId row.id], ?_, row.intoNostrEvent, queryEvents_frameOfId held, sent⟩)
    · rw [id_of_readDecision sent, id_intoNostrEvent, isHidden] at served
      cases served
    · unfold Deployment.handleReq protectedReadBlocked gateKind1059Filters
      simp [frameOfId, filterId, namesGiftWraps, ReqOutcome.subscription]
  · intro withholds
    constructor
    case req =>
      intro frame asMember out delivered
      obtain ⟨gated, -, event, isRead, sent⟩ := mem_delivered.mp delivered
      obtain ⟨row, held, rfl⟩ := mem_queryEvents isRead
      rw [id_of_readDecision sent, id_intoNostrEvent]
      by_contra isHidden
      rw [withholds row held (by simpa using isHidden) frame.viewer asMember] at sent
      cases sent
    case count =>
      intro frame asMember
      unfold Deployment.answerCount Deployment.handleCount
      split
      · rfl
      · split
        · rfl
        · rw [List.countP_filter]
          apply List.countP_congr
          intro event isRead
          obtain ⟨row, held, rfl⟩ := mem_queryEvents isRead
          simp only [Bool.and_eq_true, Bool.not_eq_true', iff_self_and, id_intoNostrEvent]
          intro served
          by_contra isHidden
          rw [withholds row held (by simpa using isHidden) frame.viewer asMember] at served
          cases served

/-- Every event matches the filter of its id. -/
theorem matches_filterId (event : NostrEvent) :
    eventMatchesFilters event [filterId event.id] := by
  simp [eventMatchesFilters, eventMatches, filterId, Extra.empty, searchTerm]

theorem broadcastTo_eq_nil_iff
    (event : NostrEvent) :
    (∀ session, ReadsAsMember ingress session.authedPubkey →
        ingress.broadcastTo event session = []) ↔
      ∀ viewer, ReadsAsMember ingress viewer → ingress.broadcastForm viewer event = none := by
  constructor
  · intro nothing viewer asMember
    rw [Option.eq_none_iff_forall_ne_some]
    intro out sends
    have passedOver := nothing ⟨0, viewer, [("", [filterId event.id])], by simp⟩ asMember
    have reached : (⟨0, "", out⟩ : Frame) ∈
        ingress.broadcastTo event ⟨0, viewer, [("", [filterId event.id])], by simp⟩ :=
      mem_broadcastTo.mpr ⟨rfl, sends, [filterId event.id], by simp, matches_filterId event⟩
    rw [passedOver] at reached
    cases reached
  · intro withholds session asMember
    unfold Deployment.broadcastTo
    rw [withholds session.authedPubkey asMember]

theorem broadcastsConceal_iff
    (pool : ModerationPool trigger)
    (move : ModerationMove) :
    BroadcastsConceal ingress pool move ↔ BroadcastsWithhold ingress pool move := by
  unfold BroadcastsConceal BroadcastsWithhold
  simp only [broadcastTo_eq_nil_iff]

end Exact

/-! ## Runs -/

section Runs

variable {trigger : TagTrigger} (ingress : Ingress)

/-- Reports hide an event of which three members complain, and what is hidden is served to
no session that reads as a member. -/
structure HidingSound (order : RowOrder) (start : ModerationPool trigger)
    (moves : List ModerationMove) : Prop where
  needsThree : Along (stepModeration trigger ingress) (HidesByThree ingress) start moves
  reads : Visits (stepModeration trigger ingress)
    (fun pool => ReadsConceal ingress order pool.state) start moves
  broadcasts : Along (stepModeration trigger ingress) (BroadcastsConceal ingress) start moves

/-- Tables without reports. -/
def Moderated.unreported (hidden : HiddenEvents) (store : Store trigger) : Moderated trigger :=
  ⟨Lib.Table.empty, hidden, store⟩

/-- From tables without reports, on the runs whose counted reports are three members', what
is hidden is hidden by three members, and from the others exactly when the read gates
withhold it anyway. -/
theorem hiding_sound_iff
    (order : RowOrder)
    (hidden : HiddenEvents)
    (store : Store trigger)
    (moves : List ModerationMove)
    (judges : Along (stepModeration trigger ingress) (JudgesMembers ingress)
      (Lib.Pool.idle (.unreported hidden store)) moves) :
    HidingSound ingress order (Lib.Pool.idle (.unreported hidden store)) moves ↔
      Visits (stepModeration trigger ingress) (fun pool => GatesWithhold ingress pool.state)
          (Lib.Pool.idle (.unreported hidden store)) moves ∧
        Along (stepModeration trigger ingress) (BroadcastsWithhold ingress)
          (Lib.Pool.idle (.unreported hidden store)) moves := by
  constructor
  · intro sound
    exact ⟨sound.reads.mono fun pool => readsConceal_iff.mp,
      sound.broadcasts.mono fun pool move => (broadcastsConceal_iff pool move).mp⟩
  · rintro ⟨withholds, passes⟩
    constructor
    case needsThree => exact hidesByThree_along (by rintro row ⟨⟩) judges
    case reads => exact withholds.mono fun pool => readsConceal_iff.mpr
    case broadcasts => exact passes.mono fun pool move => (broadcastsConceal_iff pool move).mpr

end Runs

/-! ## Three members, and one -/

/-- A relay of members without zones. -/
def membersRelay : Ingress where
  toDeployment := zonelessRelay
  writeZones := ⟨[], true⟩
  sameZones := rfl
  verifyEventStrict _ := true
  decodeBase64 _ := none
  isWhitelisted _ := true
  isIngressRecipient _ := false
  isMeshPeer _ := false
  isFederatedKindAllowed _ := false
  isSuspended _ := false
  isSilenced _ := false
  isBlocked _ := false
  trustLevel _ := .member
  channelCreator _ := none
  storedAuthor _ := none
  isRegisteredAgent _ := false
  governanceRefusal _ := none

/-- A report of a note. -/
def complaint (reporter number : Char) : Submission where
  event :=
    { id := String.ofList (List.replicate 64 number)
      pubkey := String.ofList (List.replicate 64 reporter)
      createdAt := 100
      kind := kindReport
      tags := [["e", "note"], ["p", "author"], ["report", "spam"]]
      content := ""
      sig := String.ofList (List.replicate 128 'f') }
  withinRate := true
  sessionAuthed := true
  now := 100

/-- Three reports of the note, one after the other. -/
def complaints (first second third : Char) : List ModerationMove :=
  [(first, '1'), (second, '2'), (third, '3')].zipIdx.flatMap fun reported =>
    .start (.submit (complaint reported.1.1 reported.1.2)) ::
      List.replicate 5 (.advance reported.2 ⟨false⟩)

/-- The note that is reported is stored. -/
def noteStored : ModerationPool .probeBlind :=
  Lib.Pool.idle (.unreported Lib.Table.empty (storeAfter .probeBlind [.save taggedNote 20]))

theorem hiding_sound_iff_three_members :
    (Lib.run (stepModeration .probeBlind membersRelay) noteStored
        (complaints 'k' 'l' 'm')).state.isHidden "note" ∧
      (HidingSound membersRelay newestFirst noteStored (complaints 'k' 'l' 'm') ↔
        Visits (stepModeration .probeBlind membersRelay)
            (fun pool => GatesWithhold membersRelay pool.state) noteStored
            (complaints 'k' 'l' 'm') ∧
          Along (stepModeration .probeBlind membersRelay) (BroadcastsWithhold membersRelay)
            noteStored (complaints 'k' 'l' 'm')) :=
  ⟨by decide +kernel, hiding_sound_iff membersRelay newestFirst Lib.Table.empty
    (storeAfter .probeBlind [.save taggedNote 20]) (complaints 'k' 'l' 'm')
    (by decide +kernel)⟩

/-- What the pool of one member's three reports is before the note is hidden. -/
def reportedThrice : ModerationPool .probeBlind :=
  Lib.run (stepModeration .probeBlind membersRelay) noteStored
    ((complaints 'm' 'm' 'm').dropLast)

/-- One member's three reports hide a note, and the hidden note is still served. -/
theorem one_member_hides :
    ¬Along (stepModeration .probeBlind membersRelay) (HidesByThree membersRelay) noteStored
        (complaints 'm' 'm' 'm') ∧
      ¬Visits (stepModeration .probeBlind membersRelay)
        (fun pool => ReadsConceal membersRelay newestFirst pool.state) noteStored
        (complaints 'm' 'm' 'm') := by
  constructor
  · intro byThree
    have hides := (Lib.along_iff_prefixes _ _).mp byThree (complaints 'm' 'm' 'm').dropLast
      (.advance 2 ⟨false⟩) (List.prefix_refl _)
    have due : (reportedThrice.tasks[2]?).map (fun task => aboutToHide task.rest) =
        some (some "note") := by
      decide +kernel
    have oneMember : ∀ row ∈ reportedThrice.state.pendingReports "note",
        membersRelay.effectivePubkey row.report.reporterPubkey =
          String.ofList (List.replicate 64 'm') := by
      decide +kernel
    obtain ⟨task, found, isDue⟩ := Option.map_eq_some_iff.mp due
    obtain ⟨row, next, isRest, byReports, isNote⟩ := aboutToHide_eq_some isDue
    obtain ⟨members, three, reported⟩ := hides task found _ next isRest row rfl byReports
    have single : members ⊆ {String.ofList (List.replicate 64 'm')} := by
      intro member isMember
      obtain ⟨report, isPending, isReporter, -⟩ := reported member isMember
      rw [isNote] at isPending
      rw [Finset.mem_singleton, ← isReporter]
      exact oneMember report isPending
    have atMostOne := Finset.card_le_card single
    rw [Finset.card_singleton] at atMostOne
    omega
  · intro conceals
    have atEnd := (Lib.visits_iff_prefixes _ _).mp conceals _ (List.prefix_refl _)
    have withholds := readsConceal_iff.mp atEnd
    have served : ∃ row ∈ (Lib.run (stepModeration .probeBlind membersRelay) noteStored
          (complaints 'm' 'm' 'm')).state.store.events,
        (Lib.run (stepModeration .probeBlind membersRelay) noteStored
            (complaints 'm' 'm' 'm')).state.isHidden row.id ∧
          (membersRelay.readDecision none row.intoNostrEvent).sent row.intoNostrEvent ≠ none := by
      decide +kernel
    obtain ⟨row, held, isHidden, isServed⟩ := served
    exact isServed (withholds row held isHidden none rfl)

end Relay
end NostrBbs
