import NostrBbs.Governance.Writes

/-!
# Receipts on the ladder

A receipt that has reached `projection-committed` keeps its rank or climbs under
every write but one: the failure of a later attempt at its event, which is held
off at `projection-committed` and at no stage above it.
-/

namespace NostrBbs
namespace Governance

open Relay (NostrEvent asF64)

/-! ## Ranks -/

/-- The rank from which a receipt must not regress. -/
def committedRank : Nat :=
  2

/-- The rank of a receipt; a stage that is not on the ladder has none. -/
def ReceiptRow.rank (row : ReceiptRow) : Option Nat :=
  (ReceiptStage.parse row.stage).bind ReceiptStage.ladderRank

/-- The rank of the receipt of an event. -/
def Database.rankOf (db : Database) (eventId : String) : Option Nat :=
  (db.receipts.find? eventId).bind ReceiptRow.rank

/-- A receipt that is at least committed before is at its rank or above it
after. -/
def Climbs (eventId : String) (before after : Database) : Prop :=
  ∀ rank, before.rankOf eventId = some rank → committedRank ≤ rank →
    ∃ later, after.rankOf eventId = some later ∧ rank ≤ later

/-- The owner of the mutation has reported on the receipt of an event. -/
def Database.atApplicationStage (db : Database) (eventId : String) : Bool :=
  ((db.receipts.find? eventId).bind fun row => ReceiptStage.parse row.stage).any
    ReceiptStage.isApplicationStage

section

variable {eventId : String} {before after third : Database}

theorem climbs_refl : Climbs eventId before before := by
  intro rank ranked _
  exact ⟨rank, ranked, le_refl rank⟩

theorem climbs_trans
    (first : Climbs eventId before after)
    (second : Climbs eventId after third) :
    Climbs eventId before third := by
  intro rank ranked isCommitted
  obtain ⟨later, laterRanked, up⟩ := first rank ranked isCommitted
  obtain ⟨last, lastRanked, upAgain⟩ := second later laterRanked (isCommitted.trans up)
  exact ⟨last, lastRanked, up.trans upAgain⟩

theorem climbs_of_receipts
    (same : after.receipts.find? eventId = before.receipts.find? eventId) :
    Climbs eventId before after := by
  have sameRank : after.rankOf eventId = before.rankOf eventId := by
    unfold Database.rankOf
    rw [same]
  intro rank ranked _
  exact ⟨rank, sameRank.trans ranked, le_refl rank⟩

/-- A receipt climbs when the change that is made to it climbs. -/
theorem climbs_of_change
    {change : ReceiptRow → ReceiptRow}
    (changed : after.receipts.find? eventId = (before.receipts.find? eventId).map change)
    (up : ∀ row rank, before.receipts.find? eventId = some row → row.rank = some rank →
      committedRank ≤ rank → ∃ later, (change row).rank = some later ∧ rank ≤ later) :
    Climbs eventId before after := by
  intro rank ranked isCommitted
  obtain ⟨row, found, rowRank⟩ := Option.bind_eq_some_iff.mp ranked
  obtain ⟨later, laterRank, higher⟩ := up row rank found rowRank isCommitted
  refine ⟨later, ?_, higher⟩
  unfold Database.rankOf
  rw [changed, found]
  exact laterRank

end

/-- A stage that awaits its projection has no committed rank. -/
theorem not_awaiting_of_rank
    {row : ReceiptRow}
    {rank : Nat}
    (ranked : row.rank = some rank)
    (isCommitted : committedRank ≤ rank) :
    row.stage ∉ awaitingStages := by
  intro awaiting
  have stages : row.stage = "relay-accepted" ∨ row.stage = "projection-failed" := by
    simpa [awaitingStages] using awaiting
  rcases stages with accepted | failed
  · have one : row.rank = some 1 := by
      unfold ReceiptRow.rank
      rw [accepted]
      decide
    rw [one, Option.some.injEq] at ranked
    exact absurd isCommitted (by simp [committedRank, ← ranked])
  · have unranked : row.rank = none := by
      unfold ReceiptRow.rank
      rw [failed]
      decide
    rw [unranked] at ranked
    cases ranked

/-- A stage of a committed rank is `projection-committed` itself or was reported
by the owner of the mutation. -/
theorem committed_or_application
    {stage : ReceiptStage}
    {rank : Nat}
    (ranked : stage.ladderRank = some rank)
    (isCommitted : committedRank ≤ rank) :
    stage = .projectionCommitted ∨ stage.isApplicationStage := by
  cases stage <;> simp_all [ReceiptStage.ladderRank, ReceiptStage.isApplicationStage] <;>
    simp [committedRank, ← ranked] at isCommitted

/-! ## Single receipts -/

/-- A receipt whose projection has failed. -/
def ReceiptRow.failed (row : ReceiptRow) (error : ProjectionFailure) (now : Nat) : ReceiptRow :=
  { row with
    stage := ReceiptStage.projectionFailed.asStr
    stageError := some error
    acceptedAt := row.acceptedAt.or (some (asF64 now)) }

/-- A receipt that the owner of the mutation has reported on. -/
def ReceiptRow.reported (row : ReceiptRow) (report : Report) (now : Nat) : ReceiptRow :=
  { row with
    stage := report.requested.asStr
    appliedAt := some (asF64 now)
    appliedBy := some report.caller
    acknowledgement := report.acknowledgement.filter fun words => !isBlank words }

/-- A failed receipt is off the ladder. -/
theorem rank_failed
    (row : ReceiptRow)
    (error : ProjectionFailure)
    (now : Nat) :
    (row.failed error now).rank = none := by
  simp [ReceiptRow.failed, ReceiptRow.rank, ReceiptStage.ladderRank]

theorem rank_reported
    (row : ReceiptRow)
    (report : Report)
    (now : Nat) :
    (row.reported report now).rank = report.requested.ladderRank := by
  simp [ReceiptRow.reported, ReceiptRow.rank]

/-- A receipt whose event was delivered again. -/
def ReceiptRow.replayed (row : ReceiptRow) : ReceiptRow :=
  { row with replays := row.replays + 1 }

theorem find?_recordAccepted
    {db : Database}
    {correlation : ReceiptCorrelation}
    {now : Nat}
    {wanted : String}
    {row : ReceiptRow}
    (found : db.receipts.find? wanted = some row) :
    (db.recordAccepted correlation now).1.receipts.find? wanted =
      some (if row.eventId = correlation.eventId then row.replayed else row) := by
  have isWanted := (Lib.Table.find?_eq_some_iff.mp found).2
  unfold Database.recordAccepted
  split
  · rename_i receipts inserted
    have other : correlation.eventId ≠ wanted := by
      intro own
      have fresh := (Lib.Table.insert_eq_some inserted).1
      have absent : db.receipts.find? wanted = none := by
        rw [Lib.Table.find?_eq_none_iff, ← own]
        exact fresh
      rw [absent] at found
      cases found
    rw [if_neg (isWanted.trans_ne other.symm), ← found]
    exact (Lib.Table.find?_of_insert inserted wanted).trans (if_neg other)
  · dsimp only
    rw [Lib.Table.find?_updateWhere, found]
    simp [ReceiptRow.replayed]

theorem find?_markProjectionFailed
    (db : Database)
    (failedId : String)
    (error : ProjectionFailure)
    (now : Nat)
    (wanted : String) :
    (db.markProjectionFailed failedId error now).receipts.find? wanted =
      (db.receipts.find? wanted).map fun row =>
        if row.eventId = failedId ∧ row.stage ≠ ReceiptStage.projectionCommitted.asStr then
          row.failed error now
        else row := by
  unfold Database.markProjectionFailed ReceiptRow.failed
  rw [Lib.Table.find?_updateWhere]
  simp

theorem find?_advanceStage
    (db : Database)
    (report : Report)
    (current : ReceiptStage)
    (now : Nat)
    (wanted : String) :
    (db.advanceStage report.eventId current report.requested report.caller
      report.acknowledgement now).receipts.find? wanted =
      (db.receipts.find? wanted).map fun row =>
        if row.eventId = report.eventId ∧ row.stage = current.asStr then row.reported report now
        else row := by
  unfold Database.advanceStage ReceiptRow.reported
  rw [Lib.Table.find?_updateWhere]
  simp

/-! ## Writes -/

section

variable {eventId : String} (db : Database)

/-- Recording an acceptance leaves the stage of a receipt. -/
theorem climbs_recordAccepted
    (correlation : ReceiptCorrelation)
    (now : Nat) :
    Climbs eventId db (db.recordAccepted correlation now).1 := by
  intro rank ranked _
  obtain ⟨row, found, rowRank⟩ := Option.bind_eq_some_iff.mp ranked
  refine ⟨rank, ?_, le_refl rank⟩
  unfold Database.rankOf
  rw [find?_recordAccepted found, Option.bind_some]
  split <;> exact rowRank

/-- A committed projection moves only a receipt that awaited it. -/
theorem climbs_committed
    {after : Database}
    {committedId : String}
    {projectedAt : Nat}
    {decisionId : Option String}
    (awaited : ∃ receipt, db.receipts.find? committedId = some receipt ∧
      receipt.stage ∈ awaitingStages)
    (receipts : ∀ wanted, after.receipts.find? wanted = (db.receipts.find? wanted).map fun row =>
      if row.eventId = committedId then row.committed projectedAt decisionId else row) :
    Climbs eventId db after := by
  refine climbs_of_change (receipts eventId) ?_
  intro row rank found ranked isCommitted
  have isEvent := (Lib.Table.find?_eq_some_iff.mp found).2
  have other : row.eventId ≠ committedId := by
    intro own
    obtain ⟨receipt, receiptFound, awaiting⟩ := awaited
    rw [← own, isEvent, found, Option.some.injEq] at receiptFound
    rw [← receiptFound] at awaiting
    exact not_awaiting_of_rank ranked isCommitted awaiting
  refine ⟨rank, ?_, le_refl rank⟩
  rw [if_neg other]
  exact ranked

/-- A batch leaves a committed receipt, unless it is the one of an appeal. -/
theorem climbs_batch
    (commit : Commit)
    (noAppeal : ∀ appeal, commit = .appeal appeal → appeal.eventId ≠ eventId) :
    Climbs eventId db (runBatch commit.batch db).1 := by
  cases commit with
  | response commit =>
      rcases commit.batch_outcome db with ⟨error, failed⟩ | ⟨after, ran, effect⟩
      · simp only [Commit.batch, failed]
        exact climbs_refl
      · simp only [Commit.batch, ran]
        obtain ⟨-, -, receipt, found, -, awaiting⟩ := commit.of_admitted effect.admitted
        exact climbs_committed db ⟨receipt, found, awaiting⟩ effect.receipts
  | supersession commit =>
      rcases commit.batch_outcome db with ⟨error, failed⟩ | ⟨after, ran, effect⟩
      · simp only [Commit.batch, failed]
        exact climbs_refl
      · simp only [Commit.batch, ran]
        obtain ⟨-, -, receipt, found, -, awaiting⟩ := commit.of_admitted effect.admitted
        exact climbs_committed db ⟨receipt, found, awaiting⟩ effect.receipts
  | appeal commit =>
      apply climbs_of_receipts
      exact (commit.batch_frame db).2 eventId (noAppeal commit rfl).symm

/-- A failure leaves a receipt that the owner of the mutation has not reported
on. -/
theorem climbs_markProjectionFailed
    (failedId : String)
    (error : ProjectionFailure)
    (now : Nat)
    (early : failedId = eventId → ¬ db.atApplicationStage eventId) :
    Climbs eventId db (db.markProjectionFailed failedId error now) := by
  refine climbs_of_change (find?_markProjectionFailed db failedId error now eventId) ?_
  intro row rank found ranked isCommitted
  refine ⟨rank, ?_, le_refl rank⟩
  have isEvent := (Lib.Table.find?_eq_some_iff.mp found).2
  obtain ⟨stage, read, stageRank⟩ := Option.bind_eq_some_iff.mp ranked
  rw [if_neg]
  · exact ranked
  · rintro ⟨own, notCommitted⟩
    apply early (own.symm.trans isEvent)
    rcases committed_or_application stageRank isCommitted with rfl | application
    · exact absurd (ReceiptStage.asStr_of_parse read) notCommitted
    · simpa [Database.atApplicationStage, found, read] using application

/-- A report that was permitted takes a receipt up the ladder. -/
theorem climbs_advanceStage
    (report : Report)
    {current : ReceiptStage}
    (now : Nat)
    (permitted : canAdvanceStage current report.requested = .ok ()) :
    Climbs eventId db (db.advanceStage report.eventId current report.requested report.caller
      report.acknowledgement now) := by
  refine climbs_of_change (find?_advanceStage db report current now eventId) ?_
  intro row rank found ranked isCommitted
  split
  · rename_i named
    obtain ⟨currentRank, nextRank, currentRanked, nextRanked, -, up⟩ :=
      canAdvanceStage_ok permitted
    have sameRank : currentRank = rank := by
      unfold ReceiptRow.rank at ranked
      rw [named.2, ReceiptStage.parse_asStr, Option.bind_some, currentRanked] at ranked
      exact Option.some.inj ranked
    exact ⟨nextRank, (rank_reported row report now).trans nextRanked, by omega⟩
  · exact ⟨rank, ranked, le_refl rank⟩

/-- Requests and expiries leave the receipts. -/
theorem receipts_upsertCase
    (row : CaseRow)
    (heldAt : Option Nat) :
    (db.upsertCase row heldAt).receipts = db.receipts := by
  unfold Database.upsertCase
  split <;> rfl

/-- A failure that finds a receipt at a stage of its owner takes it off the
ladder. -/
theorem not_climbs_of_failure
    {error : ProjectionFailure}
    {now : Nat}
    (late : db.atApplicationStage eventId) :
    ¬ Climbs eventId db (db.markProjectionFailed eventId error now) := by
  intro climbs
  obtain ⟨stage, read, application⟩ := (Option.any_eq_true _ _).mp late
  obtain ⟨row, found, parsed⟩ := Option.bind_eq_some_iff.mp read
  obtain ⟨rank, ranked, isCommitted⟩ : ∃ rank, stage.ladderRank = some rank ∧
      committedRank ≤ rank := by
    cases stage <;> simp_all [ReceiptStage.ladderRank, ReceiptStage.isApplicationStage,
      committedRank]
  have rowRank : db.rankOf eventId = some rank := by
    simp [Database.rankOf, ReceiptRow.rank, found, parsed, ranked]
  obtain ⟨later, laterRank, -⟩ := climbs rank rowRank isCommitted
  have isEvent := (Lib.Table.find?_eq_some_iff.mp found).2
  have notCommitted : row.stage ≠ ReceiptStage.projectionCommitted.asStr := by
    intro same
    rw [same, ReceiptStage.parse_asStr, Option.some.injEq] at parsed
    rw [← parsed] at application
    cases application
  have unranked : (db.markProjectionFailed eventId error now).rankOf eventId = none := by
    unfold Database.rankOf
    rw [find?_markProjectionFailed, found, Option.map_some, if_pos ⟨isEvent, notCommitted⟩]
    exact rank_failed row error now
  rw [unranked] at laterRank
  cases laterRank

end

/-! ## Runs -/

/-- A move records the failure of an attempt at an event whose receipt the owner
of the mutation has already reported on. -/
def System.failsLate (eventId : String) (system : System) (move : Move) : Bool :=
  match system.write move with
  | some (.fail failedId _ _) => failedId == eventId && system.db.atApplicationStage eventId
  | _ => false

/-- No receipt of an event regresses between two states of a run: from a
committed rank on, each later state has it at that rank or above it. -/
def NeverRegresses (json : JsonParser) (eventId : String) (moves : List Move) : Prop :=
  ∀ earlier later, earlier <+: later → later <+: moves →
    Climbs eventId (System.after json earlier).db (System.after json later).db

/-- The events of a run that have the id of an action response are action
responses. -/
def RespondsTo (eventId : String) (moves : List Move) : Prop :=
  ∀ event, .deliver event ∈ moves → event.id = eventId → event.kind = kindActionResponse

/-- An appeal is planned from a request only. -/
theorem Commit.PlannedFrom.kind_of_appeal
    {event : NostrEvent}
    {commit : AppealCommit}
    (planned : Commit.PlannedFrom event (.appeal commit)) :
    event.id = commit.eventId ∧ event.kind = kindActionRequest := by
  cases planned with
  | appeal route eventId =>
      refine ⟨eventId.symm, ?_⟩
      unfold routeOf at route
      split at route
      · split at route <;> cases route
      · split at route
        · assumption
        · cases route

section

variable {json : JsonParser} {eventId : String} {system : System} {move : Move}
  {delivered : NostrEvent → Prop}

/-- A move that records no late failure leaves a committed receipt at its rank or
takes it up. -/
theorem climbs_step
    (known : ∀ task ∈ system.tasks, task.Known delivered)
    (responds : ∀ event, delivered event → event.id = eventId → event.kind = kindActionResponse)
    (early : ¬ system.failsLate eventId move) :
    Climbs eventId system.db (system.step json move).db := by
  apply System.step_db_keeps (Climbs eventId system.db) system move climbs_refl
  intro write written
  have writeKnown := System.known_write known written
  cases write with
  | accept correlation now => exact climbs_recordAccepted system.db correlation now
  | batch commit =>
      obtain ⟨event, isDelivered, planned⟩ := writeKnown
      apply climbs_batch system.db commit
      intro appeal isAppeal own
      rw [isAppeal] at planned
      obtain ⟨sameId, isRequest⟩ := planned.kind_of_appeal
      have isResponse := responds event isDelivered (sameId.trans own)
      rw [isRequest] at isResponse
      exact absurd isResponse (by decide)
  | fail failedId error now =>
      apply climbs_markProjectionFailed system.db failedId error now
      intro own late
      apply early
      simp [System.failsLate, written, own, late]
  | advance report current now => exact climbs_advanceStage system.db report now writeKnown
  | request row heldAt =>
      apply climbs_of_receipts
      exact congrArg (fun receipts => Lib.Table.find? receipts eventId)
        (receipts_upsertCase system.db row heldAt)
  | expire caseId now => exact climbs_of_receipts rfl

/-- A move that records a late failure takes a committed receipt off the
ladder. -/
theorem not_climbs_step
    (late : system.failsLate eventId move) :
    ¬ Climbs eventId system.db (system.step json move).db := by
  unfold System.failsLate at late
  split at late
  · rename_i failedId error now written
    obtain ⟨rfl, isLate⟩ : failedId = eventId ∧ system.db.atApplicationStage eventId := by
      simpa using late
    rw [System.step_db, written]
    exact not_climbs_of_failure system.db isLate
  · cases late

end

namespace Sample

/-- A response is projected and its act is received by the consumer. -/
def receivedRun : List Move :=
  .request caseRow none :: projected (response (hex 'd') 1700000050) ++
    reported (hex 'd') .consumerReceived

/-- The response is delivered once more. -/
def redeliveredRun : List Move :=
  receivedRun ++ projected (response (hex 'd') 1700000050)

theorem respondsTo_redeliveredRun : RespondsTo (hex 'd') redeliveredRun := by
  intro event isDelivered _
  have isResponse : event = response (hex 'd') 1700000050 := by
    simpa [redeliveredRun, receivedRun, projected, reported, turn] using isDelivered
  rw [isResponse]
  rfl

theorem respondsTo_receivedRun : RespondsTo (hex 'd') receivedRun :=
  fun event isDelivered => respondsTo_redeliveredRun event (List.mem_append_left _ isDelivered)

end Sample

/-- The receipt of an action response never regresses in exactly the runs in
which no failure of a later attempt is recorded once the owner of the mutation
has reported on the receipt. -/
theorem neverRegresses_iff
    (json : JsonParser)
    (eventId : String)
    (moves : List Move)
    (responds : RespondsTo eventId moves) :
    NeverRegresses json eventId moves ↔
      Lib.Along (System.step json) (fun system move => ¬ system.failsLate eventId move)
        System.start moves := by
  let below : System → System → Prop := fun before after => Climbs eventId before.db after.db
  have refl : ∀ system, below system system := fun _ => climbs_refl
  have trans : ∀ first second third, below first second → below second third →
      below first third :=
    fun _ _ _ => climbs_trans
  have ordered : NeverRegresses json eventId moves ↔
      Lib.Along (System.step json) (fun system move => below system (system.step json move))
        System.start moves :=
    Lib.ordered_iff_along refl trans System.start moves
  rw [ordered, Lib.along_iff_prefixes, Lib.along_iff_prefixes]
  constructor
  · intro climbs taken move isInitial late
    exact not_climbs_step late (climbs taken move isInitial)
  · intro early taken move isInitial
    have earlier : ∀ event, .deliver event ∈ taken → .deliver event ∈ moves :=
      fun event isDelivered => isInitial.subset (List.mem_append_left _ isDelivered)
    exact climbs_step (known_of_mem_tasks taken)
      (fun event isDelivered => responds event (earlier event isDelivered))
      (early taken move isInitial)

theorem neverRegresses_iff_received :
    NeverRegresses Sample.parser (Sample.hex 'd') Sample.receivedRun := by
  refine (neverRegresses_iff Sample.parser (Sample.hex 'd') Sample.receivedRun
    Sample.respondsTo_receivedRun).mpr ?_
  decide +kernel

/-- A response whose act the consumer has received is delivered again: its case
is decided by now, the plan is refused, and the receipt is `projection-failed`. -/
theorem received_then_failed :
    RespondsTo (Sample.hex 'd') Sample.redeliveredRun ∧
      ¬ NeverRegresses Sample.parser (Sample.hex 'd') Sample.redeliveredRun := by
  refine ⟨Sample.respondsTo_redeliveredRun, ?_⟩
  intro never
  have ranked : (System.after Sample.parser Sample.receivedRun).db.rankOf (Sample.hex 'd') =
      some 3 := by
    decide +kernel
  have unranked : (System.after Sample.parser Sample.redeliveredRun).db.rankOf
      (Sample.hex 'd') = none := by
    decide +kernel
  obtain ⟨later, laterRanked, -⟩ := never Sample.receivedRun Sample.redeliveredRun
    (List.prefix_append _ _) (List.prefix_refl _) 3 ranked (by decide)
  rw [unranked] at laterRanked
  cases laterRanked

end Governance
end NostrBbs
