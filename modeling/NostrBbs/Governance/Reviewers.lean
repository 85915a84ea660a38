import NostrBbs.Governance.History
import NostrBbs.Lib.Counting

/-!
# Reviewer telemetry

The read model over decisions, cases and receipts, and its fold into numbers for
each reviewer.  A decision is reported as superseded when its case stands
superseded, so the decision that supersedes another is reported with it.
-/

namespace NostrBbs
namespace Governance

open Relay (NostrEvent)

/-! ## The read model -/

/-- The rows that a left join pairs a row with: those that match, or none. -/
def leftMatches {Row : Type} (rows : List Row) (on : Row → Bool) : List (Option Row) :=
  let matching := rows.filter on
  if matching.isEmpty then [none] else matching.map some

/-- A row of the reviewer query. -/
structure JoinedRow where
  brokerPubkey : String
  decisionId : String
  outcome : String
  decidedAt : Nat
  decisionAcceptedAt : Option Nat
  requestAcceptedAt : Option Nat
  caseState : String
deriving DecidableEq, Repr

namespace Database

/-- The rows that one decision joins. -/
def joinedWith (db : Database) (decision : DecisionRow) : List JoinedRow :=
  (db.cases.rows.filter fun row => row.id == decision.caseId).flatMap fun case =>
    (leftMatches db.receipts.rows fun row =>
        row.decisionId == some decision.decisionId).flatMap fun decided =>
      (leftMatches db.receipts.rows fun row => some row.eventId == case.nostrEventId).map
        fun requested =>
          { brokerPubkey := decision.brokerPubkey
            decisionId := decision.decisionId
            outcome := decision.outcome
            decidedAt := decision.decidedAt
            decisionAcceptedAt := decided.bind ReceiptRow.acceptedAt
            requestAcceptedAt := requested.bind ReceiptRow.acceptedAt
            caseState := case.state }

def joinedRows (db : Database) : List JoinedRow :=
  db.decisions.rows.flatMap db.joinedWith

end Database

/-- The most rows that the telemetry considers. -/
def consideredLimit : Nat :=
  5000

/-- Later decisions first. -/
def JoinedRow.notBefore (first second : JoinedRow) : Prop :=
  second.decidedAt ≤ first.decidedAt

instance : DecidableRel JoinedRow.notBefore := fun first second =>
  inferInstanceAs (Decidable (second.decidedAt ≤ first.decidedAt))

/-- One decided case as the telemetry sees it. -/
structure ReviewerDecisionRow where
  brokerPubkey : String
  decisionId : String
  outcome : String
  superseded : Bool
deriving DecidableEq, Repr

def JoinedRow.reviewerDecision (row : JoinedRow) : ReviewerDecisionRow where
  brokerPubkey := row.brokerPubkey
  decisionId := row.decisionId
  outcome := row.outcome
  superseded := row.caseState == "superseded"

/-- The telemetry of one reviewer. -/
structure ReviewerStats where
  pubkey : String
  decisions : Nat
  overrides : Nat
  superseded : Nat
deriving DecidableEq, Repr

/-- The telemetry of a reviewer over some rows. -/
def reviewerStats (rows : List ReviewerDecisionRow) (pubkey : String) : ReviewerStats :=
  let own := rows.filter fun row => row.brokerPubkey == pubkey
  { pubkey
    decisions := own.length
    overrides := own.countP fun row => row.outcome != "approve"
    superseded := own.countP ReviewerDecisionRow.superseded }

/-- One entry for each reviewer with a row, by public key. -/
def aggregateReviewers (rows : List ReviewerDecisionRow) : List ReviewerStats :=
  ((rows.map ReviewerDecisionRow.brokerPubkey).dedup.insertionSort (· ≤ ·)).map
    (reviewerStats rows)

namespace Database

/-- The rows that the telemetry considers. -/
def consideredRows (db : Database) : List ReviewerDecisionRow :=
  ((db.joinedRows.insertionSort JoinedRow.notBefore).take consideredLimit).map
    JoinedRow.reviewerDecision

def listReviewers (db : Database) : List ReviewerStats :=
  aggregateReviewers db.consideredRows

/-- A decision with a successor that supersedes it. -/
def hasSuccessor (db : Database) (row : DecisionRow) : Bool :=
  db.decisions.rows.any fun next => row.supersededBy == some next.decisionId

/-- How many decisions the telemetry reports of a reviewer. -/
def reported (db : Database) (count : ReviewerStats → Nat) (pubkey : String) : Nat :=
  ((db.listReviewers.find? fun stats => stats.pubkey == pubkey).map count).getD 0

/-- Every reviewer is reported with the decisions that it recorded, and with those of
them that have a successor. -/
def StatsExact (db : Database) : Prop :=
  ∀ pubkey,
    db.reported ReviewerStats.decisions pubkey =
        db.decisions.rows.countP (fun row => row.brokerPubkey == pubkey) ∧
      db.reported ReviewerStats.superseded pubkey =
        db.decisions.rows.countP fun row =>
          row.brokerPubkey == pubkey && db.hasSuccessor row

end Database

/-! ## The fold -/

/-- A reviewer without an entry has no row. -/
theorem find?_aggregateReviewers
    (rows : List ReviewerDecisionRow)
    (pubkey : String) :
    (aggregateReviewers rows).find? (fun stats => stats.pubkey == pubkey) =
      if pubkey ∈ rows.map ReviewerDecisionRow.brokerPubkey then
        some (reviewerStats rows pubkey)
      else none := by
  unfold aggregateReviewers
  rw [List.find?_map]
  have listed : ∀ reviewer, reviewer ∈
      (rows.map ReviewerDecisionRow.brokerPubkey).dedup.insertionSort (· ≤ ·) ↔
        reviewer ∈ rows.map ReviewerDecisionRow.brokerPubkey := by
    intro reviewer
    rw [(List.perm_insertionSort _ _).mem_iff, List.mem_dedup]
  cases found : ((rows.map ReviewerDecisionRow.brokerPubkey).dedup.insertionSort (· ≤ ·)).find?
      ((fun stats => stats.pubkey == pubkey) ∘ reviewerStats rows) with
  | none =>
      rw [List.find?_eq_none] at found
      rw [if_neg]
      · rfl
      · intro member
        exact found pubkey ((listed pubkey).mpr member) (beq_self_eq_true pubkey)
  | some reviewer =>
      have isPubkey : reviewer = pubkey := by
        have named := List.find?_some found
        exact eq_of_beq named
      subst isPubkey
      have member := (listed reviewer).mp (List.mem_of_find?_eq_some found)
      rw [if_pos member]
      rfl

section

variable (db : Database)

theorem reported_decisions
    (pubkey : String) :
    db.reported ReviewerStats.decisions pubkey =
      db.consideredRows.countP fun row => row.brokerPubkey == pubkey := by
  rw [Database.reported, Database.listReviewers, find?_aggregateReviewers]
  split
  · exact List.countP_eq_length_filter.symm
  · rename_i absent
    symm
    rw [Option.map_none, Option.getD_none, List.countP_eq_zero]
    intro row held isOwn
    exact absent (List.mem_map.mpr ⟨row, held, eq_of_beq isOwn⟩)

theorem reported_superseded
    (pubkey : String) :
    db.reported ReviewerStats.superseded pubkey =
      db.consideredRows.countP fun row => row.superseded && row.brokerPubkey == pubkey := by
  rw [Database.reported, Database.listReviewers, find?_aggregateReviewers]
  split
  · exact List.countP_filter
  · rename_i absent
    symm
    rw [Option.map_none, Option.getD_none, List.countP_eq_zero]
    intro row held isOwn
    rw [Bool.and_eq_true] at isOwn
    exact absent (List.mem_map.mpr ⟨row, held, eq_of_beq isOwn.2⟩)

end

/-! ## One row a decision -/

/-- A left join on a condition that at most one row meets pairs once. -/
theorem leftMatches_single
    {Row : Type}
    {rows : List Row}
    {on : Row → Bool}
    (distinct : rows.Nodup)
    (atMostOne : ∀ first ∈ rows, ∀ second ∈ rows, on first → on second → first = second) :
    ∃ only, leftMatches rows on = [only] := by
  unfold leftMatches
  cases matching : rows.filter on with
  | nil => exact ⟨none, rfl⟩
  | cons first rest =>
      have firstMatches := List.mem_filter.mp (matching ▸ List.mem_cons_self (a := first))
      have noMore : rest = [] := by
        rw [List.eq_nil_iff_forall_not_mem]
        intro other isOther
        have otherMatches := List.mem_filter.mp (matching ▸ List.mem_cons_of_mem first isOther)
        have same := atMostOne first firstMatches.1 other otherMatches.1 firstMatches.2
          otherMatches.2
        have nodup := matching ▸ distinct.filter on
        exact (List.nodup_cons.mp nodup).1 (same ▸ isOther)
      exact ⟨some first, by simp [noMore]⟩

/-- Every decision has its case, and at most one receipt names it. -/
structure Database.Joined (db : Database) : Prop where
  cased : ∀ row ∈ db.decisions.rows, ∃ case ∈ db.cases.rows, case.id = row.caseId
  receiptHeld : ∀ receipt ∈ db.receipts.rows, ∀ id, receipt.decisionId = some id →
    id ∈ db.decisionIds
  receiptOnce : ∀ first ∈ db.receipts.rows, ∀ second ∈ db.receipts.rows, ∀ id,
    first.decisionId = some id → second.decisionId = some id → first = second

namespace Database

variable {db : Database}

/-- The case of a decision is reported with it, once. -/
theorem Joined.joinedWith
    (joined : db.Joined)
    {decision : DecisionRow}
    (held : decision ∈ db.decisions.rows) :
    ∃ row, db.joinedWith decision = [row] ∧
      row.brokerPubkey = decision.brokerPubkey ∧
      db.stateOf decision.caseId = some row.caseState := by
  obtain ⟨case, caseHeld, isCase⟩ := joined.cased decision held
  have found : db.cases.find? decision.caseId = some case :=
    Lib.Table.find?_eq_some_iff.mpr ⟨caseHeld, isCase⟩
  have cases : (db.cases.rows.filter fun row => row.id == decision.caseId) = [case] := by
    have one := db.cases.filter_key decision.caseId
    rw [found] at one
    exact one
  have receiptsDistinct : db.receipts.rows.Nodup := db.receipts.distinct.of_map _
  obtain ⟨decided, isDecided⟩ : ∃ only, (leftMatches db.receipts.rows fun row =>
      row.decisionId == some decision.decisionId) = [only] :=
    leftMatches_single receiptsDistinct
      fun first firstHeld second secondHeld firstNames secondNames =>
        joined.receiptOnce first firstHeld second secondHeld _ (eq_of_beq firstNames)
          (eq_of_beq secondNames)
  obtain ⟨requested, isRequested⟩ : ∃ only, (leftMatches db.receipts.rows fun row =>
      some row.eventId == case.nostrEventId) = [only] :=
    leftMatches_single receiptsDistinct
      fun first firstHeld second secondHeld firstNames secondNames =>
        db.receipts.eq_of_key firstHeld secondHeld
          (Option.some.inj ((eq_of_beq firstNames).trans (eq_of_beq secondNames).symm))
  refine ⟨
    { brokerPubkey := decision.brokerPubkey
      decisionId := decision.decisionId
      outcome := decision.outcome
      decidedAt := decision.decidedAt
      decisionAcceptedAt := decided.bind ReceiptRow.acceptedAt
      requestAcceptedAt := requested.bind ReceiptRow.acceptedAt
      caseState := case.state }, ?_, rfl, ?_⟩
  · unfold Database.joinedWith
    rw [cases, List.flatMap_singleton, isDecided, List.flatMap_singleton, isRequested,
      List.map_singleton]
  · simp [stateOf, found]

theorem Joined.length_joinedRows
    (joined : db.Joined) :
    db.joinedRows.length = db.decisions.rows.length := by
  have counted : db.joinedRows.countP (fun _ => true) = db.decisions.rows.countP fun _ => true := by
    apply Lib.countP_flatMap_of_single
    intro decision held
    obtain ⟨row, single, -⟩ := joined.joinedWith held
    exact ⟨row, single, rfl⟩
  simpa using counted

/-- Up to the limit every joined row is considered. -/
theorem countP_consideredRows
    (few : db.joinedRows.length ≤ consideredLimit)
    (holds : ReviewerDecisionRow → Bool) :
    db.consideredRows.countP holds =
      db.joinedRows.countP (holds ∘ JoinedRow.reviewerDecision) := by
  have whole : (db.joinedRows.insertionSort JoinedRow.notBefore).take consideredLimit =
      db.joinedRows.insertionSort JoinedRow.notBefore := by
    apply List.take_of_length_le
    rw [List.length_insertionSort]
    exact few
  rw [consideredRows, whole, List.countP_map]
  exact (List.perm_insertionSort _ _).countP_eq _

/-- Up to the limit every decision of a reviewer is reported. -/
theorem Joined.reported_decisions
    (joined : db.Joined)
    (few : db.decisions.rows.length ≤ consideredLimit)
    (pubkey : String) :
    db.reported ReviewerStats.decisions pubkey =
      db.decisions.rows.countP fun row => row.brokerPubkey == pubkey := by
  rw [Governance.reported_decisions,
    countP_consideredRows (joined.length_joinedRows.trans_le few)]
  apply Lib.countP_flatMap_of_single
  intro decision held
  obtain ⟨row, single, sameBroker, -⟩ := joined.joinedWith held
  refine ⟨row, single, ?_⟩
  rw [← sameBroker]
  rfl

/-- Up to the limit the decisions of a reviewer on cases that stand superseded are
reported as superseded. -/
theorem Joined.reported_superseded
    (joined : db.Joined)
    (few : db.decisions.rows.length ≤ consideredLimit)
    (pubkey : String) :
    db.reported ReviewerStats.superseded pubkey =
      db.decisions.rows.countP fun row =>
        db.stateOf row.caseId == some "superseded" && row.brokerPubkey == pubkey := by
  rw [Governance.reported_superseded,
    countP_consideredRows (joined.length_joinedRows.trans_le few)]
  apply Lib.countP_flatMap_of_single
  intro decision held
  obtain ⟨row, single, sameBroker, state⟩ := joined.joinedWith held
  refine ⟨row, single, ?_⟩
  rw [← sameBroker, state]
  rfl

/-- Beyond the limit some reviewer is reported with too few decisions. -/
theorem few_of_exact
    (exact : ∀ pubkey, db.reported ReviewerStats.decisions pubkey =
      db.decisions.rows.countP fun row => row.brokerPubkey == pubkey) :
    db.decisions.rows.length ≤ consideredLimit := by
  have sameCounts : ∀ pubkey,
      db.consideredRows.countP (fun row => row.brokerPubkey == pubkey) =
        db.decisions.rows.countP fun row => row.brokerPubkey == pubkey := by
    intro pubkey
    rw [← Governance.reported_decisions]
    exact exact pubkey
  have sameLength := Lib.length_eq_of_countP_eq sameCounts
  rw [← sameLength, consideredRows, List.length_map]
  exact List.length_take_le _ _

/-! ## What writes keep -/

/-- Decisions keep their cases, and a receipt names a decision only from the write
that records it. -/
theorem Joined.step
    {before after : Database}
    (joined : before.Joined)
    (eventId : String)
    (cases : ∀ case ∈ before.cases.rows, ∃ later ∈ after.cases.rows, later.id = case.id)
    (decisions : ∀ row ∈ after.decisions.rows,
      (∃ old ∈ before.decisions.rows, old.caseId = row.caseId) ∨
        ∃ case ∈ before.cases.rows, case.id = row.caseId)
    (ids : ∀ id ∈ before.decisionIds, id ∈ after.decisionIds)
    (receipts : ∀ receipt ∈ after.receipts.rows,
      receipt.decisionId = none ∨
        (∃ old ∈ before.receipts.rows, old.eventId = receipt.eventId ∧
          old.decisionId = receipt.decisionId) ∨
        receipt.eventId = eventId ∧ ∃ id, receipt.decisionId = some id ∧
          id ∉ before.decisionIds ∧ id ∈ after.decisionIds) :
    after.Joined where
  cased := by
    intro row held
    have inBefore : ∃ case ∈ before.cases.rows, case.id = row.caseId := by
      rcases decisions row held with ⟨old, oldHeld, sameCase⟩ | found
      · obtain ⟨case, caseHeld, isCase⟩ := joined.cased old oldHeld
        exact ⟨case, caseHeld, isCase.trans sameCase⟩
      · exact found
    obtain ⟨case, caseHeld, isCase⟩ := inBefore
    obtain ⟨later, laterHeld, sameId⟩ := cases case caseHeld
    exact ⟨later, laterHeld, sameId.trans isCase⟩
  receiptHeld := by
    intro receipt held id named
    rcases receipts receipt held with none | ⟨old, oldHeld, -, same⟩ | ⟨-, own, isOwn, -, added⟩
    · rw [none] at named
      cases named
    · exact ids id (joined.receiptHeld old oldHeld id (same.trans named))
    · rw [isOwn] at named
      exact Option.some.inj named ▸ added
  receiptOnce := by
    intro first firstHeld second secondHeld id firstNames secondNames
    apply after.receipts.eq_of_key firstHeld secondHeld
    have old : ∀ receipt ∈ after.receipts.rows, receipt.decisionId = some id →
        (∃ old ∈ before.receipts.rows, old.eventId = receipt.eventId ∧
          old.decisionId = some id) ∨
        receipt.eventId = eventId ∧ id ∉ before.decisionIds := by
      intro receipt held named
      rcases receipts receipt held with none | ⟨old, oldHeld, sameEvent, same⟩ |
        ⟨isEvent, own, isOwn, fresh, -⟩
      · rw [none] at named
        cases named
      · exact .inl ⟨old, oldHeld, sameEvent, same.trans named⟩
      · rw [isOwn] at named
        exact .inr ⟨isEvent, Option.some.inj named ▸ fresh⟩
    rcases old first firstHeld firstNames with ⟨firstOld, firstOldHeld, firstEvent, firstNamed⟩ |
      ⟨firstEvent, firstFresh⟩ <;>
      rcases old second secondHeld secondNames with
        ⟨secondOld, secondOldHeld, secondEvent, secondNamed⟩ | ⟨secondEvent, secondFresh⟩
    · have same := joined.receiptOnce firstOld firstOldHeld secondOld secondOldHeld id firstNamed
        secondNamed
      rw [← firstEvent, ← secondEvent, same]
    · exact absurd (joined.receiptHeld firstOld firstOldHeld id firstNamed) secondFresh
    · exact absurd (joined.receiptHeld secondOld secondOldHeld id secondNamed) firstFresh
    · exact firstEvent.trans secondEvent.symm

/-- A write that leaves the decisions keeps the joins, when no case goes and no receipt
comes to name a decision. -/
theorem Joined.keep
    {before after : Database}
    (joined : before.Joined)
    (decisions : after.decisions = before.decisions)
    (cases : ∀ case ∈ before.cases.rows, ∃ later ∈ after.cases.rows, later.id = case.id)
    (receipts : ∀ receipt ∈ after.receipts.rows,
      receipt.decisionId = none ∨
        ∃ old ∈ before.receipts.rows, old.eventId = receipt.eventId ∧
          old.decisionId = receipt.decisionId) :
    after.Joined := by
  refine joined.step "" cases ?_ ?_ fun receipt held => (receipts receipt held).imp_right .inl
  · rw [decisions]
    exact fun row held => .inl ⟨row, held, rfl⟩
  · rw [decisionIds, decisionIds, decisions]
    exact fun id held => held

/-- Receipts after a change that leaves the decisions they name. -/
theorem receipt_of_updateWhere
    {table : Lib.Table ReceiptRow ReceiptRow.eventId}
    {condition : ReceiptRow → Bool}
    {change : ReceiptRow → ReceiptRow}
    (keeps : ∀ row, (change row).eventId = row.eventId)
    (names : ∀ row, (change row).decisionId = none ∨ (change row).decisionId = row.decisionId)
    {receipt : ReceiptRow}
    (held : receipt ∈ (table.updateWhere condition change keeps).rows) :
    receipt.decisionId = none ∨
      ∃ old ∈ table.rows, old.eventId = receipt.eventId ∧
        old.decisionId = receipt.decisionId := by
  obtain ⟨old, oldHeld, rfl⟩ := Lib.Table.mem_updateWhere.mp held
  split
  · exact (names old).imp_right fun same => ⟨old, oldHeld, (keeps old).symm, same.symm⟩
  · exact .inr ⟨old, oldHeld, rfl, rfl⟩

/-- Cases after a change are the cases before it. -/
theorem case_of_updateWhere
    (table : Lib.Table CaseRow CaseRow.id)
    (condition : CaseRow → Bool)
    {change : CaseRow → CaseRow}
    (keeps : ∀ row, (change row).id = row.id) :
    ∀ case ∈ table.rows,
      ∃ later ∈ (table.updateWhere condition change keeps).rows, later.id = case.id := by
  intro case held
  refine ⟨_, Lib.Table.mem_updateWhere.mpr ⟨case, held, rfl⟩, ?_⟩
  split
  · exact keeps case
  · rfl

/-- Rows that an update leaves are found by their keys afterwards. -/
theorem exists_of_find?
    {before after : Lib.Table CaseRow CaseRow.id}
    {change : CaseRow → CaseRow}
    (found : ∀ wanted, after.find? wanted = (before.find? wanted).map change)
    (keeps : ∀ case, (change case).id = case.id) :
    ∀ case ∈ before.rows, ∃ later ∈ after.rows, later.id = case.id := by
  intro case held
  have isFound := found case.id
  rw [Lib.Table.find?_of_mem held, Option.map_some] at isFound
  exact ⟨change case, (Lib.Table.find?_eq_some_iff.mp isFound).1, keeps case⟩

/-- A receipt after a projection took effect is an old one, or the projected one. -/
theorem receipt_of_projected
    {before after : Lib.Table ReceiptRow ReceiptRow.eventId}
    {eventId : String}
    {projectedAt : Nat}
    {decisionId : Option String}
    (found : ∀ wanted, after.find? wanted = (before.find? wanted).map fun row =>
      if row.eventId = eventId then row.committed projectedAt decisionId else row)
    {receipt : ReceiptRow}
    (held : receipt ∈ after.rows) :
    (∃ old ∈ before.rows, old.eventId = receipt.eventId ∧
        old.decisionId = receipt.decisionId) ∨
      receipt.eventId = eventId ∧ receipt.decisionId = decisionId := by
  have isFound := found receipt.eventId
  rw [Lib.Table.find?_of_mem held] at isFound
  obtain ⟨old, oldFound, changed⟩ := Option.map_eq_some_iff.mp isFound.symm
  obtain ⟨oldHeld, sameEvent⟩ := Lib.Table.find?_eq_some_iff.mp oldFound
  split at changed
  · rename_i isEvent
    right
    rw [← changed]
    exact ⟨isEvent, rfl⟩
  · left
    rw [← changed] at sameEvent ⊢
    exact ⟨old, oldHeld, rfl, rfl⟩

/-- Every write keeps the joins. -/
theorem Joined.apply
    (joined : db.Joined)
    (write : Write) :
    (write.apply db).Joined := by
  have sameCases : ∀ case ∈ db.cases.rows, ∃ later ∈ db.cases.rows, later.id = case.id :=
    fun case held => ⟨case, held, rfl⟩
  have sameReceipts : ∀ receipt ∈ db.receipts.rows, receipt.decisionId = none ∨
      ∃ old ∈ db.receipts.rows, old.eventId = receipt.eventId ∧
        old.decisionId = receipt.decisionId :=
    fun receipt held => .inr ⟨receipt, held, rfl, rfl⟩
  cases write with
  | accept correlation now =>
      simp only [Write.apply, recordAccepted]
      split
      · rename_i inserted
        refine joined.keep rfl sameCases fun receipt held => ?_
        rcases (Lib.Table.mem_of_insert inserted).mp held with old | rfl
        · exact sameReceipts receipt old
        · exact .inl rfl
      · refine joined.keep rfl sameCases fun receipt held => ?_
        exact receipt_of_updateWhere (by exact fun _ => rfl) (by exact fun _ => .inr rfl) held
  | batch commit =>
      cases commit with
      | response commit =>
          rcases commit.batch_outcome db with ⟨error, failed⟩ | ⟨after, ran, effect⟩
          · simp only [Write.apply, Commit.batch, failed]
            exact joined
          · simp only [Write.apply, Commit.batch, ran]
            obtain ⟨⟨case, caseFound, -⟩, -⟩ := commit.of_admitted effect.admitted
            obtain ⟨caseHeld, isCase⟩ := Lib.Table.find?_eq_some_iff.mp caseFound
            refine joined.step commit.eventId
              (exists_of_find? effect.cases fun row => by split <;> rfl) ?_ ?_ ?_
            · intro row held
              rw [effect.decisions, List.mem_append, List.mem_singleton] at held
              rcases held with old | rfl
              · exact .inl ⟨row, old, rfl⟩
              · exact .inr ⟨case, caseHeld, isCase⟩
            · intro id held
              rw [decisionIds, effect.decisions, List.map_append]
              exact List.mem_append_left _ held
            · intro receipt held
              rcases receipt_of_projected effect.receipts held with old | ⟨isEvent, names⟩
              · exact .inr (.inl old)
              · refine .inr (.inr ⟨isEvent, commit.decisionId, names, effect.fresh, ?_⟩)
                rw [decisionIds, effect.decisions, List.map_append]
                exact List.mem_append_right _ (List.mem_singleton_self _)
      | supersession commit =>
          rcases commit.batch_outcome db with ⟨error, failed⟩ | ⟨after, ran, effect⟩
          · simp only [Write.apply, Commit.batch, failed]
            exact joined
          · simp only [Write.apply, Commit.batch, ran]
            obtain ⟨⟨case, caseFound, -⟩, -⟩ := commit.of_admitted effect.admitted
            obtain ⟨caseHeld, isCase⟩ := Lib.Table.find?_eq_some_iff.mp caseFound
            have ids : after.decisionIds = db.decisionIds ++ [commit.decisionId] := by
              rw [decisionIds, effect.decisions, List.map_append, decisionIds_markedBy]
              rfl
            refine joined.step commit.eventId
              (exists_of_find? effect.cases fun row => by split <;> rfl) ?_ ?_ ?_
            · intro row held
              rw [effect.decisions, List.mem_append, List.mem_singleton] at held
              rcases held with old | rfl
              · obtain ⟨before, beforeHeld, rfl⟩ := List.mem_map.mp old
                exact .inl ⟨before, beforeHeld, (caseId_markedBy before commit).symm⟩
              · exact .inr ⟨case, caseHeld, isCase⟩
            · intro id held
              rw [ids]
              exact List.mem_append_left _ held
            · intro receipt held
              rcases receipt_of_projected effect.receipts held with old | ⟨isEvent, names⟩
              · exact .inr (.inl old)
              · refine .inr (.inr ⟨isEvent, commit.decisionId, names, effect.fresh, ?_⟩)
                rw [ids]
                exact List.mem_append_right _ (List.mem_singleton_self _)
      | appeal commit =>
          exact joined.keep rfl (case_of_updateWhere _ _ (by exact fun _ => rfl)) fun receipt held =>
            receipt_of_updateWhere (by exact fun _ => rfl) (by exact fun _ => .inl rfl) held
  | fail eventId error now =>
      exact joined.keep rfl sameCases fun receipt held =>
        receipt_of_updateWhere (by exact fun _ => rfl) (by exact fun _ => .inr rfl) held
  | advance report current now =>
      exact joined.keep rfl sameCases fun receipt held =>
        receipt_of_updateWhere (by exact fun _ => rfl) (by exact fun _ => .inr rfl) held
  | request row heldAt =>
      simp only [Write.apply, upsertCase]
      split
      · rename_i inserted
        refine joined.keep rfl (fun case held => ?_) sameReceipts
        exact ⟨case, (Lib.Table.mem_of_insert inserted).mpr (.inl held), rfl⟩
      · exact joined.keep rfl (case_of_updateWhere _ _ (by exact fun _ => rfl)) sameReceipts
  | expire caseId now =>
      exact joined.keep rfl (case_of_updateWhere _ _ (by exact fun _ => rfl)) sameReceipts

/-! ## Without supersessions -/

/-- No decision is marked with a successor and no case stands superseded. -/
structure Standing (db : Database) : Prop where
  unmarked : ∀ row ∈ db.decisions.rows, row.supersededBy = none
  standing : ∀ case ∈ db.cases.rows, case.state ≠ "superseded"

/-- A change that leaves no case superseded. -/
theorem standing_of_updateWhere
    {table : Lib.Table CaseRow CaseRow.id}
    {condition : CaseRow → Bool}
    {change : CaseRow → CaseRow}
    (keeps : ∀ row, (change row).id = row.id)
    (standing : ∀ case ∈ table.rows, case.state ≠ "superseded")
    (changes : ∀ case ∈ table.rows, (change case).state ≠ "superseded") :
    ∀ case ∈ (table.updateWhere condition change keeps).rows, case.state ≠ "superseded" := by
  intro case held
  obtain ⟨old, oldHeld, rfl⟩ := Lib.Table.mem_updateWhere.mp held
  split
  · exact changes old oldHeld
  · exact standing old oldHeld

/-- The state that a plain decision leaves is not the superseded one. -/
theorem newState_ne_superseded (outcome : DecisionOutcome) :
    outcome.newState.asStr ≠ "superseded" := by
  cases outcome <;> simp [DecisionOutcome.newState, CaseState.asStr]

theorem Standing.response
    {before after : Database}
    {commit : ProjectionCommit}
    (standing : before.Standing)
    (effect : commit.TookEffect before after)
    (newState : commit.newState ≠ "superseded") :
    after.Standing where
  unmarked := by
    intro row held
    rw [effect.decisions, List.mem_append, List.mem_singleton] at held
    rcases held with old | rfl
    · exact standing.unmarked row old
    · rfl
  standing := by
    intro case held
    have isFound := effect.cases case.id
    rw [Lib.Table.find?_of_mem held] at isFound
    obtain ⟨old, oldFound, changed⟩ := Option.map_eq_some_iff.mp isFound.symm
    rw [← changed]
    split
    · exact newState
    · exact standing.standing old (Lib.Table.find?_eq_some_iff.mp oldFound).1

/-- Every planned write that records no supersession keeps the standing. -/
theorem Standing.apply
    (standing : db.Standing)
    {write : Write}
    (known : write.Known fun _ => True)
    (noSupersession : ∀ commit, write = .batch (.supersession commit) →
      ¬(commit.admitted db ∧ commit.decisionId ∉ db.decisionIds)) :
    (write.apply db).Standing := by
  cases write with
  | accept correlation now =>
      simp only [Write.apply, recordAccepted]
      split
      · exact ⟨standing.unmarked, standing.standing⟩
      · exact ⟨standing.unmarked, standing.standing⟩
  | batch commit =>
      cases commit with
      | response commit =>
          rcases commit.batch_outcome db with ⟨error, failed⟩ | ⟨after, ran, effect⟩
          · simp only [Write.apply, Commit.batch, failed]
            exact standing
          · simp only [Write.apply, Commit.batch, ran]
            obtain ⟨event, -, planned⟩ := known
            apply standing.response effect
            cases planned with
            | response _ _ _ isOutcome =>
                obtain ⟨outcome, isState⟩ := isOutcome
                rw [isState]
                exact newState_ne_superseded outcome
      | supersession commit =>
          rcases commit.batch_outcome db with ⟨error, failed⟩ | ⟨after, ran, effect⟩
          · simp only [Write.apply, Commit.batch, failed]
            exact standing
          · exact absurd ⟨effect.admitted, effect.fresh⟩ (noSupersession commit rfl)
      | appeal commit =>
          refine ⟨standing.unmarked, ?_⟩
          exact standing_of_updateWhere (by exact fun _ => rfl) standing.standing
            (by exact fun _ _ => by simp [CaseState.asStr])
  | fail eventId error now => exact ⟨standing.unmarked, standing.standing⟩
  | advance report current now => exact ⟨standing.unmarked, standing.standing⟩
  | request row heldAt =>
      simp only [Write.apply, upsertCase]
      split
      · rename_i inserted
        refine ⟨standing.unmarked, fun case held => ?_⟩
        rcases (Lib.Table.mem_of_insert inserted).mp held with old | rfl
        · exact standing.standing case old
        · simp [CaseState.asStr]
      · refine ⟨standing.unmarked, ?_⟩
        exact standing_of_updateWhere (by exact fun _ => rfl) standing.standing
          (by exact standing.standing)
  | expire caseId now =>
      refine ⟨standing.unmarked, ?_⟩
      exact standing_of_updateWhere (by exact fun _ => rfl) standing.standing
        (by exact fun _ _ => by simp [CaseState.asStr])

/-- A plain decision that is recorded is one more; other writes but supersessions add
none. -/
theorem length_decisions_apply
    {write : Write}
    (noSupersession : ∀ commit, write = .batch (.supersession commit) →
      ¬(commit.admitted db ∧ commit.decisionId ∉ db.decisionIds)) :
    (write.apply db).decisions.rows.length ≤ db.decisions.rows.length ∨
      ∃ commit, write = .batch (.response commit) ∧ commit.admitted db ∧
        commit.decisionId ∉ db.decisionIds ∧
        (write.apply db).decisions.rows.length = db.decisions.rows.length + 1 := by
  by_cases isBatch : ∃ commit, write = .batch commit
  · obtain ⟨commit, rfl⟩ := isBatch
    cases commit with
    | response commit =>
        rcases commit.batch_outcome db with ⟨error, failed⟩ | ⟨after, ran, effect⟩
        · left
          simp only [Write.apply, Commit.batch, failed]
          exact le_refl _
        · right
          refine ⟨commit, rfl, effect.admitted, effect.fresh, ?_⟩
          simp only [Write.apply, Commit.batch, ran]
          rw [effect.decisions, List.length_append, List.length_singleton]
    | supersession commit =>
        left
        rcases commit.batch_outcome db with ⟨error, failed⟩ | ⟨after, ran, effect⟩
        · simp only [Write.apply, Commit.batch, failed]
          exact le_refl _
        · exact absurd ⟨effect.admitted, effect.fresh⟩ (noSupersession commit rfl)
    | appeal commit =>
        left
        have same : (Write.batch (.appeal commit)).apply db = (runBatch commit.batch db).1 := rfl
        rw [same, (commit.batch_frame db).1]
  · left
    rw [decisions_apply db fun commit same => isBatch ⟨commit, same⟩]

theorem exact_of_standing
    (joined : db.Joined)
    (standing : db.Standing)
    (few : db.decisions.rows.length ≤ consideredLimit) :
    db.StatsExact := by
  intro pubkey
  refine ⟨joined.reported_decisions few pubkey, ?_⟩
  rw [joined.reported_superseded few]
  apply List.countP_congr
  intro row held
  have noSuccessor : db.hasSuccessor row = false := by
    simp [hasSuccessor, standing.unmarked row held]
  have notSuperseded : (db.stateOf row.caseId == some "superseded") = false := by
    rw [beq_eq_false_iff_ne]
    intro superseded
    obtain ⟨case, found, isSuperseded⟩ := Option.map_eq_some_iff.mp superseded
    exact standing.standing case (Lib.Table.find?_eq_some_iff.mp found).1 isSuperseded
  rw [noSuccessor, notSuperseded, Bool.false_and, Bool.and_false]

/-- A supersession that is recorded is reported of its signer, who has no successor. -/
theorem not_exact_of_supersession
    {before after : Database}
    {commit : SupersessionCommit}
    (joined : after.Joined)
    (standing : before.Standing)
    (effect : commit.TookEffect before after) :
    ¬after.StatsExact := by
  intro exact
  have few := few_of_exact fun pubkey => (exact pubkey).1
  have counts := (exact commit.brokerPubkey).2
  rw [joined.reported_superseded few] at counts
  obtain ⟨⟨case, caseFound, -⟩, ⟨target, targetFound, sameCase, -⟩, -⟩ :=
    commit.of_admitted effect.admitted
  obtain ⟨-, isCase⟩ := Lib.Table.find?_eq_some_iff.mp caseFound
  obtain ⟨targetHeld, isTarget⟩ := Lib.Table.find?_eq_some_iff.mp targetFound
  have superseded : after.stateOf commit.caseId = some "superseded" := by
    simp [stateOf, effect.cases, caseFound, isCase, CaseRow.moved]
    rfl
  -- only the superseded decision has a successor, and it is of the case
  have marked : ∀ row ∈ before.decisions.rows,
      (row.markedBy commit).supersededBy ≠ none → row.caseId = commit.caseId := by
    intro row held isMarked
    unfold DecisionRow.markedBy at isMarked
    split at isMarked
    · rename_i named
      have same := before.decisions.eq_of_key held targetHeld (named.1.trans isTarget.symm)
      rw [same, sameCase]
    · exact absurd (standing.unmarked row held) isMarked
  have noSuccessor : after.hasSuccessor commit.decisionRow = false := by
    simp [hasSuccessor, SupersessionCommit.decisionRow]
  have fewer : (before.decisions.rows.map fun row => row.markedBy commit).countP
      (fun row => row.brokerPubkey == commit.brokerPubkey && after.hasSuccessor row) ≤
        (before.decisions.rows.map fun row => row.markedBy commit).countP fun row =>
          after.stateOf row.caseId == some "superseded" &&
            row.brokerPubkey == commit.brokerPubkey := by
    apply List.countP_mono_left
    intro row held counted
    obtain ⟨old, oldHeld, rfl⟩ := List.mem_map.mp held
    rw [Bool.and_eq_true] at counted ⊢
    refine ⟨?_, counted.1⟩
    have isMarked : (old.markedBy commit).supersededBy ≠ none := by
      intro none
      have hasOne := counted.2
      simp [hasSuccessor, none] at hasOne
    rw [caseId_markedBy, marked old oldHeld isMarked, superseded]
    rfl
  have ownCase : commit.decisionRow.caseId = commit.caseId := rfl
  have ownBroker : commit.decisionRow.brokerPubkey = commit.brokerPubkey := rfl
  rw [effect.decisions, List.countP_append, List.countP_append, List.countP_singleton,
    List.countP_singleton, noSuccessor, ownCase, ownBroker, superseded] at counts
  simp only [beq_self_eq_true, Bool.and_self, Bool.and_false, if_true, Bool.false_eq_true,
    if_false] at counts
  omega

end Database

/-! ## Runs -/

namespace System

/-- The statistics of every reviewer are exact. -/
def StatsExact (system : System) : Prop :=
  system.db.StatsExact

/-- A move records no supersession, and a plain decision only while all that are
stored, and it, are considered. -/
structure RecordsPlainly (system : System) (move : Move) : Prop where
  noSupersession : ∀ commit, system.write move = some (.batch (.supersession commit)) →
    ¬(commit.admitted system.db ∧ commit.decisionId ∉ system.db.decisionIds)
  considered : ∀ commit, system.write move = some (.batch (.response commit)) →
    commit.admitted system.db → commit.decisionId ∉ system.db.decisionIds →
    system.db.decisions.rows.length < consideredLimit

end System

/-- Each decision joined once, none superseded, and all of them considered. -/
structure Database.Counted (db : Database) : Prop where
  joined : db.Joined
  standing : db.Standing
  few : db.decisions.rows.length ≤ consideredLimit

theorem counted_start : System.start.db.Counted where
  joined :=
    { cased := by simp [System.start, Database.empty, Lib.Table.empty]
      receiptHeld := by simp [System.start, Database.empty, Lib.Table.empty]
      receiptOnce := by simp [System.start, Database.empty, Lib.Table.empty] }
  standing :=
    { unmarked := by simp [System.start, Database.empty, Lib.Table.empty]
      standing := by simp [System.start, Database.empty, Lib.Table.empty] }
  few := Nat.zero_le _

section

variable {json : JsonParser} {system : System} {move : Move}

theorem counted_step
    (counted : system.db.Counted)
    (known : ∀ task ∈ system.tasks, task.Known fun _ => True)
    (plainly : system.RecordsPlainly move) :
    (system.step json move).db.Counted := by
  apply System.step_db_keeps Database.Counted system move counted
  intro write written
  have noSupersession : ∀ commit, write = .batch (.supersession commit) →
      ¬(commit.admitted system.db ∧ commit.decisionId ∉ system.db.decisionIds) :=
    fun commit same => plainly.noSupersession commit (same ▸ written)
  have few : (write.apply system.db).decisions.rows.length ≤ consideredLimit := by
    rcases Database.length_decisions_apply noSupersession with
      noMore | ⟨commit, rfl, admitted, fresh, oneMore⟩
    · exact noMore.trans counted.few
    · rw [oneMore]
      exact plainly.considered commit written admitted fresh
  exact
    { joined := counted.joined.apply write
      standing := counted.standing.apply (System.known_write known written) noSupersession
      few }

/-- A move that records a supersession, or one decision too many, leaves statistics
that are not exact. -/
theorem recordsPlainly_of_exact
    (counted : system.db.Counted)
    (exact : (system.step json move).StatsExact) :
    system.RecordsPlainly move where
  noSupersession := by
    rintro commit written ⟨admitted, fresh⟩
    obtain ⟨after, ran, effect⟩ := commit.batch_admitted admitted fresh
    have isAfter : (system.step json move).db = after := by
      rw [System.step_db, written]
      exact congrArg Prod.fst ran
    have joined : (system.step json move).db.Joined := by
      rw [System.step_db, written]
      exact counted.joined.apply (.batch (.supersession commit))
    rw [isAfter] at joined
    rw [System.StatsExact, isAfter] at exact
    exact Database.not_exact_of_supersession joined counted.standing effect exact
  considered := by
    intro commit written admitted fresh
    obtain ⟨after, ran, effect⟩ := commit.batch_admitted admitted fresh
    have isAfter : (system.step json move).db = after := by
      rw [System.step_db, written]
      exact congrArg Prod.fst ran
    rw [System.StatsExact, isAfter] at exact
    have few := Database.few_of_exact fun pubkey => (exact pubkey).1
    rw [effect.decisions, List.length_append, List.length_singleton] at few
    exact few

end

/-- The statistics are exact in every state of exactly the runs that record no
supersession and never more decisions than are considered. -/
theorem statsExact_iff
    (json : JsonParser)
    (moves : List Move) :
    Lib.Visits (System.step json) System.StatsExact System.start moves ↔
      Lib.Along (System.step json) System.RecordsPlainly System.start moves := by
  let counted : System → Prop := fun system => system.db.Counted
  let known : System → Move → Prop := fun system _ =>
    ∀ task ∈ system.tasks, task.Known fun _ => True
  have assumed : Lib.Along (System.step json) known System.start moves := by
    rw [Lib.along_iff_prefixes]
    intro taken move _ task inFlight
    exact (known_of_mem_tasks taken task inFlight).mono fun _ _ => trivial
  have preserved : ∀ system move, counted system → known system move →
      system.RecordsPlainly move → counted (system.step json move) :=
    fun _ _ isCounted isKnown plainly => counted_step isCounted isKnown plainly
  have sufficient : ∀ system, counted system → system.StatsExact :=
    fun system isCounted =>
      Database.exact_of_standing isCounted.joined isCounted.standing isCounted.few
  have necessary : ∀ system move, counted system → known system move →
      (system.step json move).StatsExact → system.RecordsPlainly move :=
    fun _ _ isCounted _ exact => recordsPlainly_of_exact isCounted exact
  exact Lib.visits_iff_along preserved sufficient necessary counted_start assumed

namespace Sample

/-- The admin supersedes its decision of an event. -/
def overturning (id citedEventId : String) (createdAt : Nat) : NostrEvent :=
  { response id createdAt with tags := [["d", "case-1"], ["e", citedEventId, "", "supersedes"]] }

def overturnedRun : List Move :=
  .request caseRow none :: projected (response (hex 'd') 1700000050) ++
    projected (overturning (hex 'f') (hex 'd') 1700000060)

end Sample

/-- A reviewer who supersedes its one decision is reported with two superseded ones. -/
theorem superseder_reported :
    ¬Lib.Visits (System.step Sample.parser) System.StatsExact System.start
      Sample.overturnedRun := by
  intro visits
  have exact := (Lib.visits_iff_prefixes System.start Sample.overturnedRun).mp visits
    Sample.overturnedRun (List.prefix_refl _)
  have counts := (exact (Sample.hex 'c')).2
  rw [reported_superseded] at counts
  revert counts
  decide +kernel

end Governance
end NostrBbs
