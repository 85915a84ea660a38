import NostrBbs.Pay.Dispatch

/-!
# What the transactions of the pay routes leave

Every transaction that a pay route carries out is one of a few kinds.  Each leaves the
ledger as it was, or changes it in one way that its kind allows.
-/

namespace NostrBbs
namespace Pay

open Lib.Program (call)

/-! ## Statements -/

section Statements

variable {ledger after : Ledger} {stmt : Stmt} {rows : Nat}

@[simp] theorem batch_nil
    (ledger : Ledger) :
    ledger.batch [] = some (ledger, []) :=
  rfl

theorem batch_cons
    (executed : ledger.execute stmt = some (after, rows))
    (stmts : List Stmt) :
    ledger.batch (stmt :: stmts) = (after.batch stmts).map fun rest => (rest.1, rows :: rest.2) := by
  rw [Ledger.batch, executed]

theorem batch_single :
    ledger.batch [stmt] = (ledger.execute stmt).map fun executed =>
      (executed.1, [executed.2]) := by
  rw [Ledger.batch]
  cases ledger.execute stmt with
  | none => rfl
  | some executed => rfl

theorem execute_applyCredit
    (ledger : Ledger)
    (creditRef : String)
    (now : Int) :
    ledger.execute (.applyCredit creditRef now) =
      match (ledger.database.credits.find? creditRef).filter fun credit => !credit.applied with
      | none => ledger.unchanged
      | some credit =>
          some
            (⟨{ ledger.database with
                accounts :=
                  Ledger.addTo ledger.database.accounts credit.did credit.amountSats now },
              ledger.movements ++ [.credit creditRef credit.did credit.amountSats]⟩, 1) :=
  rfl

theorem execute_markApplied
    (ledger : Ledger)
    (creditRef : String) :
    ledger.execute (.markApplied creditRef) =
      some
        (⟨{ ledger.database with
            credits := ledger.database.credits.updateWhere
              (fun credit => credit.creditRef == creditRef && !credit.applied)
              (fun credit => { credit with applied := true }) (fun _ => rfl) },
          ledger.movements⟩,
          ledger.database.credits.countWhere fun credit =>
            credit.creditRef == creditRef && !credit.applied) :=
  rfl

theorem execute_journalRelease
    (ledger : Ledger)
    (jobId ref requestId : String)
    (now : Int) :
    ledger.execute (.journalRelease jobId ref requestId now) =
      match ledger.database.jobs.find? jobId with
      | none => ledger.unchanged
      | some job =>
          if job.releaseRef = some ref ∧ 0 < job.heldSats - job.actualSats.getD 0 then
            ledger.journal ⟨ref, job.requesterDid, job.heldSats - job.actualSats.getD 0,
              .jobRelease, none, none, none, some requestId, false, now⟩
          else ledger.unchanged :=
  rfl

end Statements

/-! ## Balances -/

namespace Ledger

/-- The balance of an account. -/
def balance (ledger : Ledger) (did : String) : Int :=
  ledger.database.balance did

end Ledger

theorem balance_addTo
    (database : Database)
    (did other : String)
    (sats now : Int) :
    Database.balance { database with accounts := Ledger.addTo database.accounts did sats now } other =
      database.balance other + if did = other then sats else 0 := by
  unfold Database.balance Ledger.addTo
  dsimp only
  cases inserted : database.accounts.insert ⟨did, sats, now⟩ with
  | some added =>
      dsimp only
      rw [Lib.Table.find?_of_insert inserted other]
      by_cases isOther : did = other
      · have absent : database.accounts.find? other = none := by
          rw [← isOther]
          exact Lib.Table.find?_eq_none_iff.mpr (Lib.Table.insert_eq_some inserted).1
        simp [isOther, absent]
      · simp [isOther]
  | none =>
      dsimp only
      rw [Lib.Table.find?_updateWhere]
      have held := Lib.Table.insert_eq_none_iff.mp inserted
      cases found : database.accounts.find? other with
      | none =>
          have different : did ≠ other := by
            rintro rfl
            exact Lib.Table.find?_eq_none_iff.mp found held
          simp [different]
      | some account =>
          have isAccount := (Lib.Table.find?_eq_some_iff.mp found).2
          by_cases isOther : did = other
          · simp [isAccount, isOther]
          · simp [isAccount, isOther, Ne.symm isOther]

/-- What a debit that an account covers leaves. -/
structure Taken (before after : Ledger) (did : String) (sats : Int) (movement : Movement) :
    Prop where
  covered : sats ≤ before.balance did
  balance : ∀ other, after.balance other = before.balance other - if did = other then sats else 0
  jobs : after.database.jobs = before.database.jobs
  credits : after.database.credits = before.database.credits
  movements : after.movements = before.movements ++ [movement]

/-- An account covers a debit. -/
def Ledger.Covers (ledger : Ledger) (did : String) (sats : Int) : Prop :=
  ∃ account, ledger.database.accounts.find? did = some account ∧ sats ≤ account.balanceSats

theorem any_covers_iff
    {ledger : Ledger}
    {did : String}
    {sats : Int} :
    ((ledger.database.accounts.find? did).any fun account => sats ≤ account.balanceSats) = true ↔
      ledger.Covers did sats := by
  unfold Ledger.Covers
  rw [Option.any_eq_true]
  simp only [decide_eq_true_eq]

theorem takeFrom_taken
    {ledger : Ledger}
    {did : String}
    {sats : Int}
    (now : Int)
    (movement : Movement)
    (covers : ledger.Covers did sats) :
    ∃ after, ledger.takeFrom did sats now true movement = some (after, 1) ∧
      Taken ledger after did sats movement ∧
        after.database.txoDeposits = ledger.database.txoDeposits ∧
          after.database.admins = ledger.database.admins := by
  obtain ⟨account, found, enough⟩ := covers
  obtain ⟨-, isAccount⟩ := Lib.Table.find?_eq_some_iff.mp found
  let covered (account : Account) : Bool :=
    account.did == did && sats ≤ account.balanceSats && true
  have named : covered account = true := by
    simp [covered, isAccount, enough]
  have onlyAccount : ∀ other : Account, covered other = true → other.did = did := by
    intro other isCovered
    simp only [covered, Bool.and_true, Bool.and_eq_true, beq_iff_eq] at isCovered
    exact isCovered.1
  have rows : ledger.database.accounts.countWhere covered = 1 :=
    Lib.Table.countWhere_eq_one found named onlyAccount
  have taken : ledger.takeFrom did sats now true movement = some
      (⟨{ ledger.database with
          accounts := ledger.database.accounts.updateWhere covered
            (fun account =>
              { account with balanceSats := account.balanceSats - sats, updatedAt := now })
            (fun _ => rfl) },
        ledger.movements ++ [movement]⟩, 1) := by
    unfold Ledger.takeFrom
    change some ((⟨_, if ledger.database.accounts.countWhere covered = 0 then _ else _⟩ : Ledger),
      ledger.database.accounts.countWhere covered) = _
    rw [rows, if_neg (by decide)]
  refine ⟨_, taken, ⟨?_, ?_, rfl, rfl, rfl⟩, rfl, rfl⟩
  · unfold Ledger.balance Database.balance
    rw [found]
    exact enough
  · intro other
    unfold Ledger.balance Database.balance
    dsimp only
    rw [Lib.Table.find?_updateWhere]
    by_cases isOther : did = other
    · rw [← isOther, found]
      simp [named, isAccount]
    · cases otherFound : ledger.database.accounts.find? other with
      | none => simp [isOther]
      | some held =>
          have isHeld := (Lib.Table.find?_eq_some_iff.mp otherFound).2
          simp [covered, isHeld, Ne.symm isOther, isOther]

/-- A debit that no account covers changes nothing. -/
theorem takeFrom_refused
    {ledger : Ledger}
    {did : String}
    {sats : Int}
    (now : Int)
    (condition : Bool)
    (movement : Movement)
    (refused : ledger.Covers did sats → condition = false) :
    ledger.takeFrom did sats now condition movement = some (ledger, 0) := by
  have unnamed : ∀ account ∈ ledger.database.accounts.rows,
      (account.did == did && sats ≤ account.balanceSats && condition) = false := by
    intro account held
    by_cases isAccount : account.did = did
    · by_cases enough : sats ≤ account.balanceSats
      · rw [refused ⟨account, by rw [← isAccount]; exact Lib.Table.find?_of_mem held, enough⟩,
          Bool.and_false]
      · simp [enough]
    · simp [isAccount]
  have rows : ledger.database.accounts.countWhere
      (fun account => account.did == did && sats ≤ account.balanceSats && condition) = 0 := by
    unfold Lib.Table.countWhere
    rw [List.countP_eq_zero]
    intro account held
    rw [unnamed account held]
    decide
  unfold Ledger.takeFrom
  dsimp only
  rw [rows, if_pos rfl, Lib.Table.updateWhere_of_none _ _ unnamed]

/-! ## Credits -/

/-- Every credit of the journal has been applied. -/
def Ledger.AllApplied (ledger : Ledger) : Prop :=
  ∀ credit ∈ ledger.database.credits.rows, credit.applied = true

/-- What a credit that is journalled and applied leaves. -/
structure Credited (before after : Ledger) (credit : Credit) : Prop where
  fresh : before.database.credits.find? credit.creditRef = none
  rows : after.database.credits.rows =
    before.database.credits.rows ++ [{ credit with applied := true }]
  balance : ∀ other, after.balance other =
    before.balance other + if credit.did = other then credit.amountSats else 0
  jobs : after.database.jobs = before.database.jobs
  txoDeposits : after.database.txoDeposits = before.database.txoDeposits
  movements : after.movements =
    before.movements ++ [.credit credit.creditRef credit.did credit.amountSats]

/-- The ledger with one more row in its journal. -/
def Ledger.withCredits (ledger : Ledger) (credits : Lib.Table Credit Credit.creditRef) : Ledger :=
  ⟨{ ledger.database with credits := credits }, ledger.movements⟩

/-- A credit is journalled unless its receipt is held. -/
theorem journal_cases
    (ledger : Ledger)
    {credit : Credit}
    (notNegative : 0 ≤ credit.amountSats) :
    (ledger.journal credit = some (ledger, 0) ∧
        ledger.database.credits.find? credit.creditRef ≠ none) ∨
      ∃ credits, ledger.database.credits.insert credit = some credits ∧
        ledger.journal credit = some (ledger.withCredits credits, 1) := by
  unfold Ledger.journal Ledger.unchanged
  rw [if_neg (by omega)]
  cases inserted : ledger.database.credits.insert credit with
  | none =>
      refine Or.inl ⟨rfl, ?_⟩
      rw [Ne, Lib.Table.find?_eq_none_iff, not_not]
      exact Lib.Table.insert_eq_none_iff.mp inserted
  | some credits => exact Or.inr ⟨credits, rfl, rfl⟩

section Apply

variable {ledger : Ledger} (allApplied : ledger.AllApplied)

include allApplied

/-- Nothing is applied a second time. -/
theorem apply_again
    (creditRef : String)
    (now : Int) :
    ledger.batch [.applyCredit creditRef now, .markApplied creditRef] =
      some (ledger, [0, 0]) := by
  have unfound : ((ledger.database.credits.find? creditRef).filter fun credit =>
      !credit.applied) = none := by
    rw [Option.filter_eq_none_iff]
    intro credit found
    rw [allApplied credit (Lib.Table.find?_eq_some_iff.mp found).1]
    decide
  have unnamed : ∀ credit ∈ ledger.database.credits.rows,
      (credit.creditRef == creditRef && !credit.applied) = false := by
    intro credit held
    rw [allApplied credit held, Bool.not_true, Bool.and_false]
  have rows : ledger.database.credits.countWhere
      (fun credit => credit.creditRef == creditRef && !credit.applied) = 0 := by
    unfold Lib.Table.countWhere
    rw [List.countP_eq_zero]
    intro credit held
    rw [unnamed credit held]
    decide
  have applied : ledger.execute (.applyCredit creditRef now) = some (ledger, 0) := by
    rw [execute_applyCredit, unfound]
    rfl
  rw [batch_cons applied, batch_single, execute_markApplied, rows,
    Lib.Table.updateWhere_of_none _ _ unnamed]
  rfl

/-- A row that was just journalled is applied and marked. -/
theorem apply_journalled
    {credit : Credit}
    {credits : Lib.Table Credit Credit.creditRef}
    (isNew : credit.applied = false)
    (inserted : ledger.database.credits.insert credit = some credits)
    (now : Int) :
    ∃ after, (ledger.withCredits credits).batch
        [.applyCredit credit.creditRef now, .markApplied credit.creditRef] = some (after, [1, 1]) ∧
      Credited ledger after credit := by
  have fresh := (Lib.Table.insert_eq_some inserted).1
  have newRows := (Lib.Table.insert_eq_some inserted).2
  have found : credits.find? credit.creditRef = some credit := by
    rw [Lib.Table.find?_of_insert inserted, if_pos rfl]
  let unapplied (other : Credit) : Bool :=
    other.creditRef == credit.creditRef && !other.applied
  have rows : credits.countWhere unapplied = 1 := by
    refine Lib.Table.countWhere_eq_one found ?_ ?_
    · simp [unapplied, isNew]
    · intro other isUnapplied
      simp only [unapplied, Bool.and_eq_true, beq_iff_eq] at isUnapplied
      exact isUnapplied.1
  have marked : (credits.updateWhere unapplied
      (fun credit => { credit with applied := true }) (fun _ => rfl)).rows =
        ledger.database.credits.rows ++ [{ credit with applied := true }] := by
    unfold Lib.Table.updateWhere
    dsimp only
    rw [newRows, List.map_append, List.map_singleton]
    congr 1
    · conv_rhs => rw [← List.map_id ledger.database.credits.rows]
      apply List.map_congr_left
      intro other held
      simp [unapplied, allApplied other held]
    · simp [unapplied, isNew]
  refine ⟨?after, ?_, ?_⟩
  case after =>
    exact ⟨{ ledger.database with
        accounts := Ledger.addTo ledger.database.accounts credit.did credit.amountSats now
        credits := credits.updateWhere unapplied (fun credit => { credit with applied := true })
          (fun _ => rfl) },
      ledger.movements ++ [.credit credit.creditRef credit.did credit.amountSats]⟩
  · have applied := execute_applyCredit (ledger.withCredits credits) credit.creditRef now
    unfold Ledger.withCredits at applied ⊢
    dsimp only at applied
    rw [found, Option.filter_some_pos (by rw [isNew]; decide)] at applied
    rw [batch_cons applied, batch_single, execute_markApplied]
    change some (_, [1, credits.countWhere unapplied]) = _
    rw [rows]
  · refine ⟨Lib.Table.find?_eq_none_iff.mpr fresh, marked, ?_, rfl, rfl, rfl⟩
    intro other
    exact balance_addTo { ledger.database with credits := _ } credit.did other credit.amountSats now

end Apply

/-- A credit that is journalled, applied and marked in one transaction, or that changes
nothing because its receipt is held. -/
theorem journal_apply_cases
    {ledger after : Ledger}
    {rows : List Nat}
    {stmt : Stmt}
    {credit : Credit}
    {now : Int}
    (allApplied : ledger.AllApplied)
    (isNew : credit.applied = false)
    (notNegative : 0 ≤ credit.amountSats)
    (executes : ledger.execute stmt = ledger.journal credit)
    (batched : ledger.batch [stmt, .applyCredit credit.creditRef now,
      .markApplied credit.creditRef] = some (after, rows)) :
    (after = ledger ∧ ledger.database.credits.find? credit.creditRef ≠ none) ∨
      Credited ledger after credit := by
  rcases journal_cases ledger notNegative with ⟨journalled, held⟩ | ⟨credits, inserted, journalled⟩
  · rw [batch_cons (executes.trans journalled), apply_again allApplied] at batched
    cases batched
    exact Or.inl ⟨rfl, held⟩
  · obtain ⟨credited, applied, isCredited⟩ := apply_journalled allApplied isNew inserted now
    rw [batch_cons (executes.trans journalled), applied] at batched
    cases batched
    exact Or.inr isCredited

/-- A statement that changes no row, before credits that are applied already. -/
theorem unchanged_apply
    {ledger after : Ledger}
    {rows : List Nat}
    {stmt : Stmt}
    {creditRef : String}
    {now : Int}
    (allApplied : ledger.AllApplied)
    (executes : ledger.execute stmt = ledger.unchanged)
    (batched : ledger.batch [stmt, .applyCredit creditRef now, .markApplied creditRef] =
      some (after, rows)) :
    after = ledger := by
  have same : ledger.execute stmt = some (ledger, 0) := executes
  rw [batch_cons same, apply_again allApplied] at batched
  cases batched
  rfl

/-! ## The kinds of transactions -/

section Kinds

variable {ledger after : Ledger} {rows : List Nat}

/-- A debit is covered, or changes nothing. -/
theorem debit_cases
    {cost now : Int}
    {did : String}
    (batched : ledger.batch [.debit cost now did] = some (after, rows)) :
    after = ledger ∨ Taken ledger after did cost (.charge did cost) := by
  have executes : ledger.execute (.debit cost now did) =
      ledger.takeFrom did cost now true (.charge did cost) := rfl
  rw [batch_single, executes] at batched
  by_cases covers : ledger.Covers did cost
  · obtain ⟨taken, isTaken, effect, -⟩ := takeFrom_taken now (.charge did cost) covers
    rw [isTaken] at batched
    cases batched
    exact Or.inr effect
  · rw [takeFrom_refused now true _ fun covered => absurd covered covers] at batched
    cases batched
    exact Or.inl rfl

/-- The row that a deposit is journalled as. -/
def depositCredit (did : String) (outpoint : Outpoint) (value : Nat) (requestId : Option String)
    (now : Int) : Credit :=
  ⟨outpoint.replayKey, did, sats value, .deposit, some outpoint.chain, some outpoint.txid,
    some outpoint.vout, requestId, false, now⟩

theorem sats_nonneg
    (value : Nat) :
    0 ≤ sats value := by
  unfold sats
  omega

/-- A deposit is credited, or changes nothing because a receipt for its outpoint is
held. -/
theorem deposit_cases
    {did : String}
    {outpoint : Outpoint}
    {value : Nat}
    {requestId : Option String}
    {now : Int}
    (allApplied : ledger.AllApplied)
    (batched : ledger.batch (creditBatch did outpoint value requestId now) = some (after, rows)) :
    after = ledger ∨
      (ledger.database.holdsTxo outpoint.txid outpoint.vout = false ∧
        Credited ledger after (depositCredit did outpoint value requestId now)) := by
  unfold creditBatch at batched
  cases held : ledger.database.holdsTxo outpoint.txid outpoint.vout with
  | true =>
      refine Or.inl (unchanged_apply allApplied ?_ batched)
      unfold Ledger.execute
      dsimp only
      rw [held, if_pos rfl]
  | false =>
      have executes : ledger.execute (.journalDeposit outpoint.replayKey did (sats value)
          outpoint.chain outpoint.txid outpoint.vout requestId now) =
            ledger.journal (depositCredit did outpoint value requestId now) := by
        unfold Ledger.execute
        dsimp only
        rw [held, if_neg (by decide)]
        rfl
      have isNew : (depositCredit did outpoint value requestId now).applied = false := rfl
      rcases journal_apply_cases allApplied isNew (sats_nonneg value) executes batched with
        ⟨same, -⟩ | credited
      · exact Or.inl same
      · exact Or.inr ⟨rfl, credited⟩

/-- A job as it is created. -/
def heldJob (jobId requesterDid agentDid endpoint : String) (paramsJson : Option String)
    (estimated held : Nat) (now : Int) (expiresAt : String) : Job :=
  ⟨jobId, requesterDid, agentDid, endpoint, paramsJson, .held, sats estimated, sats held, none, now,
    none, none, none, some expiresAt, none⟩

/-- What the creation of a job leaves. -/
structure Created (before after : Ledger) (job : Job) : Prop where
  fresh : before.database.jobs.find? job.jobId = none
  inserted : before.database.jobs.insert job = some after.database.jobs
  covered : job.heldSats ≤ before.balance job.requesterDid
  balance : ∀ other, after.balance other =
    before.balance other - if job.requesterDid = other then job.heldSats else 0
  credits : after.database.credits = before.database.credits
  movements : after.movements =
    before.movements ++ [.hold job.requesterDid job.jobId job.heldSats]

/-- A job is created and its hold debited, or neither. -/
theorem create_cases
    {jobId requesterDid agentDid endpoint expiresAt : String}
    {paramsJson : Option String}
    {estimated held : Nat}
    {now : Int}
    (batched : ledger.batch (createBatch jobId requesterDid agentDid endpoint paramsJson estimated
      held now expiresAt) = some (after, rows)) :
    after = ledger ∨ Created ledger after (heldJob jobId requesterDid agentDid endpoint paramsJson
      estimated held now expiresAt) := by
  unfold createBatch at batched
  rw [Ledger.batch] at batched
  by_cases covers : ledger.Covers requesterDid (sats held)
  · have funded : ((ledger.database.accounts.find? requesterDid).any fun account =>
        sats held ≤ account.balanceSats) = true := by
      obtain ⟨account, found, enough⟩ := covers
      rw [found, Option.any_some]
      exact decide_eq_true enough
    cases inserted : ledger.database.jobs.insert (heldJob jobId requesterDid agentDid endpoint
        paramsJson estimated held now expiresAt) with
    | none =>
        have fails : ledger.execute (.jobInsertIfFunded jobId requesterDid agentDid endpoint
            paramsJson (sats estimated) (sats held) now expiresAt) = none := by
          unfold Ledger.execute
          dsimp only
          rw [funded, if_pos rfl]
          unfold heldJob at inserted
          rw [inserted]
          rfl
        rw [fails] at batched
        cases batched
    | some jobs =>
        have executed : ledger.execute (.jobInsertIfFunded jobId requesterDid agentDid endpoint
            paramsJson (sats estimated) (sats held) now expiresAt) =
              some (⟨{ ledger.database with jobs := jobs }, ledger.movements⟩, 1) := by
          unfold Ledger.execute
          dsimp only
          rw [funded, if_pos rfl]
          unfold heldJob at inserted
          rw [inserted]
          rfl
        have isThere : ((jobs.find? jobId).any fun job => job.requesterDid == requesterDid) =
            true := by
          have isKey : (heldJob jobId requesterDid agentDid endpoint paramsJson estimated held now
            expiresAt).jobId = jobId := rfl
          rw [Lib.Table.find?_of_insert inserted, if_pos isKey]
          exact beq_self_eq_true requesterDid
        rw [executed] at batched
        dsimp only at batched
        rw [batch_single] at batched
        have stillCovers : (⟨{ ledger.database with jobs := jobs }, ledger.movements⟩ :
            Ledger).Covers requesterDid (sats held) := covers
        obtain ⟨taken, isTaken, effect, -⟩ := takeFrom_taken now
          (.hold requesterDid jobId (sats held)) stillCovers
        have debits : (⟨{ ledger.database with jobs := jobs }, ledger.movements⟩ : Ledger).execute
            (.jobDebitHold (sats held) now requesterDid jobId) = some (taken, 1) := by
          unfold Ledger.execute
          dsimp only
          rw [isThere, isTaken]
        rw [debits] at batched
        cases batched
        refine Or.inr ⟨Lib.Table.find?_eq_none_iff.mpr (Lib.Table.insert_eq_some inserted).1, ?_,
          effect.covered, effect.balance, effect.credits, effect.movements⟩
        rw [inserted, effect.jobs]
  · have executed : ledger.execute (.jobInsertIfFunded jobId requesterDid agentDid endpoint
        paramsJson (sats estimated) (sats held) now expiresAt) = some (ledger, 0) := by
      unfold Ledger.execute
      dsimp only
      rw [if_neg (any_covers_iff.not.mpr covers)]
      rfl
    rw [executed] at batched
    dsimp only at batched
    rw [batch_single] at batched
    have debits : ledger.execute (.jobDebitHold (sats held) now requesterDid jobId) =
        some (ledger, 0) :=
      takeFrom_refused now _ _ fun covered => absurd covered covers
    rw [debits] at batched
    cases batched
    exact Or.inl rfl

/-! ## Transitions of jobs -/

/-- What a change of jobs leaves. -/
structure Changed (before after : Ledger) (condition : Job → Bool) (change : Job → Job) : Prop where
  accounts : after.database.accounts = before.database.accounts
  credits : after.database.credits = before.database.credits
  movements : after.movements = before.movements
  keeps : ∀ job, (change job).jobId = job.jobId
  jobs : after.database.jobs = before.database.jobs.updateWhere condition change keeps

theorem changeJobs_changed
    (ledger : Ledger)
    (condition : Job → Bool)
    (change : Job → Job)
    (keeps : ∀ job, (change job).jobId = job.jobId) :
    ∃ after count, ledger.changeJobs condition change keeps = some (after, count) ∧
      Changed ledger after condition change :=
  ⟨_, _, rfl, rfl, rfl, rfl, keeps, rfl⟩

/-- The row that the release of a job's hold is journalled as. -/
def releaseCredit (job : Job) (requestId : String) (now : Int) : Credit :=
  ⟨releaseRef job.jobId, job.requesterDid, job.heldSats - job.actualSats.getD 0, .jobRelease, none,
    none, none, some requestId, false, now⟩

/-- A job is released by what its transition stamped and has left over. -/
def Job.Releases (job : Job) : Prop :=
  job.releaseRef = some (Pay.releaseRef job.jobId) ∧ 0 < job.heldSats - job.actualSats.getD 0

/-- After its transition a job's hold is released, unless there is nothing to release or
a receipt is held. -/
theorem release_cases
    {jobId requestId : String}
    {now : Int}
    (allApplied : ledger.AllApplied)
    (batched : ledger.batch [.journalRelease jobId (releaseRef jobId) requestId now,
      .applyCredit (releaseRef jobId) now, .markApplied (releaseRef jobId)] = some (after, rows)) :
    (after = ledger ∧ ∀ job, ledger.database.jobs.find? jobId = some job → job.Releases →
        ledger.database.credits.find? (releaseRef jobId) ≠ none) ∨
      ∃ job, ledger.database.jobs.find? jobId = some job ∧ job.Releases ∧
        Credited ledger after (releaseCredit job requestId now) := by
  cases found : ledger.database.jobs.find? jobId with
  | none =>
      have executes : ledger.execute (.journalRelease jobId (releaseRef jobId) requestId now) =
          ledger.unchanged := by
        rw [execute_journalRelease, found]
      exact Or.inl ⟨unchanged_apply allApplied executes batched, by rintro job ⟨⟩⟩
  | some job =>
      obtain ⟨-, rfl⟩ := Lib.Table.find?_eq_some_iff.mp found
      by_cases releases : job.Releases
      · have executes : ledger.execute (.journalRelease job.jobId (releaseRef job.jobId) requestId
            now) = ledger.journal (releaseCredit job requestId now) := by
          unfold Job.Releases at releases
          rw [execute_journalRelease, found]
          dsimp only
          rw [if_pos releases]
          rfl
        have isNew : (releaseCredit job requestId now).applied = false := rfl
        rcases journal_apply_cases allApplied isNew releases.2.le executes batched with
          ⟨same, held⟩ | credited
        · exact Or.inl ⟨same, fun _ _ _ => held⟩
        · exact Or.inr ⟨job, rfl, releases, credited⟩
      · have executes : ledger.execute (.journalRelease job.jobId (releaseRef job.jobId) requestId
            now) = ledger.unchanged := by
          unfold Job.Releases at releases
          rw [execute_journalRelease, found]
          dsimp only
          rw [if_neg releases]
        refine Or.inl ⟨unchanged_apply allApplied executes batched, ?_⟩
        rintro other ⟨⟩ isReleased
        exact absurd isReleased releases

end Kinds

end Pay
end NostrBbs
