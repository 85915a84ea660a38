import NostrBbs.Pay.Batches

/-!
# The pay ledger conserves

Whatever is requested of the pay routes, and however their transactions fail and
interleave, the balance of an account is what was deposited and released to it, less what
it was charged and what its jobs hold.
-/

namespace NostrBbs
namespace Pay

open Lib.Program (call)

/-! ## What an account was given and what was taken from it -/

/-- The applied credits of a kind to an account. -/
def Credit.appliedTo (kind : CreditKind) (did : String) (credit : Credit) : Int :=
  if credit.kind = kind ∧ credit.applied = true ∧ credit.did = did then credit.amountSats else 0

def Job.heldOf (did : String) (job : Job) : Int :=
  if job.requesterDid = did then job.heldSats else 0

def Movement.chargedTo (did : String) : Movement → Int
  | charge account sats => if account = did then sats else 0
  | _ => 0

/-- The credit that a movement applied: its receipt, account and amount. -/
def Movement.applied : Movement → Option (String × String × Int)
  | credit creditRef did sats => some (creditRef, did, sats)
  | _ => none

namespace Ledger

variable (ledger : Ledger)

/-- The applied deposits of an account. -/
def deposits (did : String) : Int :=
  ledger.database.credits.sum (Credit.appliedTo .deposit did)

/-- The applied releases of an account's jobs. -/
def releases (did : String) : Int :=
  ledger.database.credits.sum (Credit.appliedTo .jobRelease did)

/-- What the jobs of an account hold or held. -/
def holds (did : String) : Int :=
  ledger.database.jobs.sum (Job.heldOf did)

/-- What an account was charged for resources. -/
def charges (did : String) : Int :=
  (ledger.movements.map (Movement.chargedTo did)).sum

/-- The accounts and amounts that a receipt was credited to, in order. -/
def creditedBy (creditRef : String) : List (String × Int) :=
  ((ledger.movements.filterMap Movement.applied).filter fun entry => entry.1 == creditRef).map
    Prod.snd

end Ledger

/-- What the release of a job returns: nothing while it is open, the unused hold when it
is settled, and the whole hold when it is cancelled or expired. -/
def Job.returned (job : Job) : Int :=
  match job.status with
  | .held => 0
  | .running => 0
  | .settled => job.heldSats - job.actualSats.getD 0
  | .failed => job.heldSats

/-- What is claimed of a ledger: its balances, and the releases of its jobs. -/
structure Conserves (ledger : Ledger) : Prop where
  balances : ∀ did, ledger.balance did =
    ledger.deposits did - ledger.charges did - ledger.holds did + ledger.releases did
  covered : ∀ did, 0 ≤ ledger.balance did
  released : ∀ job ∈ ledger.database.jobs.rows,
    ledger.creditedBy (releaseRef job.jobId) =
      if 0 < job.returned then [(job.requesterDid, job.returned)] else []

/-! ## The invariant -/

theorem releaseRef_injective
    {first second : String}
    (same : releaseRef first = releaseRef second) :
    first = second := by
  unfold releaseRef at same
  have chars := congrArg String.toList same
  simp only [String.toList_append, List.append_cancel_right_eq, List.append_cancel_left_eq] at chars
  exact String.toList_inj.mp chars

/-- A job and the receipt of its release. -/
structure JobKept (ledger : Ledger) (job : Job) : Prop where
  stamped : job.status = .settled ∨ job.status = .failed →
    job.releaseRef = some (releaseRef job.jobId)
  unstamped : job.status = .held ∨ job.status = .running → job.releaseRef = none
  unused : job.status ≠ .settled → job.actualSats = none
  receipt : (ledger.database.credits.find? (releaseRef job.jobId)).map
      (fun credit => (credit.kind, credit.did, credit.amountSats)) =
    if 0 < job.returned then some (.jobRelease, job.requesterDid, job.returned) else none

/-- The accounts and the journal agree. -/
structure Accounted (ledger : Ledger) : Prop where
  allApplied : ledger.AllApplied
  applications : ledger.movements.filterMap Movement.applied =
    ledger.database.credits.rows.map fun credit =>
      (credit.creditRef, credit.did, credit.amountSats)
  ofJobs : ∀ credit ∈ ledger.database.credits.rows, ∀ jobId,
    credit.creditRef = releaseRef jobId → ∃ job ∈ ledger.database.jobs.rows, job.jobId = jobId
  balances : ∀ did, ledger.balance did =
    ledger.deposits did - ledger.charges did - ledger.holds did + ledger.releases did
  covered : ∀ did, 0 ≤ ledger.balance did

/-- What every transaction keeps. -/
structure Kept (ledger : Ledger) : Prop extends Accounted ledger where
  jobs : ∀ job ∈ ledger.database.jobs.rows, JobKept ledger job

/-- A job is stamped for its release exactly when it has something to return. -/
theorem JobKept.releases_iff
    {ledger : Ledger}
    {job : Job}
    (kept : JobKept ledger job) :
    job.Releases ↔ 0 < job.returned := by
  unfold Job.Releases Job.returned
  cases status : job.status with
  | held =>
      rw [kept.unstamped (Or.inl status)]
      simp
  | running =>
      rw [kept.unstamped (Or.inr status)]
      simp
  | settled =>
      rw [kept.stamped (Or.inl status)]
      simp
  | failed =>
      rw [kept.stamped (Or.inr status), kept.unused (by rw [status]; decide)]
      simp

/-- An empty ledger beside older receipts. -/
theorem kept_opened
    (txoDeposits : Lib.Table TxoDeposit TxoDeposit.key)
    (admins : List String) :
    Kept (Ledger.opened txoDeposits admins) where
  allApplied := by rintro credit ⟨⟩
  applications := rfl
  jobs := by rintro job ⟨⟩
  ofJobs := by rintro credit ⟨⟩
  balances _ := rfl
  covered _ := le_refl 0

/-- The credits to a receipt that is held, read from its row. -/
theorem creditedBy_eq
    {ledger : Ledger}
    (accounted : Accounted ledger)
    (creditRef : String) :
    ledger.creditedBy creditRef =
      ((ledger.database.credits.find? creditRef).map fun credit =>
        (credit.did, credit.amountSats)).toList := by
  have ofRef := ledger.database.credits.filter_key creditRef
  unfold Ledger.creditedBy
  rw [accounted.applications, List.filter_map, List.map_map]
  have sameRows : (ledger.database.credits.rows.filter
      ((fun entry => entry.1 == creditRef) ∘ fun credit : Credit =>
        (credit.creditRef, credit.did, credit.amountSats))) =
          (ledger.database.credits.find? creditRef).toList := by
    rw [← ofRef]
    apply List.filter_congr
    intro credit _
    exact beq_eq_decide _ _
  rw [sameRows]
  cases ledger.database.credits.find? creditRef with
  | none => rfl
  | some credit => rfl

/-- What every transaction keeps is enough for what is claimed. -/
theorem Kept.conserves
    {ledger : Ledger}
    (kept : Kept ledger) :
    Conserves ledger where
  balances := kept.balances
  covered := kept.covered
  released := by
    intro job held
    have receipt := (kept.jobs job held).receipt
    rw [creditedBy_eq kept.toAccounted]
    cases found : ledger.database.credits.find? (releaseRef job.jobId) with
    | none =>
        rw [found] at receipt
        split at receipt
        · cases receipt
        · rename_i nothing
          rw [if_neg nothing]
          rfl
    | some credit =>
        rw [found] at receipt
        split at receipt
        · rename_i something
          rw [if_pos something]
          simp only [Option.map_some, Option.some.injEq, Prod.mk.injEq] at receipt
          rw [Option.map_some, receipt.2.1, receipt.2.2]
          rfl
        · cases receipt

/-! ## What each kind of transaction keeps -/

section Steps

variable {before after : Ledger}

theorem charges_append
    {movements : List Movement}
    (sameMovements : after.movements = before.movements ++ movements)
    (did : String) :
    after.charges did =
      before.charges did + (movements.map (Movement.chargedTo did)).sum := by
  unfold Ledger.charges
  rw [sameMovements, List.map_append, List.sum_append]

/-- A charge that an account covers. -/
theorem Accounted.charged
    (accounted : Accounted before)
    {did : String}
    {sats : Int}
    (taken : Taken before after did sats (.charge did sats)) :
    Accounted after where
  allApplied := by
    unfold Ledger.AllApplied
    rw [taken.credits]
    exact accounted.allApplied
  applications := by
    rw [taken.movements, List.filterMap_append, accounted.applications, taken.credits]
    exact List.append_nil _
  ofJobs := by
    rw [taken.credits, taken.jobs]
    exact accounted.ofJobs
  balances := by
    intro other
    have charged := charges_append taken.movements other
    have sameCharge : ([Movement.charge did sats].map (Movement.chargedTo other)).sum =
        if did = other then sats else 0 := by
      simp [Movement.chargedTo]
    have balanced := accounted.balances other
    have balance := taken.balance other
    unfold Ledger.deposits Ledger.holds Ledger.releases at balanced ⊢
    rw [taken.credits, taken.jobs, balance, charged, sameCharge]
    omega
  covered := by
    intro other
    have balance := taken.balance other
    have before := accounted.covered other
    have enough := taken.covered
    split at balance
    · rename_i isAccount
      rw [← isAccount] at balance ⊢
      omega
    · omega

theorem find?_credited
    {credit : Credit}
    (credited : Credited before after credit)
    (creditRef : String) :
    after.database.credits.find? creditRef =
      if credit.creditRef = creditRef then some { credit with applied := true }
      else before.database.credits.find? creditRef := by
  split
  · rename_i isRef
    rw [Lib.Table.find?_eq_some_iff, credited.rows]
    exact ⟨by simp, isRef⟩
  · rename_i notRef
    unfold Lib.Table.find?
    rw [credited.rows, List.find?_append]
    simp [notRef]

/-- A credit, to an account of its own. -/
theorem Accounted.credited
    (accounted : Accounted before)
    {credit : Credit}
    (credited : Credited before after credit)
    (notNegative : 0 ≤ credit.amountSats)
    (ofJob : ∀ jobId, credit.creditRef = releaseRef jobId →
      ∃ job ∈ before.database.jobs.rows, job.jobId = jobId) :
    Accounted after where
  allApplied := by
    unfold Ledger.AllApplied
    rw [credited.rows]
    intro row member
    rcases List.mem_append.mp member with isOld | isNew
    · exact accounted.allApplied row isOld
    · rw [List.mem_singleton.mp isNew]
  applications := by
    rw [credited.movements, List.filterMap_append, accounted.applications, credited.rows,
      List.map_append]
    rfl
  ofJobs := by
    rw [credited.rows, credited.jobs]
    intro row member
    rcases List.mem_append.mp member with isOld | isNew
    · exact accounted.ofJobs row isOld
    · rw [List.mem_singleton.mp isNew]
      exact ofJob
  balances := by
    intro other
    have charged := charges_append credited.movements other
    have nothing : ([Movement.credit credit.creditRef credit.did credit.amountSats].map
        (Movement.chargedTo other)).sum = 0 := rfl
    have appliedSum : ∀ kind, after.database.credits.sum (Credit.appliedTo kind other) =
        before.database.credits.sum (Credit.appliedTo kind other) +
          if credit.kind = kind ∧ credit.did = other then credit.amountSats else 0 := by
      intro kind
      unfold Lib.Table.sum
      rw [credited.rows, List.map_append, List.sum_append]
      simp [Credit.appliedTo]
    have balanced := accounted.balances other
    have balance := credited.balance other
    unfold Ledger.deposits Ledger.holds Ledger.releases at balanced ⊢
    rw [credited.jobs, balance, charged, nothing, appliedSum, appliedSum]
    cases credit.kind with
    | deposit =>
        simp only [true_and, reduceCtorEq, false_and, if_false]
        omega
    | jobRelease =>
        simp only [true_and, reduceCtorEq, false_and, if_false]
        omega
  covered := by
    intro other
    have before := accounted.covered other
    rw [credited.balance other]
    split
    · omega
    · omega

/-- A job that is created with its hold. -/
theorem Accounted.created
    (accounted : Accounted before)
    {job : Job}
    (created : Created before after job) :
    Accounted after where
  allApplied := by
    unfold Ledger.AllApplied
    rw [created.credits]
    exact accounted.allApplied
  applications := by
    rw [created.movements, List.filterMap_append, accounted.applications, created.credits]
    exact List.append_nil _
  ofJobs := by
    rw [created.credits]
    intro credit held jobId isRef
    obtain ⟨old, oldHeld, isJob⟩ := accounted.ofJobs credit held jobId isRef
    exact ⟨old, (Lib.Table.mem_of_insert created.inserted).mpr (Or.inl oldHeld), isJob⟩
  balances := by
    intro other
    have charged := charges_append created.movements other
    have nothing : ([Movement.hold job.requesterDid job.jobId job.heldSats].map
        (Movement.chargedTo other)).sum = 0 := rfl
    have held : after.holds other = before.holds other + job.heldOf other :=
      Lib.Table.sum_insert created.inserted
    have balanced := accounted.balances other
    have balance := created.balance other
    unfold Job.heldOf at held
    unfold Ledger.deposits Ledger.releases at balanced ⊢
    rw [created.credits, balance, charged, nothing, held]
    omega
  covered := by
    intro other
    have balance := created.balance other
    have before := accounted.covered other
    have enough := created.covered
    split at balance
    · rename_i isAccount
      rw [← isAccount] at balance ⊢
      omega
    · omega

/-- A change of jobs that leaves who requested them and what they hold. -/
theorem Accounted.changed
    (accounted : Accounted before)
    {condition : Job → Bool}
    {change : Job → Job}
    (changed : Changed before after condition change)
    (sameRequester : ∀ job, (change job).requesterDid = job.requesterDid)
    (sameHold : ∀ job, (change job).heldSats = job.heldSats) :
    Accounted after where
  allApplied := by
    unfold Ledger.AllApplied
    rw [changed.credits]
    exact accounted.allApplied
  applications := by
    rw [changed.movements, changed.credits]
    exact accounted.applications
  ofJobs := by
    rw [changed.credits, changed.jobs]
    intro credit held jobId isRef
    obtain ⟨old, oldHeld, isJob⟩ := accounted.ofJobs credit held jobId isRef
    refine ⟨_, Lib.Table.mem_updateWhere.mpr ⟨old, oldHeld, rfl⟩, ?_⟩
    split
    · rw [changed.keeps, isJob]
    · exact isJob
  balances := by
    intro other
    have held : after.holds other = before.holds other := by
      unfold Ledger.holds
      rw [changed.jobs]
      apply Lib.Table.sum_updateWhere
      intro job _ _
      unfold Job.heldOf
      rw [sameRequester, sameHold]
    have balanced := accounted.balances other
    unfold Ledger.balance Database.balance Ledger.deposits Ledger.releases Ledger.charges
      at balanced ⊢
    rw [changed.accounts, changed.credits, changed.movements, held]
    exact balanced
  covered := by
    intro other
    have before := accounted.covered other
    unfold Ledger.balance Database.balance at before ⊢
    rw [changed.accounts]
    exact before

/-- A job is kept by what leaves the journal. -/
theorem JobKept.of_credits
    {job : Job}
    (kept : JobKept before job)
    (sameCredits : after.database.credits = before.database.credits) :
    JobKept after job where
  stamped := kept.stamped
  unstamped := kept.unstamped
  unused := kept.unused
  receipt := by
    rw [sameCredits]
    exact kept.receipt

/-- A job is kept by a credit with another receipt. -/
theorem JobKept.of_other
    {job : Job}
    {credit : Credit}
    (kept : JobKept before job)
    (credited : Credited before after credit)
    (isOther : credit.creditRef ≠ releaseRef job.jobId) :
    JobKept after job where
  stamped := kept.stamped
  unstamped := kept.unstamped
  unused := kept.unused
  receipt := by
    rw [find?_credited credited, if_neg isOther]
    exact kept.receipt

theorem Kept.debited
    (kept : Kept before)
    {cost now : Int}
    {did : String}
    {rows : List Nat}
    (batched : before.batch [.debit cost now did] = some (after, rows)) :
    Kept after := by
  rcases debit_cases batched with rfl | taken
  · exact kept
  · refine ⟨kept.toAccounted.charged taken, ?_⟩
    rw [taken.jobs]
    exact fun job held => (kept.jobs job held).of_credits taken.credits

/-- The receipt of a deposit is no job's. -/
theorem replayKey_ne_releaseRef
    (outpoint : Outpoint)
    (jobId : String) :
    outpoint.replayKey ≠ releaseRef jobId := by
  intro same
  have chars := congrArg String.toList same
  unfold Outpoint.replayKey releaseRef at chars
  simp only [String.toList_append, List.append_assoc] at chars
  have first := (List.append_inj chars rfl).1
  revert first
  decide

theorem Kept.deposited
    (kept : Kept before)
    {did : String}
    {outpoint : Outpoint}
    {value : Nat}
    {requestId : Option String}
    {now : Int}
    {rows : List Nat}
    (batched : before.batch (creditBatch did outpoint value requestId now) = some (after, rows)) :
    Kept after := by
  rcases deposit_cases kept.allApplied batched with rfl | ⟨-, credited⟩
  · exact kept
  · have isOther := replayKey_ne_releaseRef outpoint
    refine ⟨kept.toAccounted.credited credited (sats_nonneg value) ?_, ?_⟩
    · intro jobId isRef
      exact absurd isRef (isOther jobId)
    · rw [credited.jobs]
      exact fun job held => (kept.jobs job held).of_other credited (isOther job.jobId)

theorem Kept.created
    (kept : Kept before)
    {jobId requesterDid agentDid endpoint expiresAt : String}
    {paramsJson : Option String}
    {estimated held : Nat}
    {now : Int}
    {rows : List Nat}
    (batched : before.batch (createBatch jobId requesterDid agentDid endpoint paramsJson estimated
      held now expiresAt) = some (after, rows)) :
    Kept after := by
  rcases create_cases batched with rfl | created
  · exact kept
  · refine ⟨kept.toAccounted.created created, ?_⟩
    intro job member
    rcases (Lib.Table.mem_of_insert created.inserted).mp member with isOld | rfl
    · exact (kept.jobs job isOld).of_credits created.credits
    · have noReceipt : before.database.credits.find? (releaseRef jobId) = none := by
        cases found : before.database.credits.find? (releaseRef jobId) with
        | none => rfl
        | some credit =>
            obtain ⟨creditHeld, isRef⟩ := Lib.Table.find?_eq_some_iff.mp found
            obtain ⟨old, oldHeld, isJob⟩ := kept.ofJobs credit creditHeld jobId isRef
            have absent := Lib.Table.find?_eq_none_iff.mp created.fresh
            exact absurd (List.mem_map.mpr ⟨old, oldHeld, isJob⟩) absent
      refine ⟨?_, fun _ => rfl, fun _ => rfl, ?_⟩
      · rintro (isSettled | isFailed)
        · cases isSettled
        · cases isFailed
      · rw [created.credits]
        unfold heldJob
        dsimp only
        rw [noReceipt]
        rfl

theorem Kept.started
    (kept : Kept before)
    {now : Int}
    {jobId agentDid : String}
    {rows : List Nat}
    (batched : before.batch [.jobStart now jobId agentDid] = some (after, rows)) :
    Kept after := by
  rw [batch_single] at batched
  obtain ⟨started, count, executed, changed⟩ := changeJobs_changed before
    (fun job => job.jobId == jobId && job.status == .held && job.agentDid == agentDid)
    (fun job => { job with status := .running, startedAt := some now }) (fun _ => rfl)
  have executes : before.execute (.jobStart now jobId agentDid) = some (started, count) := executed
  rw [executes] at batched
  cases batched
  refine ⟨kept.toAccounted.changed changed (fun _ => rfl) (fun _ => rfl), ?_⟩
  intro job member
  rw [changed.jobs] at member
  obtain ⟨old, oldHeld, isJob⟩ := Lib.Table.mem_updateWhere.mp member
  have oldKept := (kept.jobs old oldHeld).of_credits changed.credits
  split at isJob
  · rename_i named
    rw [Bool.and_eq_true, Bool.and_eq_true, beq_iff_eq, beq_iff_eq] at named
    have wasHeld := named.1.2
    have receipt := oldKept.receipt
    unfold Job.returned at receipt
    rw [wasHeld] at receipt
    rw [← isJob]
    refine ⟨?_, fun _ => oldKept.unstamped (Or.inl wasHeld),
      fun _ => oldKept.unused (by rw [wasHeld]; decide), receipt⟩
    rintro (isSettled | isFailed)
    · cases isSettled
    · cases isFailed
  · rw [← isJob]
    exact oldKept

/-- A transition that closes one open job, and stamps it for its release. -/
structure Closes (jobId : String) (condition : Job → Bool) (change : Job → Job) : Prop where
  named : ∀ job, condition job = true →
    job.jobId = jobId ∧ (job.status = .held ∨ job.status = .running)
  closed : ∀ job, (change job).status = .settled ∨
    ((change job).status = .failed ∧ (change job).actualSats = job.actualSats)
  stamped : ∀ job, (change job).releaseRef = some (releaseRef jobId)
  requester : ∀ job, (change job).requesterDid = job.requesterDid
  hold : ∀ job, (change job).heldSats = job.heldSats
  keeps : ∀ job, (change job).jobId = job.jobId

/-- A job that was open has no receipt. -/
theorem JobKept.no_receipt
    {job : Job}
    (kept : JobKept before job)
    (isOpen : job.status = .held ∨ job.status = .running) :
    before.database.credits.find? (releaseRef job.jobId) = none := by
  have receipt := kept.receipt
  have nothing : job.returned = 0 := by
    unfold Job.returned
    rcases isOpen with isHeld | isRunning
    · rw [isHeld]
    · rw [isRunning]
  rw [nothing, if_neg (by decide)] at receipt
  exact Option.map_eq_none_iff.mp receipt

/-- A job that is closed is kept when its release has a receipt or there is nothing to
release. -/
theorem JobKept.closed
    {jobId : String}
    {condition : Job → Bool}
    {change : Job → Job}
    (closes : Closes jobId condition change)
    {job : Job}
    (kept : JobKept before job)
    (named : condition job = true)
    (receipt : (after.database.credits.find? (releaseRef jobId)).map
        (fun credit => (credit.kind, credit.did, credit.amountSats)) =
      if 0 < (change job).returned then
        some (.jobRelease, job.requesterDid, (change job).returned) else none) :
    JobKept after (change job) := by
  obtain ⟨isJob, isOpen⟩ := closes.named job named
  have notSettled : job.status ≠ .settled := by
    rcases isOpen with isHeld | isRunning
    · rw [isHeld]
      decide
    · rw [isRunning]
      decide
  refine ⟨?_, ?_, ?_, ?_⟩
  · rw [closes.stamped, closes.keeps, isJob]
    exact fun _ => rfl
  · rcases closes.closed job with isSettled | ⟨isFailed, -⟩
    · rw [isSettled]
      rintro (isHeld | isRunning)
      · cases isHeld
      · cases isRunning
    · rw [isFailed]
      rintro (isHeld | isRunning)
      · cases isHeld
      · cases isRunning
  · intro unsettled
    rcases closes.closed job with isSettled | ⟨-, same⟩
    · exact absurd isSettled unsettled
    · rw [same]
      exact kept.unused notSettled
  · rw [closes.keeps, closes.requester, isJob]
    exact receipt

/-- A job that was closed returns what it holds and did not use. -/
theorem Closes.returned_eq
    {jobId : String}
    {condition : Job → Bool}
    {change : Job → Job}
    (closes : Closes jobId condition change)
    {job : Job}
    (kept : JobKept before job)
    (named : condition job = true) :
    (change job).returned = (change job).heldSats - (change job).actualSats.getD 0 := by
  unfold Job.returned
  rcases closes.closed job with isSettled | ⟨isFailed, same⟩
  · rw [isSettled]
  · have unused : job.actualSats = none := by
      apply kept.unused
      rcases (closes.named job named).2 with isHeld | isRunning
      · rw [isHeld]
        decide
      · rw [isRunning]
        decide
    rw [isFailed, same, unused, Option.getD_none, Int.sub_zero]

/-- A job that was closed is released exactly when it has something to return. -/
theorem Closes.releases_iff
    {jobId : String}
    {condition : Job → Bool}
    {change : Job → Job}
    (closes : Closes jobId condition change)
    {job : Job}
    (kept : JobKept before job)
    (named : condition job = true) :
    (change job).Releases ↔ 0 < (change job).returned := by
  have isStamped : (change job).releaseRef = some (releaseRef (change job).jobId) := by
    rw [closes.stamped, closes.keeps, (closes.named job named).1]
  unfold Job.Releases
  rw [closes.returned_eq kept named]
  exact and_iff_right isStamped

theorem Kept.released
    (kept : Kept before)
    {transition : Stmt}
    {jobId requestId : String}
    {now : Int}
    {condition : Job → Bool}
    {change : Job → Job}
    {rows : List Nat}
    (closes : Closes jobId condition change)
    (executes : before.execute transition = before.changeJobs condition change closes.keeps)
    (batched : before.batch (releaseBatch transition jobId requestId now) = some (after, rows)) :
    Kept after := by
  obtain ⟨closed, count, executed, changed⟩ := changeJobs_changed before condition change closes.keeps
  unfold releaseBatch at batched
  rw [batch_cons (executes.trans executed)] at batched
  obtain ⟨⟨ended, counts⟩, rest, isEnd⟩ := Option.map_eq_some_iff.mp batched
  cases isEnd
  have accounted := kept.toAccounted.changed changed closes.requester closes.hold
  have changedJobs : ∀ job ∈ closed.database.jobs.rows, ∃ old ∈ before.database.jobs.rows,
      (condition old = true ∧ job = change old) ∨ (condition old = false ∧ job = old) := by
    intro job member
    rw [changed.jobs] at member
    obtain ⟨old, oldHeld, isJob⟩ := Lib.Table.mem_updateWhere.mp member
    refine ⟨old, oldHeld, ?_⟩
    cases named : condition old with
    | true =>
        rw [named, if_pos rfl] at isJob
        exact Or.inl ⟨rfl, isJob.symm⟩
    | false =>
        rw [named, if_neg (by decide)] at isJob
        exact Or.inr ⟨rfl, isJob.symm⟩
  rcases release_cases accounted.allApplied rest with ⟨rfl, held⟩ | ⟨job, found, releases, credited⟩
  · refine ⟨accounted, ?_⟩
    intro job member
    obtain ⟨old, oldHeld, ⟨named, rfl⟩ | ⟨-, rfl⟩⟩ := changedJobs job member
    · have oldKept := kept.jobs old oldHeld
      obtain ⟨isJob, isOpen⟩ := closes.named old named
      have isKey : (change old).jobId = jobId := (closes.keeps old).trans isJob
      have noReceipt : ended.database.credits.find? (releaseRef jobId) = none := by
        rw [changed.credits, ← isJob]
        exact oldKept.no_receipt isOpen
      have nothing : ¬0 < (change old).returned := by
        intro something
        have found : ended.database.jobs.find? jobId = some (change old) :=
          Lib.Table.find?_eq_some_iff.mpr ⟨member, isKey⟩
        exact held _ found ((closes.releases_iff oldKept named).mpr something) noReceipt
      apply JobKept.closed closes oldKept named
      rw [noReceipt, if_neg nothing]
      rfl
    · exact (kept.jobs job oldHeld).of_credits changed.credits
  · obtain ⟨jobHeld, isJob⟩ := Lib.Table.find?_eq_some_iff.mp found
    have isReceipt : (releaseCredit job requestId now).creditRef = releaseRef jobId :=
      congrArg releaseRef isJob
    have notNegative : 0 ≤ (releaseCredit job requestId now).amountSats := releases.2.le
    refine ⟨accounted.credited credited notNegative ?_, ?_⟩
    · intro other isRef
      rw [isReceipt] at isRef
      exact ⟨job, jobHeld, isJob.trans (releaseRef_injective isRef)⟩
    · rw [credited.jobs]
      intro other member
      by_cases isOther : other.jobId = jobId
      · have sameJob : other = job :=
          Lib.Table.eq_of_key _ member jobHeld (isOther.trans isJob.symm)
        obtain ⟨old, oldHeld, ⟨named, isChanged⟩ | ⟨-, isOld⟩⟩ := changedJobs job jobHeld
        · have oldKept := kept.jobs old oldHeld
          rw [sameJob, isChanged]
          apply JobKept.closed closes oldKept named
          rw [find?_credited credited, if_pos isReceipt]
          rw [isChanged] at releases ⊢
          rw [if_pos ((closes.releases_iff oldKept named).mp releases),
            closes.returned_eq oldKept named, ← closes.requester]
          rfl
        · have oldKept := kept.jobs job (isOld ▸ oldHeld)
          have something := (oldKept.releases_iff).mp releases
          have receipt := oldKept.receipt
          have fresh := credited.fresh
          rw [isReceipt, changed.credits, ← isJob] at fresh
          rw [fresh, if_pos something] at receipt
          cases receipt
      · have otherKept : JobKept closed other := by
          obtain ⟨old, oldHeld, ⟨named, isChanged⟩ | ⟨-, isOld⟩⟩ := changedJobs other member
          · obtain ⟨isNamed, -⟩ := closes.named old named
            rw [isChanged, closes.keeps] at isOther
            exact absurd isNamed isOther
          · rw [isOld]
            exact (kept.jobs old oldHeld).of_credits changed.credits
        apply otherKept.of_other credited
        rw [isReceipt]
        intro same
        exact isOther (releaseRef_injective same).symm

end Steps

/-! ## The transactions of the pay routes -/

/-- A transaction that a pay route carries out, a deposit only when it may. -/
inductive Routine (deposits : Prop) : List Stmt → Prop where
  | debit (cost now : Int) (did : String) : Routine deposits [.debit cost now did]
  | deposit (did : String) (outpoint : Outpoint) (value : Nat) (requestId : Option String)
      (now : Int) (may : deposits) :
      Routine deposits (creditBatch did outpoint value requestId now)
  | create (jobId requesterDid agentDid endpoint : String) (paramsJson : Option String)
      (estimated held : Nat) (now : Int) (expiresAt : String) :
      Routine deposits (createBatch jobId requesterDid agentDid endpoint paramsJson estimated held now
        expiresAt)
  | start (now : Int) (jobId agentDid : String) : Routine deposits [.jobStart now jobId agentDid]
  | settle (actual now : Int) (jobId agentDid requestId : String) :
      Routine deposits (releaseBatch (.jobSettle actual now jobId agentDid (releaseRef jobId))
        jobId requestId now)
  | cancel (now : Int) (jobId callerDid requestId : String) :
      Routine deposits (releaseBatch (.jobCancel now jobId callerDid (releaseRef jobId)) jobId
        requestId now)
  | expire (now : Int) (jobId requestId : String) :
      Routine deposits (releaseBatch (.jobExpire now jobId (releaseRef jobId)) jobId requestId now)

theorem closes_settle
    (actual now : Int)
    (jobId agentDid : String) :
    Closes jobId
      (fun job => job.jobId == jobId && job.status == .running && job.agentDid == agentDid &&
        actual ≤ job.heldSats)
      (fun job =>
        { job with
          status := .settled, actualSats := some actual, completedAt := some now
          releaseRef := some (releaseRef jobId) }) where
  named := by
    intro job named
    simp only [Bool.and_eq_true, beq_iff_eq] at named
    exact ⟨named.1.1.1, Or.inr named.1.1.2⟩
  closed _ := Or.inl rfl
  stamped _ := rfl
  requester _ := rfl
  hold _ := rfl
  keeps _ := rfl

theorem closes_cancel
    (now : Int)
    (jobId callerDid : String) :
    Closes jobId
      (fun job => job.jobId == jobId && (job.status == .held || job.status == .running) &&
        (job.requesterDid == callerDid || job.agentDid == callerDid))
      (fun job =>
        { job with
          status := .failed, error := some "cancelled", completedAt := some now
          releaseRef := some (releaseRef jobId) }) where
  named := by
    intro job named
    simp only [Bool.and_eq_true, Bool.or_eq_true, beq_iff_eq] at named
    exact named.1
  closed _ := Or.inr ⟨rfl, rfl⟩
  stamped _ := rfl
  requester _ := rfl
  hold _ := rfl
  keeps _ := rfl

theorem closes_expire
    (now : Int)
    (jobId : String) :
    Closes jobId
      (fun job => job.jobId == jobId && (job.status == .held || job.status == .running))
      (fun job =>
        { job with
          status := .failed, error := some "expired", completedAt := some now
          releaseRef := some (releaseRef jobId) }) where
  named := by
    intro job named
    simp only [Bool.and_eq_true, Bool.or_eq_true, beq_iff_eq] at named
    exact named
  closed _ := Or.inr ⟨rfl, rfl⟩
  stamped _ := rfl
  requester _ := rfl
  hold _ := rfl
  keeps _ := rfl

/-- Every transaction of the pay routes keeps the ledger. -/
theorem Kept.routine
    {before after : Ledger}
    (kept : Kept before)
    {deposits : Prop}
    {stmts : List Stmt}
    (routine : Routine deposits stmts)
    {rows : List Nat}
    (batched : before.batch stmts = some (after, rows)) :
    Kept after := by
  cases routine with
  | debit cost now did => exact kept.debited batched
  | deposit did outpoint value requestId now may => exact kept.deposited batched
  | create jobId requesterDid agentDid endpoint paramsJson estimated held now expiresAt =>
      exact kept.created batched
  | start now jobId agentDid => exact kept.started batched
  | settle actual now jobId agentDid requestId =>
      exact kept.released (closes_settle actual now jobId agentDid) rfl batched
  | cancel now jobId callerDid requestId =>
      exact kept.released (closes_cancel now jobId callerDid) rfl batched
  | expire now jobId requestId =>
      exact kept.released (closes_expire now jobId) rfl batched

def Op.isRead : Op → Bool
  | batch _ => false
  | _ => true

/-- The operations of the pay routes: reads, and those transactions. -/
def Op.Routine (deposits : Prop) : Op → Prop
  | batch stmts => Pay.Routine deposits stmts
  | _ => True

theorem Kept.answer
    {ledger : Ledger}
    (kept : Kept ledger)
    {deposits : Prop}
    {op : Op}
    (routine : op.Routine deposits)
    (choice : Choice) :
    Kept (ledger.answer choice op).1 := by
  rcases ledger.answer_ledger choice op with carriedOut | unchanged
  · rw [carriedOut]
    cases op with
    | batch stmts =>
        have isAfter : ledger.after (.batch stmts) =
            ((ledger.batch stmts).map Prod.fst).getD ledger := rfl
        rw [isAfter]
        cases batched : ledger.batch stmts with
        | none => exact kept
        | some result => exact kept.routine routine batched
    | _ => exact kept
  · rw [unchanged]
    exact kept

/-! ## The pay routes -/

section Routes

variable {Value Result : Type} {deposits : Prop}

/-- A program of the pay routes performs their operations only. -/
abbrev Performs (deposits : Prop) (program : PayProgram Result) : Prop :=
  program.Always (Op.Routine deposits)

/-- An operation that is no transaction may be performed. -/
theorem performs_read
    {op : Op}
    {continuation : op.Answer → PayProgram Result}
    (reads : op.isRead = true)
    (rest : ∀ answer, Performs deposits (continuation answer)) :
    Performs deposits (call op >>= continuation) := by
  refine ⟨?_, rest⟩
  cases op with
  | batch stmts => cases reads
  | _ => trivial

theorem performs_batch
    {stmts : List Stmt}
    {continuation : (Op.batch stmts).Answer → PayProgram Result}
    (routine : Routine deposits stmts)
    (rest : ∀ answer, Performs deposits (continuation answer)) :
    Performs deposits (call (Op.batch stmts) >>= continuation) :=
  ⟨routine, rest⟩

theorem performs_done (result : Result) : Performs deposits (.done result) :=
  trivial

theorem Performs.bind
    {program : PayProgram Value}
    {continuation : Value → PayProgram Result}
    (first : Performs deposits program)
    (rest : ∀ value, Performs deposits (continuation value)) :
    Performs deposits (program >>= continuation) :=
  Lib.Program.always_bind first rest

variable (upstream : Upstream)

theorem readBalance_performs (did : String) : Performs deposits (readBalance did) := by
  unfold readBalance
  apply performs_read rfl
  intro answer
  split
  · exact performs_done _
  · exact performs_done _

theorem debit_performs
    (did : String)
    (cost : Nat)
    (now : Int) :
    Performs deposits (debit did cost now) := by
  unfold debit
  apply performs_batch (Routine.debit _ _ _)
  intro changed
  split
  · exact performs_done _
  · apply Performs.bind (readBalance_performs did)
    intro balance
    split
    · exact performs_done _
    · split
      · exact performs_done _
      · exact performs_done _

theorem creditDeposit_performs
    (may : deposits)
    (did : String)
    (outpoint : Outpoint)
    (value : Nat)
    (requestId : Option String)
    (now : Int) :
    Performs deposits (creditDeposit did outpoint value requestId now) := by
  unfold creditDeposit
  apply performs_batch (Routine.deposit _ _ _ _ _ may)
  intro changed
  split
  · exact performs_done _
  · exact performs_done _

theorem creditOutput_performs
    (may : deposits)
    (config : ChainConfig)
    (depositor : Depositor)
    (outpoint : Outpoint)
    (now : Int) :
    Performs deposits (creditOutput config depositor outpoint now) := by
  unfold creditOutput
  apply performs_read rfl
  intro tx
  split
  · exact performs_done _
  · split
    · exact performs_done _
    · apply Performs.bind (creditDeposit_performs may _ _ _ _ _)
      intro credited
      split
      · exact performs_done _
      · exact performs_done _
      · apply Performs.bind (readBalance_performs _)
        intro balance
        split
        · exact performs_done _
        · exact performs_done _

theorem deposit_performs
    (may : deposits)
    (config : PayConfig)
    (depositor : Depositor)
    (body : Pod.Bytes)
    (now : Int) :
    Performs deposits (deposit upstream config depositor body now) := by
  unfold deposit
  split
  · exact performs_done _
  · split
    · exact performs_done _
    · split
      · exact performs_done _
      · split
        · exact performs_done _
        · apply performs_read rfl
          intro credited
          split
          · exact performs_done _
          · exact performs_done _
          · exact creditOutput_performs may _ _ _ _

theorem jobCreate_performs
    (context : PayContext)
    (random : Except String Pod.Bytes)
    (requesterDid : String)
    (body : Pod.Bytes) :
    Performs deposits (jobCreate upstream context random requesterDid body) := by
  unfold jobCreate
  split
  · exact performs_done _
  · split
    · exact performs_done _
    · dsimp only
      split
      · exact performs_done _
      · split
        · exact performs_done _
        · apply performs_batch (Routine.create _ _ _ _ _ _ _ _ _)
          intro changed
          split
          · exact performs_done _
          · split
            · exact performs_done _
            · exact Performs.bind (readBalance_performs _) fun _ => performs_done _

theorem transitionAndRelease_performs
    {transition : Stmt}
    {jobId requestId : String}
    {now : Int}
    (routine : Routine deposits (releaseBatch transition jobId requestId now)) :
    Performs deposits (transitionAndRelease transition jobId requestId now) := by
  unfold transitionAndRelease
  apply performs_batch routine
  intro changed
  split
  · exact performs_done _
  · exact performs_done _

theorem jobStart_performs
    (context : PayContext)
    (agentDid : String)
    (body : Pod.Bytes) :
    Performs deposits (jobStart upstream context agentDid body) := by
  unfold jobStart
  split
  · exact performs_done _
  · apply performs_batch (Routine.start _ _ _)
    intro changed
    split
    · exact performs_done _
    · split
      · exact performs_done _
      · exact performs_done _

theorem jobSettle_performs
    (context : PayContext)
    (agentDid requestId : String)
    (body : Pod.Bytes) :
    Performs deposits (jobSettle upstream context agentDid requestId body) := by
  unfold jobSettle
  split
  · exact performs_done _
  · apply Performs.bind (transitionAndRelease_performs (Routine.settle _ _ _ _ _))
    intro changed
    split
    · exact performs_done _
    · apply performs_read rfl
      intro found
      split
      · exact performs_done _
      · exact performs_done _
      · dsimp only
        split
        · exact performs_done _
        · split
          · exact performs_done _
          · split
            · exact performs_done _
            · exact performs_done _

theorem jobCancel_performs
    (context : PayContext)
    (callerDid requestId : String)
    (body : Pod.Bytes) :
    Performs deposits (jobCancel upstream context callerDid requestId body) := by
  unfold jobCancel
  split
  · exact performs_done _
  · apply Performs.bind (transitionAndRelease_performs (Routine.cancel _ _ _ _))
    intro changed
    split
    · exact performs_done _
    · apply performs_read rfl
      intro found
      split
      · exact performs_done _
      · exact performs_done _
      · split
        · exact performs_done _
        · split
          · exact performs_done _
          · exact performs_done _

theorem expireAll_performs
    (requestId : String)
    (now : Int)
    (jobIds : List String)
    (recovered : Nat) :
    Performs deposits (expireAll requestId now jobIds recovered) := by
  induction jobIds generalizing recovered with
  | nil => exact performs_done _
  | cons jobId jobIds inductionHypothesis =>
      unfold expireAll
      split
      · exact inductionHypothesis recovered
      · apply Performs.bind (transitionAndRelease_performs (Routine.expire _ _ _))
        intro changed
        split
        · exact performs_done _
        · exact inductionHypothesis _

theorem cleanup_performs
    (context : PayContext)
    (caller : Caller) :
    Performs deposits (cleanup context caller) := by
  unfold cleanup
  apply performs_read rfl
  intro isAdmin
  split
  · exact performs_done _
  · exact performs_done _
  · unfold recoverOrphanedJobs
    apply Performs.bind
    · apply performs_read rfl
      intro listed
      split
      · exact performs_done _
      · exact expireAll_performs _ _ _ _
    · intro recovered
      split
      · exact performs_done _
      · exact performs_done _

theorem dispatchPost_performs
    (request : PayRequest)
    (caller : Caller)
    (may : request.payPath = ".deposit" → deposits) :
    Performs deposits (dispatchPost upstream request caller) := by
  unfold dispatchPost
  dsimp only
  split
  · rename_i isDeposit
    unfold depositRoute
    split
    · exact performs_done _
    · split
      · exact performs_done _
      · exact deposit_performs upstream (may isDeposit) _ _ _ _
  · exact performs_done _
  · exact performs_done _
  · exact performs_done _
  · exact jobCreate_performs _ _ _ _ _
  · exact jobStart_performs _ _ _ _
  · exact jobSettle_performs _ _ _ _ _
  · exact jobCancel_performs _ _ _ _ _
  · unfold jobGet
    split
    · exact performs_done _
    · apply performs_read rfl
      intro found
      split
      · exact performs_done _
      · exact performs_done _
      · split
        · exact performs_done _
        · exact performs_done _
  · exact cleanup_performs _ _
  · exact performs_done _

theorem dispatchGet_performs
    (request : PayRequest)
    (caller : Caller) :
    Performs deposits (dispatchGet upstream request caller) := by
  unfold dispatchGet
  dsimp only
  split
  · exact performs_done _
  · unfold balance
    apply Performs.bind (readBalance_performs _)
    intro read
    split
    · exact performs_done _
    · exact performs_done _
  · unfold jobsList
    apply performs_read rfl
    intro listed
    split
    · exact performs_done _
    · exact performs_done _
  · unfold paidResource
    apply Performs.bind (debit_performs _ _ _)
    intro debited
    split
    · exact performs_done _
    · exact performs_done _
    · exact performs_done _

/-- Whatever is requested, only those operations are performed. -/
theorem dispatch_performs
    (request : PayRequest)
    (may : request.payPath = ".deposit" → deposits) :
    Performs deposits (dispatch upstream request) := by
  unfold dispatch
  split
  · exact performs_done _
  · split
    · exact performs_done _
    · split
      · exact dispatchPost_performs _ _ _ may
      · exact dispatchGet_performs _ _ _
      · exact performs_done _

/-- After any moves of the pay routes, whatever their requests are and however their
operations go and interleave, the ledger conserves. -/
theorem conserves_run
    (txoDeposits : Lib.Table TxoDeposit TxoDeposit.key)
    (admins : List String)
    (moves : List Move) :
    Conserves (Lib.run (Routes.step upstream)
      (Lib.Pool.idle (Ledger.opened txoDeposits admins)) moves).state := by
  have follows : ∀ request, (dispatch upstream request).Follows
      (fun (_ : List (Lib.Event Op Choice Op.Answer)) op => op.Routine True) [] :=
    fun request => (dispatch_performs upstream request fun _ => trivial).follows
      fun _ _ routine => routine
  have initially : (fun pool : Routes => Kept pool.state)
      (Lib.Pool.idle (Ledger.opened txoDeposits admins)) := kept_opened txoDeposits admins
  have kept := Lib.Pool.invariant_run follows (fun _ _ kept => kept)
    (fun _ _ choice _ _ _ kept _ _ routine => Kept.answer kept routine choice) initially moves
  exact kept.conserves

end Routes

end Pay
end NostrBbs
