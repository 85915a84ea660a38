import NostrBbs.HouseSeat.Solvency

/-!
# The grace of a claimed debt

A member who reports a payment may play on until the grace is over.  The book keeps
the last report only, so that reporting again starts the grace anew, and a challenger
is not asked again when the challenge is accepted.  When a debt was first reported is
watched beside the house seat.
-/

namespace NostrBbs
namespace HouseSeat

/-! ## First reports -/

/-- Whose debt for which hand. -/
def Owed.key (owed : Owed) : String × String :=
  (owed.hero, owed.root)

/-- When the unpaid debts were first reported paid. -/
abbrev FirstReports := List ((String × String) × Nat)

/-- The first reports of the debts that a book still holds. -/
def FirstReports.update (reports : FirstReports) (ledger : Ledger) : FirstReports :=
  ledger.owed.filterMap fun owed =>
    owed.claimed.map fun claimed =>
      (owed.key, (reports.lookup owed.key).getD claimed.reportedAt)

/-- The house seat, watched for first reports. -/
structure Watched where
  citizen : Citizen
  reports : FirstReports

namespace Watched

open Citizen (Deal Dealt Input)

variable (setting : Setting)

/-- A house seat whose watch begins. -/
def begin (citizen : Citizen) : Watched :=
  ⟨citizen, FirstReports.update [] citizen.ledger⟩

def step (watched : Watched) (input : Input) : Watched :=
  let next := watched.citizen.step setting input
  ⟨next, watched.reports.update next.ledger⟩

/-- A member's debts to the house that were first reported paid longer ago than the
grace. -/
def expired (watched : Watched) (member : String) (now : Nat) : List Owed :=
  watched.citizen.ledger.owed.filter fun owed =>
    owed.hero == member && owed.creditor == setting.house.pubkey &&
      (watched.reports.lookup owed.key).any fun first =>
        setting.cfg.claimGraceSecs < now - first

/-- Nobody is dealt a hand with an expired debt. -/
def NoneExpired (watched : Watched) (input : Input) : Prop :=
  ∀ dealt ∈ watched.citizen.dealBy setting input, ∀ member ∈ dealt.deal.members setting,
    watched.expired setting member dealt.now = []

/-- The report of a debt that the book holds is not the first one. -/
def renewed (watched : Watched) (owed : Owed) : Bool :=
  owed.claimed.any fun claimed => watched.reports.lookup owed.key != some claimed.reportedAt

/-- The member that is dealt a hand without being asked for debts: the challenger. -/
def unasked (deal : Deal) : Option String :=
  if deal.house then none else some deal.seats.1

/-- When a hand is dealt, no debt that was reported again is expired, and no debt of a
challenger is. -/
def NoneRenewedExpired (watched : Watched) (input : Input) : Prop :=
  ∀ dealt ∈ watched.citizen.dealBy setting input, ∀ member ∈ dealt.deal.members setting,
    ∀ owed ∈ watched.expired setting member dealt.now,
      watched.renewed owed = false ∧ unasked dealt.deal ≠ some member

instance (watched : Watched) (input : Input) : Decidable (watched.NoneExpired setting input) :=
  inferInstanceAs (Decidable (∀ dealt ∈ watched.citizen.dealBy setting input, _))

/-- A member who is asked for debts has no expired one, unless it was reported again. -/
theorem renewed_of_expired
    {watched : Watched}
    {member : String}
    {buyin held now : Nat}
    (unrefused : watched.citizen.refusal setting member buyin held now = none)
    {owed : Owed}
    (isExpired : owed ∈ watched.expired setting member now) :
    watched.renewed owed = true := by
  unfold expired at isExpired
  rw [List.mem_filter, Bool.and_eq_true, Bool.and_eq_true, beq_iff_eq, beq_iff_eq] at isExpired
  obtain ⟨held, ⟨isMember, _⟩, late⟩ := isExpired
  obtain ⟨first, isFirst, tooLong⟩ := (Option.any_eq_true _ _).mp late
  have inTime := (Citizen.refusal_eq_none_iff.mp unrefused).1 owed held isMember
  unfold Citizen.overdue at inTime
  unfold renewed
  cases claimed : owed.claimed with
  | none =>
      rw [claimed] at inTime
      cases inTime
  | some report =>
      rw [claimed] at inTime
      simp only [decide_eq_true_eq, decide_eq_false_iff_not] at inTime tooLong
      have different : first ≠ report.reportedAt := by
        rintro rfl
        exact inTime tooLong
      simpa [isFirst] using different

theorem noneExpired_iff_noneRenewedExpired
    (watched : Watched)
    (input : Input) :
    watched.NoneExpired setting input ↔ watched.NoneRenewedExpired setting input := by
  refine forall_congr' fun dealt => forall_congr' fun isDealt =>
    forall_congr' fun member => forall_congr' fun isMember => ?_
  constructor
  · intro noneExpired owed isExpired
    rw [noneExpired] at isExpired
    cases isExpired
  · intro noneRenewed
    apply List.eq_nil_iff_forall_not_mem.mpr
    intro owed isExpired
    obtain ⟨notRenewed, asked⟩ := noneRenewed owed isExpired
    -- everyone but the challenger is asked for debts before the deal
    have wasAsked : ∃ buyin held,
        watched.citizen.refusal setting member buyin held dealt.now = none := by
      rcases Citizen.dealBy_cases (Option.mem_def.mp isDealt) with
        ⟨sitter, commit, bb, next, passed⟩ | ⟨acceptor, commit, next, passed⟩
      · rw [passed.mem_members isMember]
        exact ⟨_, _, passed.unrefused⟩
      · rcases passed.mem_members isMember with isAcceptor | isChallenger
        · rw [isAcceptor]
          exact ⟨_, _, passed.unrefused⟩
        · refine absurd ?_ asked
          unfold unasked
          rw [passed.house, isChallenger]
          rfl
    obtain ⟨buyin, held, unrefused⟩ := wasAsked
    have isRenewed := renewed_of_expired setting unrefused isExpired
    rw [notRenewed] at isRenewed
    cases isRenewed

/-- Along every run nobody is dealt a hand with an expired debt, exactly when no
expired debt of a player dealt in was reported again or is the challenger's. -/
theorem noneExpired_iff
    (start : Citizen)
    (inputs : List Input) :
    Lib.Along (step setting) (NoneExpired setting) (begin start) inputs ↔
      Lib.Along (step setting) (NoneRenewedExpired setting) (begin start) inputs := by
  have same : NoneExpired setting = NoneRenewedExpired setting := by
    funext watched input
    exact propext (noneExpired_iff_noneRenewedExpired setting watched input)
  rw [same]

end Watched

/-! ## Reporting again -/

namespace Sample

def funded : Balances :=
  ⟨10000, 20000⟩

def root : String :=
  "dddddddddddddddddddddddddddddddddddddddddddddddddddddddddddddddd"

def txid : String :=
  "eeeeeeeeeeeeeeeeeeeeeeeeeeeeeeeeeeeeeeeeeeeeeeeeeeeeeeeeeeeeeeee"

/-- A member folds the small blind, reports it paid, reports it again half an hour
later, and sits. -/
def reportsAgain : List Citizen.Input :=
  [.message alice (.hello 1) 1000 funded,
    .message alice (.sit 1 firstCommit .dream 20 firstNonce) 1001 funded,
    .message alice (.act firstCommit ⟨0, .fold, none⟩) 1002 funded,
    .message alice (.paid root txid) 1100 funded,
    .message alice (.paid root txid) 3000 funded,
    .message alice (.sit 1 secondCommit .dream 20 secondNonce) 3001 funded]

end Sample

/-- A member who never paid is dealt another hand after the grace. -/
theorem reported_again_then_dealt :
    ¬Lib.Along (Watched.step Sample.setting) (Watched.NoneExpired Sample.setting)
      (Watched.begin (Citizen.new Ledger.empty)) Sample.reportsAgain := by
  decide +kernel

end HouseSeat
end NostrBbs
