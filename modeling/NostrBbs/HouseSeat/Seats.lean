import NostrBbs.HouseSeat.Grace
import NostrBbs.HouseSeat.Runner

/-!
# Everyone at the door

A member who sits or accepts is asked at the door when the hand is dealt.  A challenger
was asked when the challenge was made, and is not asked again.
-/

namespace NostrBbs
namespace HouseSeat

open Poker (Digest)

namespace World

open Citizen (Dealt)
open Watched (unasked)

variable (setting : Setting) (buildTransfer : BuildTransfer)

/-! ## Every seat -/

/-- The hand that a happening deals, if any. -/
def dealBy (world : World) : Happening → Option Dealt
  | .message member message now =>
      if world.runner.queue.isEmpty then
        world.runner.citizen.dealBy setting
          (.message member message now (world.runner.balancesFor member))
      else none
  | _ => none

/-- The door would not refuse a member the stake of a hand at the moment it is dealt. -/
def Passes (world : World) (dealt : Dealt) (member : String) : Prop :=
  world.runner.citizen.refusal setting member dealt.deal.stake.buyin
    (world.runner.balancesFor member).heroAsset dealt.now = none

/-- When a hand is dealt, the door would refuse no member in it. -/
def EverySeatPasses (world : World) (happening : Happening) : Prop :=
  ∀ dealt ∈ world.dealBy setting happening, ∀ member ∈ dealt.deal.members setting,
    world.Passes setting dealt member

/-- When a challenge is accepted, the door would not refuse the challenger. -/
def ChallengerPasses (world : World) (happening : Happening) : Prop :=
  ∀ dealt ∈ world.dealBy setting happening, ∀ challenger ∈ unasked dealt.deal,
    world.Passes setting dealt challenger

instance (world : World) (dealt : Dealt) (member : String) :
    Decidable (world.Passes setting dealt member) :=
  inferInstanceAs (Decidable (_ = none))

instance (world : World) (happening : Happening) :
    Decidable (world.EverySeatPasses setting happening) :=
  inferInstanceAs (Decidable (∀ dealt ∈ world.dealBy setting happening, _))

variable {setting} {world : World} {happening : Happening} {dealt : Dealt}

/-- A member of a hand that is dealt would not be refused, or is its challenger. -/
theorem passes_or_unasked
    (isDealt : world.dealBy setting happening = some dealt)
    {member : String}
    (isMember : member ∈ dealt.deal.members setting) :
    world.Passes setting dealt member ∨ unasked dealt.deal = some member := by
  unfold dealBy at isDealt
  split at isDealt
  · split at isDealt
    · obtain ⟨⟨_, sameTime⟩, ⟨commit, bb, next, passed⟩ | ⟨commit, next, passed⟩⟩ :=
        Citizen.dealBy_message_cases isDealt
      · left
        unfold Passes
        rw [passed.mem_members isMember, sameTime]
        exact passed.unrefused
      · rcases passed.mem_members isMember with isAcceptor | isChallenger
        · left
          unfold Passes
          rw [isAcceptor, sameTime]
          exact passed.unrefused
        · right
          unfold unasked
          rw [passed.house, isChallenger]
          rfl
    · cases isDealt
  · cases isDealt

/-- The challenger is a member of the hand. -/
theorem mem_members_of_unasked
    {deal : Citizen.Deal}
    {challenger : String}
    (isUnasked : unasked deal = some challenger) :
    challenger ∈ deal.members setting := by
  unfold unasked at isUnasked
  split at isUnasked
  · cases isUnasked
  · rename_i betweenMembers
    obtain rfl := Option.some.inj isUnasked
    unfold Citizen.Deal.members
    simp [betweenMembers]

theorem everySeatPasses_iff_challengerPasses
    (world : World)
    (happening : Happening) :
    world.EverySeatPasses setting happening ↔ world.ChallengerPasses setting happening := by
  refine forall_congr' fun dealt => forall_congr' fun isDealt => ?_
  constructor
  · intro everyone challenger isUnasked
    exact everyone challenger (mem_members_of_unasked (Option.mem_def.mp isUnasked))
  · intro challenger member isMember
    rcases passes_or_unasked (Option.mem_def.mp isDealt) isMember with passes | isUnasked
    · exact passes
    · exact challenger member (Option.mem_def.mpr isUnasked)

/-- Along every run the door would refuse nobody in a hand at the moment it is dealt,
exactly when it would refuse no challenger at the moment the challenge is accepted. -/
theorem everySeatPasses_iff
    (setting : Setting)
    (buildTransfer : BuildTransfer)
    (start : World)
    (happenings : List Happening) :
    Lib.Along (step setting buildTransfer) (EverySeatPasses setting) start happenings ↔
      Lib.Along (step setting buildTransfer) (ChallengerPasses setting) start happenings := by
  have same : EverySeatPasses setting = ChallengerPasses setting := by
    funext world happening
    exact propext (everySeatPasses_iff_challengerPasses world happening)
  rw [same]

end World

/-! ## A challenger in debt -/

namespace Sample

def thirdSecret : String :=
  "0000000000000000000000000000000000000000000000000000000000000003"

def thirdCommit : String :=
  "ac7edb97166f7d682720aca18fea15cdd5d15242dad38297a48633a806236c4f"

/-- The commitments to three secrets and the seeds of the hands dealt with two. -/
def threeSecrets : Digest :=
  .ofTable
    [(firstSecret, firstCommit), (secondSecret, secondCommit), (thirdSecret, thirdCommit),
      (secondSecret ++ firstNonce ++ secondNonce,
        "f45fe5371415131414cdfb4a7854dae55e568fa2ff09500e8ad7461ff16925dd"),
      (thirdSecret ++ firstNonce,
        "a4e6f90bfe39f75bfd76a84078dc1f2cee265797f85c451afeffc85d681428f4")]
    (by decide +kernel)

def dealer : Setting :=
  { setting with
    digest := threeSecrets
    secrets := fun index =>
      if index = 0 then firstSecret else if index = 1 then secondSecret else thirdSecret }

/-- Every member is rich. -/
def everyoneRich : Facts where
  coins := [⟨⟨"treasury", 0⟩, 20000⟩]
  unitsOf _ := 10000
  handPayments _ _ := none
  txids := ["treasury"]

def carriedOut (count now : Nat) : List Happening :=
  List.replicate count (.effect .accepted true now)

/-- A member challenges another, loses the small blind to the house, and is dealt the
hand of the challenge with that debt. -/
def challengesThenLoses : List Happening :=
  [.restart (some "first") (.ok everyoneRich) true 999, .message bob (.hello 1) 1000] ++
    carriedOut 1 1000 ++
    [.message alice (.challenge 1 bob 20 firstNonce) 1001] ++ carriedOut 2 1001 ++
    [.message alice (.hello 1) 1002] ++ carriedOut 1 1002 ++
    [.message alice (.sit 1 thirdCommit .dream 20 firstNonce) 1003] ++ carriedOut 1 1003 ++
    [.message alice (.act thirdCommit ⟨0, .fold, none⟩) 1004] ++ carriedOut 3 1004 ++
    [.message bob (.accept secondCommit secondNonce) 1005]

end Sample

/-- A challenger who owes for a hand is dealt the hand of the challenge. -/
theorem challenger_in_debt_is_dealt :
    ¬Lib.Along (World.step Sample.dealer fun _ _ => .error "no coin")
      (World.EverySeatPasses Sample.dealer) (World.begin Ledger.empty)
      Sample.challengesThenLoses := by
  decide +kernel

end HouseSeat
end NostrBbs
