import NostrBbs.HouseSeat.Door
import NostrBbs.Lib.Run
import NostrBbs.Poker.Transcript

/-!
# Covering the house's hands

Before the house is dealt a hand, its balance less what it owes is compared with
the buy-in.  The buy-ins of the house's other hands in play are not held back, so
that the balance covers all of them only as long as it also covers those.
-/

namespace NostrBbs
namespace HouseSeat

open Poker (Digest)

namespace Citizen

variable (setting : Setting)

/-! ## House hands -/

/-- The buy-ins of the house's hands in play. -/
def houseStakes (citizen : Citizen) : Nat :=
  ((citizen.hands.rows.filter fun entry => entry.2.house && entry.2.hand.inPlay).map
    fun entry => entry.2.buyin).sum

/-- When the house is dealt a hand, the balance it was last seen with covers what it
owes, the buy-ins of its hands in play and this one. -/
def Solvent (citizen : Citizen) (input : Input) : Prop :=
  ∀ dealt ∈ citizen.dealBy setting input, dealt.deal.house →
    citizen.ledger.owingTotal + citizen.houseStakes + dealt.deal.stake.buyin ≤
      dealt.balances.houseAsset

/-- When the house is dealt a hand while it has others in play, what it does not owe
of its balance also covers their buy-ins. -/
def CoversOthers (citizen : Citizen) (input : Input) : Prop :=
  ∀ dealt ∈ citizen.dealBy setting input, dealt.deal.house → 0 < citizen.houseStakes →
    citizen.houseStakes ≤
      dealt.balances.houseAsset - citizen.ledger.owingTotal - dealt.deal.stake.buyin

instance (citizen : Citizen) (input : Input) : Decidable (citizen.Solvent setting input) :=
  inferInstanceAs (Decidable (∀ dealt ∈ citizen.dealBy setting input, _ → _ ≤ _))

/-- The house covers the hand that it is dealt, beside what it owes. -/
theorem covered_of_dealBy
    {citizen : Citizen}
    {input : Input}
    {dealt : Dealt}
    (isDealt : citizen.dealBy setting input = some dealt)
    (againstHouse : dealt.deal.house) :
    citizen.ledger.owingTotal + dealt.deal.stake.buyin ≤ dealt.balances.houseAsset := by
  rcases dealBy_cases isDealt with ⟨member, commit, bb, next, passed⟩ | ⟨_, _, _, passed⟩
  · have covered := passed.covered
    have positive := Setting.stakeFor_pos passed.stake
    omega
  · rw [passed.house] at againstHouse
    cases againstHouse

theorem solvent_iff_coversOthers
    (citizen : Citizen)
    (input : Input) :
    citizen.Solvent setting input ↔ citizen.CoversOthers setting input := by
  refine forall_congr' fun dealt => forall_congr' fun isDealt =>
    forall_congr' fun againstHouse => ?_
  have covered := covered_of_dealBy setting (Option.mem_def.mp isDealt) againstHouse
  constructor
  · intro solvent _
    omega
  · intro covers
    rcases Nat.eq_zero_or_pos citizen.houseStakes with none | some
    · omega
    · have others := covers some
      omega

/-- Along every run the house's balance covers all of its hands whenever it is dealt
one, exactly when it covers the others in play whenever there are any. -/
theorem solvent_iff
    (start : Citizen)
    (inputs : List Input) :
    Lib.Along (step setting) (Solvent setting) start inputs ↔
      Lib.Along (step setting) (CoversOthers setting) start inputs := by
  have same : Solvent setting = CoversOthers setting := by
    funext citizen input
    exact propext (solvent_iff_coversOthers setting citizen input)
  rw [same]

end Citizen

/-! ## Two hands on one buy-in -/

namespace Sample

def firstSecret : String :=
  "0000000000000000000000000000000000000000000000000000000000000001"

def secondSecret : String :=
  "0000000000000000000000000000000000000000000000000000000000000002"

def firstNonce : String :=
  "0000000000000000000000000000000000000000000000000000000000001001"

def secondNonce : String :=
  "0000000000000000000000000000000000000000000000000000000000001002"

def firstCommit : String :=
  "c386d8e8d07342f2e39e189c8e6c57bb205bb373fe4e3a6f69404a8bb767b417"

def secondCommit : String :=
  "68e4d75d23e31bd23f43266f769567b2588d9f3d3010fa7cacae7efd6f5ce0ad"

/-- The commitments to two secrets and the seeds that two nonces fix with them. -/
def digest : Digest :=
  .ofTable
    [(firstSecret, firstCommit), (secondSecret, secondCommit),
      (firstSecret ++ firstNonce,
        "a3c719732d2b2fdc1e753ebd35aa85335bd339d554768d4849be7563618ad216"),
      (secondSecret ++ secondNonce,
        "d0db0d9a745defda1a37ca714b3fe2e08258250eac8501cf44f416ac86ca6461")]
    (by decide +kernel)

def house : String :=
  "cccccccccccccccccccccccccccccccccccccccccccccccccccccccccccccccc"

def alice : String :=
  "aaaaaaaaaaaaaaaaaaaaaaaaaaaaaaaaaaaaaaaaaaaaaaaaaaaaaaaaaaaaaaaa"

def bob : String :=
  "bbbbbbbbbbbbbbbbbbbbbbbbbbbbbbbbbbbbbbbbbbbbbbbbbbbbbbbbbbbbbbbb"

/-- A table at 10/20 with a buy-in of 2000 and half an hour of grace. -/
def setting : Setting where
  cfg :=
    { stakesBb := [20]
      buyinBb := 100
      profile := "tag"
      dailyCap := 20000
      claimGraceSecs := 1800
      ticker := "DREAM" }
  house := ⟨house, "5120" ++ house⟩
  digest := digest
  root _ := .ok "dddddddddddddddddddddddddddddddddddddddddddddddddddddddddddddddd"
  secrets index := if index = 0 then firstSecret else secondSecret

/-- Every member is rich and the house holds one buy-in. -/
def balances : Balances :=
  ⟨10000, 2000⟩

/-- Two members ask for an offer and sit. -/
def twoSit : List Citizen.Input :=
  [.message alice (.hello 1) 1000 balances,
    .message alice (.sit 1 firstCommit .dream 20 firstNonce) 1001 balances,
    .message bob (.hello 1) 1002 balances,
    .message bob (.sit 1 secondCommit .dream 20 secondNonce) 1003 balances]

end Sample

/-- The house, with the balance of one buy-in, is dealt a hand by each of two members. -/
theorem two_hands_on_one_buyin :
    ¬Lib.Along (Citizen.step Sample.setting) (Citizen.Solvent Sample.setting)
      (Citizen.new Ledger.empty) Sample.twoSit := by
  decide +kernel

end HouseSeat
end NostrBbs
