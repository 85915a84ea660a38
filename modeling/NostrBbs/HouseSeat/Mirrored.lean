import NostrBbs.HouseSeat.Consistency

/-!
# Two sides of one settlement

A hand for two seats is settled from each seat's own stack.  The chips of the hand are
those of the two buy-ins, so both sides find one transfer, and the house's book has it as
one debt.
-/

namespace NostrBbs
namespace HouseSeat

open Poker (Action Hand HandConfig SeatConfig newHand)

/-! ## Transfers -/

/-- A transfer as the other side sees it. -/
def Settlement.exchanged (transfer : Settlement) : Settlement :=
  ⟨transfer.payee, transfer.payer, transfer.amount⟩

/-- The seat of a side, from seat 0's side of the settlement. -/
def Side.seat : Side → Nat
  | .hero => heroSeat
  | .citizen => houseSeat

/-- A transfer makes up for a hand: its payer's net loss and its payee's net gain are its
amount. -/
structure Settlement.MakesUp (transfer : Settlement) (hand : Hand) (buyin : Nat) : Prop where
  otherSide : transfer.payer ≠ transfer.payee
  positive : 0 < transfer.amount
  withinBuyin : transfer.amount ≤ buyin
  lost : (hand.seat transfer.payer.seat).stack + transfer.amount = buyin
  gained : (hand.seat transfer.payee.seat).stack = buyin + transfer.amount

/-- Both sides of a hand settle it, and find one transfer that makes up for it, or that
none is owed. -/
structure Mirrored (hand : Hand) (buyin : Nat) (settled : Option Settlement) : Prop where
  first : settlement true (hand.seat heroSeat).stack buyin = .ok settled
  second : settlement true (hand.seat houseSeat).stack buyin =
    .ok (settled.map Settlement.exchanged)
  makesUp : ∀ transfer ∈ settled, transfer.MakesUp hand buyin
  even : settled = none →
    (hand.seat heroSeat).stack = buyin ∧ (hand.seat houseSeat).stack = buyin

/-- Stacks that are the two buy-ins settle alike from either side. -/
theorem mirrored_of_bothStacks
    {hand : Hand}
    {buyin : Nat}
    (positive : 0 < buyin)
    (bothStacks : (hand.seat heroSeat).stack + (hand.seat houseSeat).stack = 2 * buyin) :
    ∃ settled, Mirrored hand buyin settled := by
  have first := settlement_eq positive bothStacks
  have second := settlement_eq positive ((Nat.add_comm _ _).trans bothStacks)
  by_cases lost : 0 < (hand.seat houseSeat).stack - buyin
  · rw [if_pos lost] at first
    rw [if_neg (by omega), if_pos lost] at second
    refine ⟨some ⟨.hero, .citizen, _⟩, first, second, ?_, by rintro ⟨⟩⟩
    rintro _ ⟨⟩
    refine ⟨Side.noConfusion, lost, ?_, ?_, ?_⟩
    · change (hand.seat houseSeat).stack - buyin ≤ buyin
      omega
    · change (hand.seat heroSeat).stack + ((hand.seat houseSeat).stack - buyin) = buyin
      omega
    · change (hand.seat houseSeat).stack = buyin + ((hand.seat houseSeat).stack - buyin)
      omega
  · rw [if_neg lost] at first
    by_cases won : 0 < (hand.seat heroSeat).stack - buyin
    · rw [if_pos won] at first second
      refine ⟨some ⟨.citizen, .hero, _⟩, first, second, ?_, by rintro ⟨⟩⟩
      rintro _ ⟨⟩
      refine ⟨Side.noConfusion, won, ?_, ?_, ?_⟩
      · change (hand.seat heroSeat).stack - buyin ≤ buyin
        omega
      · change (hand.seat houseSeat).stack + ((hand.seat heroSeat).stack - buyin) = buyin
        omega
      · change (hand.seat heroSeat).stack = buyin + ((hand.seat heroSeat).stack - buyin)
        omega
    · rw [if_neg won] at first second
      rw [if_neg lost] at second
      refine ⟨none, first, second, ?_, fun _ => ?_⟩
      · rintro _ ⟨⟩
      · omega

/-! ## The book -/

/-- The debt of a transfer's payer to its payee. -/
def Live.debtOf (live : Live) (root : String) (transfer : Settlement) : Obligation :=
  ⟨live.player transfer.payer.seat, live.player transfer.payee.seat, root, transfer.amount⟩

/-- The book gains the debts of a settlement and no others. -/
def Records (setting : Setting) (before after : Ledger) (live : Live) (root : String)
    (settled : Option Settlement) : Prop :=
  ∃ owed owing, after.owed = before.owed ++ owed ∧ after.owing = before.owing ++ owing ∧
    owed.map Owed.obligation ++ owing.map (Owing.obligation setting.house.pubkey) =
      settled.toList.map (live.debtOf root)

/-- What the two stacks of a hand oblige its players to is the transfer that its sides
find. -/
theorem Mirrored.obligations
    {live : Live}
    {settled : Option Settlement}
    (mirrored : Mirrored live.hand live.buyin settled)
    (root : String) :
    live.obligations root = settled.toList.map (live.debtOf root) := by
  unfold Live.obligations Live.won
  cases settled with
  | none =>
      obtain ⟨first, second⟩ := mirrored.even rfl
      change (live.hand.seat 0).stack = live.buyin at first
      change (live.hand.seat 1).stack = live.buyin at second
      rw [if_neg (by omega), if_neg (by omega)]
      rfl
  | some transfer =>
      obtain ⟨otherSide, positive, _, lost, gained⟩ := mirrored.makesUp transfer rfl
      obtain ⟨payer, payee, amount⟩ := transfer
      cases payer with
      | hero =>
          cases payee with
          | hero => exact absurd rfl otherSide
          | citizen =>
              change (live.hand.seat 1).stack = live.buyin + amount at gained
              have won : (live.hand.seat 1).stack - live.buyin = amount := by omega
              rw [won, if_pos positive]
              rfl
      | citizen =>
          cases payee with
          | citizen => exact absurd rfl otherSide
          | hero =>
              change (live.hand.seat 1).stack + amount = live.buyin at lost
              change (live.hand.seat 0).stack = live.buyin + amount at gained
              have won : (live.hand.seat 0).stack - live.buyin = amount := by omega
              rw [if_neg (by omega), won, if_pos positive]
              rfl

/-- The record of a hand can be rooted, and settling the hand records its transfer. -/
def Citizen.RecordsTransfer (setting : Setting) (citizen : Citizen) (commit : String) (live : Live)
    (now : Nat) (settled : Option Settlement) : Prop :=
  ∃ record root, Poker.recordOf live.hand (some [live.seats.1, live.seats.2]) = some record ∧
    setting.root record = .ok root ∧
    Records setting citizen.ledger (citizen.settle setting commit now).1.ledger live root settled

/-- Settling a hand records its transfer when the record of the hand can be rooted, and
leaves the book as it was when not. -/
def Citizen.RecordsIfRooted (setting : Setting) (citizen : Citizen) (commit : String) (live : Live)
    (now : Nat) (settled : Option Settlement) : Prop :=
  ∃ record, Poker.recordOf live.hand (some [live.seats.1, live.seats.2]) = some record ∧
    (∀ root, setting.root record = .ok root →
      Records setting citizen.ledger (citizen.settle setting commit now).1.ledger live root
        settled) ∧
    ∀ why, setting.root record = .error why →
      (citizen.settle setting commit now).1.ledger = citizen.ledger

/-- A seat with no chips sits out, so two seats that are dealt a hand have some. -/
theorem buyin_pos
    {config : HandConfig}
    {dealt : Hand}
    {buyin : Nat}
    (atBuyin : config.seats.map SeatConfig.stack = [buyin, buyin])
    (accepted : newHand config = .ok dealt) :
    0 < buyin := by
  obtain ⟨deck, _, enough, _⟩ := Poker.newHand_ok accepted
  rw [Poker.length_dealtIn] at enough
  have someSeat : 0 < (config.table deck).seats.countP Poker.Seat.inHand := by omega
  obtain ⟨_, member, inHand⟩ := List.countP_pos_iff.mp someSeat
  obtain ⟨seatConfig, isSeat, rfl⟩ := List.mem_map.mp member
  have atStack : seatConfig.stack ∈ config.seats.map SeatConfig.stack :=
    List.mem_map_of_mem isSeat
  rw [atBuyin] at atStack
  have isBuyin : seatConfig.stack = buyin := by simpa using atStack
  have hasChips : seatConfig.stack ≠ 0 := by
    intro noChips
    simp [Poker.Seat.inHand, SeatConfig.seat, noChips] at inHand
  omega

/-- A run keeps the seats of a hand. -/
theorem length_seats_run
    (dealt : Hand)
    (actions : List Action) :
    (Lib.run Poker.step dealt actions).seats.length = dealt.seats.length := by
  have kept : ∀ (hand : Hand) (action : Action), hand.seats.length = dealt.seats.length →
      (Poker.step hand action).seats.length = dealt.seats.length := by
    intro hand action same
    unfold Poker.step
    split
    · rename_i accepted
      exact (Poker.sameTable_act accepted).length_seats.trans same
    · exact same
  exact Lib.invariant_run kept rfl actions

/-- However a hand for two seats with the buy-in each ends, both sides settle it alike, and
the house's book gains its transfer as one debt when its record can be rooted. -/
theorem settlements_mirror
    (setting : Setting)
    (config : HandConfig)
    (dealt : Hand)
    (buyin : Nat)
    (actions : List Action)
    (atBuyin : config.seats.map SeatConfig.stack = [buyin, buyin])
    (accepted : newHand config = .ok dealt)
    (isOver : (Lib.run Poker.step dealt actions).inPlay = false) :
    ∃ settled, Mirrored (Lib.run Poker.step dealt actions) buyin settled ∧
      ∀ (citizen : Citizen) (commit : String) (live : Live) (now : Nat),
        citizen.hand commit = some live → live.hand = Lib.run Poker.step dealt actions →
          live.buyin = buyin → (live.house = true → live.seats.2 = setting.house.pubkey) →
            citizen.RecordsIfRooted setting commit live now settled := by
  have positive := buyin_pos atBuyin accepted
  have twoSeats : (Lib.run Poker.step dealt actions).seats.length = 2 := by
    rw [length_seats_run, Poker.length_seats_newHand accepted, ← List.length_map, atBuyin]
    rfl
  have chips : (Lib.run Poker.step dealt actions).Conserving (2 * buyin) := by
    have atDeal := Poker.conserving_newHand accepted
    have total : [buyin, buyin].sum = 2 * buyin := by
      simp only [List.sum_cons, List.sum_nil]
      omega
    rw [atBuyin, total] at atDeal
    exact Lib.invariant_run Poker.conserving_step atDeal actions
  obtain ⟨settled, mirrored⟩ :=
    mirrored_of_bothStacks positive (bothStacks_of_over twoSeats chips isOver)
  refine ⟨settled, mirrored, ?_⟩
  rintro citizen commit live now stored isHand rfl houseSeated
  rw [← isHand] at mirrored twoSeats chips isOver
  have sound : live.Sound setting := ⟨houseSeated, positive, twoSeats, chips⟩
  obtain ⟨record, isRecord, enters, unentered⟩ :=
    Citizen.enteredIfRooted_settle stored sound isOver now
  refine ⟨record, isRecord, fun root rooted => ?_, unentered⟩
  obtain ⟨owed, owing, isOwed, isOwing, debts⟩ := (enters root rooted).debts
  exact ⟨owed, owing, isOwed, isOwing, debts.trans (mirrored.obligations root)⟩

/-! ## A lost blind -/

namespace Sample

/-- A hand against the house with a buy-in of two big blinds. -/
def blindsDeal (bb : Nat) : Citizen.Deal where
  commit := firstCommit
  seats := (alice, setting.house.pubkey)
  house := true
  secret := ""
  nonces := []
  seed := Poker.headsUpTable.seedHex
  stake := ⟨bb, bb / 2, 2 * bb, ""⟩
  button := 0

/-- The small blind is folded. -/
def folds : List Action :=
  [⟨0, .fold, none⟩]

/-- A house seat that holds one hand. -/
def holding (deal : Citizen.Deal) (hand : Hand) : Citizen :=
  { Citizen.new Ledger.empty with
    hands := Lib.Table.empty.put (deal.commit, deal.live hand) }

end Sample

/-- The transfer of a hand whose record cannot be rooted is not recorded. -/
theorem unrooted_transfer_is_not_recorded :
    ∃ dealt, newHand (Sample.blindsDeal (2 ^ 53)).config = .ok dealt ∧
      (Lib.run Poker.step dealt Sample.folds).inPlay = false ∧
      ∀ settled, ¬(Sample.holding (Sample.blindsDeal (2 ^ 53))
          (Lib.run Poker.step dealt Sample.folds)).RecordsTransfer Sample.highStakes
        Sample.firstCommit
        ((Sample.blindsDeal (2 ^ 53)).live (Lib.run Poker.step dealt Sample.folds)) 1000
        settled := by
  have facts : ((newHand (Sample.blindsDeal (2 ^ 53)).config).toOption.any fun dealt =>
      !(Lib.run Poker.step dealt Sample.folds).inPlay &&
        (Poker.recordOf (Lib.run Poker.step dealt Sample.folds)
          (some [Sample.alice, Sample.setting.house.pubkey])).all fun record =>
            !(Sample.highStakes.root record).isOk) = true := by
    decide +kernel
  cases outcome : newHand (Sample.blindsDeal (2 ^ 53)).config with
  | error refusal =>
      rw [outcome] at facts
      cases facts
  | ok dealt =>
      rw [outcome] at facts
      obtain ⟨isOver, unrooted⟩ := (Bool.and_eq_true _ _).mp facts
      refine ⟨dealt, rfl, by simpa using isOver, ?_⟩
      rintro settled ⟨record, root, isRecord, rooted, _⟩
      change Poker.recordOf (Lib.run Poker.step dealt Sample.folds)
        (some [Sample.alice, Sample.setting.house.pubkey]) = some record at isRecord
      rw [isRecord] at unrooted
      change (!(Sample.highStakes.root record).isOk) = true at unrooted
      rw [rooted] at unrooted
      cases unrooted

/-- A member who folds the small blind owes it to the house. -/
theorem settlements_mirror_folded :
    ∃ dealt, newHand (Sample.blindsDeal 20).config = .ok dealt ∧
      ∃ settled, Mirrored (Lib.run Poker.step dealt Sample.folds) 40 settled ∧
        (Sample.holding (Sample.blindsDeal 20)
            (Lib.run Poker.step dealt Sample.folds)).RecordsIfRooted Sample.setting
          Sample.firstCommit
          ((Sample.blindsDeal 20).live (Lib.run Poker.step dealt Sample.folds)) 1000 settled := by
  have facts : ((newHand (Sample.blindsDeal 20).config).toOption.any fun dealt =>
      !(Lib.run Poker.step dealt Sample.folds).inPlay) = true := by
    decide +kernel
  cases outcome : newHand (Sample.blindsDeal 20).config with
  | error refusal =>
      rw [outcome] at facts
      cases facts
  | ok dealt =>
      rw [outcome] at facts
      change (!(Lib.run Poker.step dealt Sample.folds).inPlay) = true at facts
      have isOver : (Lib.run Poker.step dealt Sample.folds).inPlay = false := by
        simpa using facts
      obtain ⟨settled, mirrored, records⟩ := settlements_mirror Sample.setting
        (Sample.blindsDeal 20).config dealt 40 Sample.folds rfl outcome isOver
      exact ⟨dealt, rfl, settled, mirrored,
        records _ Sample.firstCommit _ 1000 rfl rfl rfl fun _ => rfl⟩

end HouseSeat
end NostrBbs
