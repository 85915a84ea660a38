import NostrBbs.HouseSeat.PaidOnce
import NostrBbs.Poker.Determined

/-!
# The daily cap

What the house decides to pay fits into what is left of the cap on the day of the decision,
and nothing else is decided until it is carried out.  Nothing is paid yet on a day that has
not begun, so it also fits when midnight passes before it is paid.
-/

namespace NostrBbs
namespace HouseSeat

open Poker (Hand newHand)

/-! ## Hands and their roots -/

/-- A hand that was dealt with the buy-in in the first seat and played by the engine. -/
structure Live.Genuine (live : Live) : Prop where
  played : live.hand.Played
  buyin : (live.hand.seat 0).startStack = live.buyin

/-- The chips that a seat starts with are part of the terms of the hand. -/
theorem startStack_eq_places
    (hand : Hand)
    (index : Nat) :
    (hand.seat index).startStack = ((hand.places[index]?).map Poker.SeatConfig.stack).getD 0 := by
  unfold Hand.places Hand.identities Hand.seat
  rw [List.getElem?_map, List.getElem?_map, List.getD_eq_getElem?_getD]
  cases hand.seats[index]? <;> rfl

/-- Every hand that is dealt and played on the table is genuine. -/
theorem lasting_genuine : Lasting Live.Genuine where
  dealt deal hand deals := by
    have places : hand.places = deal.config.seats :=
      congrArg Poker.HandConfig.seats (Poker.newHand_terms deals)
    refine ⟨.of_dealt deals, ?_⟩
    change (hand.seat 0).startStack = deal.stake.buyin
    rw [startStack_eq_places, places]
    rfl
  moved live action hand genuine accepted := by
    have stepped := Poker.step_terms live.hand action
    rw [Poker.step_of_ok accepted] at stepped
    have places : hand.places = live.hand.places := congrArg Poker.HandConfig.seats stepped
    refine ⟨genuine.played.act accepted, ?_⟩
    rw [← genuine.buyin, startStack_eq_places, startStack_eq_places live.hand]
    exact congrArg (fun places => ((places[0]?).map Poker.SeatConfig.stack).getD 0) places

/-- Different records have different roots. -/
def Setting.RootsApart (setting : Setting) : Prop :=
  ∀ first second root, setting.root first = .ok root → setting.root second = .ok root →
    first = second

/-- An amount is owed for the root of a genuine hand. -/
def Setting.Rooted (setting : Setting) (due : String × Nat) : Prop :=
  ∃ live owing, Live.Genuine live ∧ live.Earned setting owing ∧ owing.due = due

/-- One root stands for one amount. -/
theorem Setting.Rooted.amount_unique
    {setting : Setting}
    (apart : setting.RootsApart)
    {first second : String × Nat}
    (firstRooted : setting.Rooted first)
    (secondRooted : setting.Rooted second)
    (sameRoot : first.1 = second.1) :
    first.2 = second.2 := by
  obtain ⟨live, owing, genuine, ⟨amount, record, recorded, rooted⟩, rfl⟩ := firstRooted
  obtain ⟨other, otherOwing, otherGenuine, ⟨otherAmount, otherRecord, otherRecorded,
    otherIsRooted⟩, rfl⟩ := secondRooted
  change owing.root = otherOwing.root at sameRoot
  rw [← sameRoot] at otherIsRooted
  obtain rfl := apart record otherRecord owing.root rooted otherIsRooted
  obtain ⟨sameStack, sameStart⟩ :=
    Poker.stack_of_record genuine.played otherGenuine.played recorded otherRecorded 0
  change owing.amount = otherOwing.amount
  rw [amount, otherAmount]
  unfold Live.won
  rw [sameStack, ← genuine.buyin, ← otherGenuine.buyin, sameStart]

/-! ## The book of a day -/

namespace Ledger

/-- Base units paid out on a day. -/
def paidOn (ledger : Ledger) (day : Nat) : Nat :=
  ((ledger.paid.find? day).map Prod.snd).getD 0

/-- No day has more paid out than the cap, and none that has not begun has anything. -/
structure Capped (cap today : Nat) (ledger : Ledger) : Prop where
  within : ∀ day, ledger.paidOn day ≤ cap
  noneLater : ∀ day, today < day → ledger.paidOn day = 0

variable {cap today : Nat} {ledger : Ledger}

theorem Capped.later
    (capped : ledger.Capped cap today)
    {day : Nat}
    (goneOn : today ≤ day) :
    ledger.Capped cap day :=
  ⟨capped.within, fun other later => capped.noneLater other (Nat.lt_of_le_of_lt goneOn later)⟩

theorem Capped.of_paid
    (capped : ledger.Capped cap today)
    {other : Ledger}
    (samePaid : other.paid = ledger.paid) :
    other.Capped cap today := by
  have same : other.paidOn = ledger.paidOn := by
    unfold paidOn
    rw [samePaid]
  exact ⟨same ▸ capped.within, same ▸ capped.noneLater⟩

/-- A payment adds the debt that it takes out of the book to what was paid out on its
day. -/
theorem paidOn_housePaid
    (ledger : Ledger)
    (root txid : String)
    (now day : Nat) :
    (ledger.housePaid root txid now).1.paidOn day =
      ledger.paidOn day +
        if day = dayOf now then ((ledger.dues.find? fun due => due.1 == root).map Prod.snd).getD 0
        else 0 := by
  unfold dues housePaid
  rw [List.find?_map]
  have sameCondition :
      ((fun due : String × Nat => due.1 == root) ∘ Owing.due) = fun owing => owing.root == root := by
    funext owing
    rfl
  rw [sameCondition]
  cases ledger.owing.find? fun owing => owing.root == root with
  | none => simp
  | some owing =>
      change (((ledger.paid.put (dayOf now, ledger.paidToday now + owing.amount)).find? day).map
        Prod.snd).getD 0 = ledger.paidOn day + if day = dayOf now then owing.amount else 0
      rw [Lib.Table.find?_put]
      by_cases isDay : day = dayOf now
      · rw [if_pos isDay, if_pos isDay, isDay]
        rfl
      · rw [if_neg isDay, if_neg isDay]
        rfl

end Ledger

/-! ## What is decided -/

namespace World

/-- What the process still has to pay comes to so much. -/
def payingTotal (world : World) : Nat :=
  (world.paying.map Prod.snd).sum

/-- The books keep the cap, what is to be paid fits into the cap of today and of every day
to come, and all that is owed, saved or to be paid is owed for the roots of genuine
hands. -/
structure Capped (setting : Setting) (today : Nat) (world : World) : Prop where
  hands : world.runner.citizen.AllHands Live.Genuine
  book : world.book.Capped setting.cfg.dailyCap today
  saved : world.saved.Capped setting.cfg.dailyCap today
  bookRooted : ∀ due ∈ world.book.dues, setting.Rooted due
  savedRooted : ∀ due ∈ world.saved.dues, setting.Rooted due
  payingRooted : ∀ due ∈ world.paying, setting.Rooted due
  payingFits : ∀ day, today ≤ day →
    world.book.paidOn day + world.payingTotal ≤ setting.cfg.dailyCap

variable {setting : Setting} {buildTransfer : BuildTransfer} {today : Nat} {world : World}

theorem Capped.later
    (capped : world.Capped setting today)
    {day : Nat}
    (goneOn : today ≤ day) :
    world.Capped setting day :=
  { capped with
    book := capped.book.later goneOn
    saved := capped.saved.later goneOn
    payingFits := fun other later => capped.payingFits other (goneOn.trans later) }

/-- What fits into what is left of today's cap fits into the cap of every day to come. -/
theorem fits_of_capLeft
    {ledger : Ledger}
    {cap total : Nat}
    (capped : ledger.Capped cap today)
    (withinLeft : total ≤ cap - ledger.paidOn today)
    (day : Nat)
    (toCome : today ≤ day) :
    ledger.paidOn day + total ≤ cap := by
  have within := capped.within today
  rcases Nat.eq_or_lt_of_le toCome with rfl | later
  · omega
  · rw [capped.noneLater day later]
    omega

/-- A message or a turn of the house decides within what is left of the cap. -/
theorem capped_played
    {now : Nat}
    (capped : world.Capped setting (dayOf now))
    {runner : Runner}
    {outcome : Outcome}
    (settles : Citizen.Settles setting Live.Genuine now world.book outcome)
    (sameCitizen : runner.citizen = outcome.1)
    (sameQueue : runner.queue = outcome.2) :
    (world.played runner).Capped setting (dayOf now) := by
  obtain ⟨hands, samePaid, debts, owing, paid, within, earned⟩ := settles
  have newBook : (world.played runner).book.dues = world.book.dues ++ debts.map Owing.due := by
    change (runner.citizen.ledger.owing).map Owing.due = _
    rw [sameCitizen, owing, List.map_append]
    rfl
  have newPaying : (world.played runner).paying = pays outcome.2 := congrArg pays sameQueue
  have bookPaid : (world.played runner).book.paid = world.book.paid := by
    change runner.citizen.ledger.paid = _
    rw [sameCitizen, samePaid]
  have newCapped := capped.book.of_paid bookPaid
  have debtsRooted : ∀ due ∈ debts.map Owing.due, setting.Rooted due := by
    intro due member
    obtain ⟨debt, isDebt, rfl⟩ := List.mem_map.mp member
    obtain ⟨live, genuine, isEarned⟩ := earned debt isDebt
    exact ⟨live, debt, genuine, isEarned, rfl⟩
  refine ⟨?_, newCapped, capped.saved, ?_, capped.savedRooted, ?_, ?_⟩
  · change runner.citizen.AllHands Live.Genuine
    rw [sameCitizen]
    exact hands
  · intro due member
    rw [newBook] at member
    rcases List.mem_append.mp member with held | added
    · exact capped.bookRooted due held
    · exact debtsRooted due added
  · intro due member
    rw [newPaying] at member
    exact debtsRooted due (paid.subset member)
  · refine fits_of_capLeft newCapped ?_
    unfold payingTotal Ledger.paidOn
    rw [newPaying, bookPaid]
    exact within

/-! ## What is carried out -/

/-- A payment leaves in the book that it was made, or that it failed, and changes nothing
else that is owed, saved or on the table. -/
theorem carryOut_pay_book
    (setting : Setting)
    (buildTransfer : BuildTransfer)
    {hero root : String}
    {amount : Nat}
    {queue : List Effect}
    (isNext : world.runner.queue = .pay hero root amount :: queue)
    (reply : Reply)
    (written : Bool)
    (now : Nat) :
    ((∃ why, (world.carryOut setting buildTransfer reply written now).book =
          world.book.housePayFailed root why now) ∨
        ∃ txid, (world.carryOut setting buildTransfer reply written now).book =
          (world.book.housePaid root txid now).1) ∧
      (world.carryOut setting buildTransfer reply written now).saved = world.saved ∧
      (world.carryOut setting buildTransfer reply written now).paying = pays queue ∧
      (world.carryOut setting buildTransfer reply written now).runner.citizen.hands =
        world.runner.citizen.hands := by
  have samePayment :
      ({ world.runner with queue } : Runner).payment setting buildTransfer hero root amount =
        world.runner.payment setting buildTransfer hero root amount :=
    payment_queue world.runner queue
  have sameSaved :
      (world.carryOut setting buildTransfer reply written now).saved = world.saved := by
    unfold carryOut
    rw [isNext]
    dsimp only
    split
    · split
      · exact saved_accept _ _
      · rfl
    · rfl
  rw [sameSaved]
  unfold carryOut
  rw [isNext]
  dsimp only
  unfold Runner.pay
  rw [samePayment]
  cases world.runner.payment setting buildTransfer hero root amount with
  | error why => exact ⟨.inl ⟨why, rfl⟩, rfl, rfl, rfl⟩
  | ok spend =>
      dsimp only
      cases reply.heard with
      | error why => exact ⟨.inl ⟨why, rfl⟩, rfl, rfl, rfl⟩
      | ok heard =>
          refine ⟨.inr ⟨spend.txid, rfl⟩, rfl, ?_, rfl⟩
          have follow := Citizen.pays_housePaid world.runner.citizen hero root spend.txid now
          change pays (_ ++ queue) = pays queue
          rw [pays_append]
          exact congrArg (· ++ pays queue) follow

/-- A payment that is made or fails fits as it did when it was decided. -/
theorem capped_pay
    {now : Nat}
    (apart : setting.RootsApart)
    (capped : world.Capped setting (dayOf now))
    {hero root : String}
    {amount : Nat}
    {queue : List Effect}
    (isNext : world.runner.queue = .pay hero root amount :: queue)
    (reply : Reply)
    (written : Bool) :
    (world.carryOut setting buildTransfer reply written now).Capped setting (dayOf now) := by
  obtain ⟨newBook, sameSaved, newPaying, sameHands⟩ :=
    carryOut_pay_book setting buildTransfer isNext reply written now
  generalize world.carryOut setting buildTransfer reply written now = next at *
  have wasPaying : world.paying = (root, amount) :: pays queue := by
    unfold paying
    rw [isNext]
    rfl
  have wasTotal : world.payingTotal = amount + next.payingTotal := by
    unfold payingTotal
    rw [wasPaying, newPaying]
    rfl
  have payingRooted : ∀ due ∈ next.paying, setting.Rooted due := by
    intro due member
    refine capped.payingRooted due ?_
    rw [wasPaying, ← newPaying]
    exact List.mem_cons_of_mem _ member
  have hands := capped.hands.of_hands sameHands
  have saved : next.saved.Capped setting.cfg.dailyCap (dayOf now) := sameSaved ▸ capped.saved
  have savedRooted : ∀ due ∈ next.saved.dues, setting.Rooted due := sameSaved ▸ capped.savedRooted
  rcases newBook with ⟨why, isFailed⟩ | ⟨txid, isPaid⟩
  · have sameDues : next.book.dues = world.book.dues := by
      rw [isFailed, Ledger.dues_housePayFailed]
    have samePaid : next.book.paid = world.book.paid := by
      rw [isFailed]
      rfl
    refine ⟨hands, capped.book.of_paid samePaid, saved, sameDues ▸ capped.bookRooted,
      savedRooted, payingRooted, fun day toCome => ?_⟩
    have fits := capped.payingFits day toCome
    have samePaidOn : next.book.paidOn day = world.book.paidOn day := by
      unfold Ledger.paidOn
      rw [samePaid]
    omega
  · -- what is entered for the day is the debt of the root, which is what was paid
    have entered : ∀ day, next.book.paidOn day ≤
        world.book.paidOn day + if day = dayOf now then amount else 0 := by
      intro day
      rw [isPaid, Ledger.paidOn_housePaid]
      by_cases isToday : day = dayOf now
      · rw [if_pos isToday, if_pos isToday]
        cases found : world.book.dues.find? fun due => due.1 == root with
        | none => exact Nat.add_le_add_left (Nat.zero_le _) _
        | some due =>
            have held := List.mem_of_find?_eq_some found
            have named : due.1 = root := by simpa using List.find?_some found
            have isNextPaying : (root, amount) ∈ world.paying := by
              rw [wasPaying]
              exact List.mem_cons_self
            have sameAmount : due.2 = amount := (capped.bookRooted due held).amount_unique apart
              (capped.payingRooted _ isNextPaying) named
            exact Nat.le_of_eq (congrArg (world.book.paidOn day + ·) sameAmount)
      · rw [if_neg isToday, if_neg isToday]
    have fewer : ∀ due ∈ next.book.dues, due ∈ world.book.dues := by
      rw [isPaid]
      rcases world.book.dues_housePaid root txid now with ⟨_, same⟩ | ⟨_, _, erased⟩
      · rw [same]
        exact fun _ held => held
      · rw [erased]
        exact fun _ held => List.mem_of_mem_eraseP held
    refine ⟨hands, ⟨fun day => ?_, fun day later => ?_⟩, saved,
      fun due held => capped.bookRooted due (fewer due held), savedRooted, payingRooted,
      fun day toCome => ?_⟩
    · have added := entered day
      have within := capped.book.within day
      by_cases isToday : day = dayOf now
      · rw [if_pos isToday] at added
        have fits := capped.payingFits day (Nat.le_of_eq isToday.symm)
        omega
      · rw [if_neg isToday] at added
        omega
    · have added := entered day
      have nothing := capped.book.noneLater day later
      rw [if_neg (Nat.ne_of_gt later)] at added
      omega
    · have added := entered day
      have fits := capped.payingFits day toCome
      by_cases isToday : day = dayOf now
      · rw [if_pos isToday] at added
        omega
      · rw [if_neg isToday] at added
        omega

/-- The process moved without a decision or a payment. -/
theorem Capped.of_same
    {next : World}
    (capped : world.Capped setting today)
    (sameHands : next.runner.citizen.hands = world.runner.citizen.hands)
    (sameBook : next.book = world.book)
    (savedFrom : next.saved = world.saved ∨ next.saved = world.book)
    (samePaying : next.paying = world.paying) :
    next.Capped setting today := by
  have saved : next.saved.Capped setting.cfg.dailyCap today ∧
      ∀ due ∈ next.saved.dues, setting.Rooted due := by
    rcases savedFrom with same | same
    · rw [same]
      exact ⟨capped.saved, capped.savedRooted⟩
    · rw [same]
      exact ⟨capped.book, capped.bookRooted⟩
  refine ⟨capped.hands.of_hands sameHands, sameBook ▸ capped.book, saved.1,
    sameBook ▸ capped.bookRooted, saved.2, samePaying ▸ capped.payingRooted, ?_⟩
  unfold payingTotal
  rw [sameBook, samePaying]
  exact capped.payingFits

theorem capped_carryOut
    {now : Nat}
    (apart : setting.RootsApart)
    (capped : world.Capped setting (dayOf now))
    (reply : Reply)
    (written : Bool) :
    (world.carryOut setting buildTransfer reply written now).Capped setting (dayOf now) := by
  cases isQueue : world.runner.queue with
  | nil =>
      unfold carryOut
      rw [isQueue]
      exact capped
  | cons effect queue =>
      have wasPaying : world.paying = effect.due.toList ++ pays queue := by
        unfold paying
        rw [isQueue, pays_cons]
      cases effect with
      | send recipient message =>
          unfold carryOut
          rw [isQueue]
          exact capped.of_same rfl rfl (.inl rfl) wasPaying.symm
      | botTurn commit =>
          unfold carryOut
          rw [isQueue]
          exact capped.of_same rfl rfl (.inl rfl) wasPaying.symm
      | persist =>
          unfold carryOut persist
          rw [isQueue]
          dsimp only
          split
          · exact capped.of_same rfl rfl (.inr rfl) wasPaying.symm
          · exact capped.of_same rfl rfl (.inl rfl) wasPaying.symm
      | pay hero root amount => exact capped_pay apart capped isQueue reply written

/-! ## The chain, the clock and a new process -/

/-- What is due comes to no more than what is left of the cap. -/
theorem total_duePayments
    (now retryAfter : Nat)
    (owings : List Owing)
    (left : Nat) :
    ((pays (Citizen.duePayments now retryAfter owings left)).map Prod.snd).sum ≤ left := by
  induction owings generalizing left with
  | nil => exact Nat.zero_le _
  | cons owing owings inductionHypothesis =>
      unfold Citizen.duePayments
      split
      · exact inductionHypothesis left
      · rename_i isDue
        have rest := inductionHypothesis (left - owing.amount)
        have within : owing.amount ≤ left := by
          by_contra beyond
          exact isDue (.inl (Nat.lt_of_not_le beyond))
        rw [pays_cons]
        change owing.amount + ((pays (Citizen.duePayments now retryAfter owings
          (left - owing.amount))).map Prod.snd).sum ≤ left
        omega

theorem paid_paymentsSeen
    (citizen : Citizen)
    (payments : HandPayments) :
    (citizen.paymentsSeen payments).1.ledger.paid = citizen.ledger.paid ∧
      (citizen.paymentsSeen payments).1.hands = citizen.hands := by
  have noted : ∀ (roots : List String) (ledger : Ledger),
      (roots.foldl Ledger.noteSeen ledger).paid = ledger.paid := by
    intro roots
    induction roots with
    | nil => exact fun _ => rfl
    | cons root roots inductionHypothesis =>
        intro ledger
        refine (inductionHypothesis _).trans ?_
        unfold Ledger.noteSeen
        split <;> rfl
  exact ⟨noted _ _, rfl⟩

theorem citizen_refreshChain
    (runner : Runner)
    (tip : Option String)
    (scanned : Except String Facts)
    (now : Nat) :
    (runner.refreshChain tip scanned now).citizen = runner.citizen ∧
      (runner.refreshChain tip scanned now).queue = runner.queue := by
  unfold Runner.refreshChain
  split
  · exact ⟨rfl, rfl⟩
  · split <;> exact ⟨rfl, rfl⟩

/-- A poll pays nobody by itself, and what it finds due is within what is left of the
cap. -/
theorem onPoll_within
    (setting : Setting)
    (runner : Runner)
    (tip : Option String)
    (scanned : Except String Facts)
    (scannedAt now : Nat) :
    (runner.onPoll setting tip scanned scannedAt now).citizen.ledger.paid =
        runner.citizen.ledger.paid ∧
      (runner.onPoll setting tip scanned scannedAt now).citizen.hands = runner.citizen.hands ∧
      ((pays (runner.onPoll setting tip scanned scannedAt now).queue).map Prod.snd).sum ≤
        setting.cfg.dailyCap - runner.citizen.ledger.paidToday now := by
  obtain ⟨sameCitizen, _⟩ := citizen_refreshChain runner tip scanned scannedAt
  have ticked := Citizen.quiet_tick setting runner.citizen now
  have within : ∀ citizen : Citizen, citizen.ledger.paid = runner.citizen.ledger.paid →
      ((pays (citizen.payable setting now payRetrySecs)).map Prod.snd).sum ≤
        setting.cfg.dailyCap - runner.citizen.ledger.paidToday now := by
    intro citizen samePaid
    have due := total_duePayments now payRetrySecs citizen.ledger.owing
      (citizen.capLeft setting now)
    unfold Citizen.capLeft Ledger.paidToday at due
    unfold Citizen.payable Citizen.capLeft Ledger.paidToday
    rw [samePaid] at due ⊢
    exact due
  unfold Runner.onPoll
  dsimp only
  rw [sameCitizen]
  cases (runner.refreshChain tip scanned scannedAt).facts with
  | none =>
      refine ⟨rfl, rfl, ?_⟩
      rw [pays_append, pays_append, ticked.2]
      exact within _ rfl
  | some facts =>
      have seen := Citizen.quiet_paymentsSeen (runner.citizen.tick setting now).1
        facts.handPayments
      obtain ⟨samePaid, sameHands⟩ := paid_paymentsSeen (runner.citizen.tick setting now).1
        facts.handPayments
      refine ⟨samePaid, sameHands, ?_⟩
      rw [pays_append, pays_append, ticked.2, seen.2]
      exact within _ samePaid

theorem capped_poll
    {now : Nat}
    (capped : world.Capped setting (dayOf now))
    (tip : Option String)
    (scanned : Except String Facts)
    (scannedAt : Nat) :
    ({ world with runner := world.runner.onPoll setting tip scanned scannedAt now } :
      World).Capped setting (dayOf now) := by
  obtain ⟨sameDues, due⟩ := onPoll_pays setting world.runner tip scanned scannedAt now
  obtain ⟨samePaid, sameHands, within⟩ :=
    onPoll_within setting world.runner tip scanned scannedAt now
  have newBook : (world.runner.onPoll setting tip scanned scannedAt
      now).citizen.ledger.Capped setting.cfg.dailyCap (dayOf now) :=
    capped.book.of_paid samePaid
  refine ⟨capped.hands.of_hands sameHands, newBook, capped.saved, ?_, capped.savedRooted, ?_, ?_⟩
  · intro owed member
    exact capped.bookRooted owed (sameDues ▸ member)
  · intro owed member
    exact capped.bookRooted owed (due.subset member)
  · refine fits_of_capLeft newBook ?_
    unfold Ledger.paidOn book
    dsimp only
    rw [samePaid]
    exact within

theorem capped_restart
    (capped : world.Capped setting today)
    (tip : Option String)
    (scanned : Except String Facts)
    (written : Bool)
    (now : Nat) :
    (world.restart tip scanned written now).Capped setting today := by
  obtain ⟨sameCitizen, sameQueue⟩ := citizen_refreshChain
    (Runner.start world.saved world.runner.citizen.drawn) tip scanned now
  have started : ({ world with
      runner := (Runner.start world.saved world.runner.citizen.drawn).refreshChain tip scanned
        now } : World).Capped setting today := by
    refine ⟨?_, ?_, capped.saved, ?_, capped.savedRooted, ?_, ?_⟩
    · unfold Citizen.AllHands
      dsimp only
      rw [sameCitizen]
      rintro _ _ ⟨⟩
    · unfold book
      dsimp only
      rw [sameCitizen]
      exact capped.saved
    · unfold book
      dsimp only
      rw [sameCitizen]
      exact capped.savedRooted
    · unfold paying
      dsimp only
      rw [sameQueue]
      exact fun _ member => absurd member List.not_mem_nil
    · intro day _
      unfold payingTotal paying book
      dsimp only
      rw [sameQueue, sameCitizen]
      exact capped.saved.within day
  unfold restart persist
  dsimp only
  split
  · exact started.of_same rfl rfl (.inr rfl) rfl
  · exact started

end World

/-! ## The clock -/

/-- What happens, at another time. -/
def Happening.atTime (now : Nat) : Happening → Happening
  | .message member sent _ => .message member sent now
  | .botTurn _ => .botTurn now
  | .poll tip scanned scannedAt _ => .poll tip scanned scannedAt now
  | .effect reply written _ => .effect reply written now
  | .restart tip scanned written _ => .restart tip scanned written now

/-- The process under a clock. -/
structure Timed where
  clock : Nat
  world : World

namespace Timed

variable (setting : Setting) (buildTransfer : BuildTransfer)

/-- A first process, started from a book at a time. -/
def begin (ledger : Ledger) (clock : Nat) : Timed :=
  ⟨clock, .begin ledger⟩

/-- Time goes on, by no seconds or by days, and then something happens. -/
def step (timed : Timed) (event : Nat × Happening) : Timed :=
  let clock := timed.clock + event.1
  ⟨clock, timed.world.step setting buildTransfer (event.2.atTime clock)⟩

/-- On no day does the book, or the file that it is saved in, have more paid out than the
daily cap. -/
def WithinCap (timed : Timed) : Prop :=
  ∀ now, timed.world.book.paidToday now ≤ setting.cfg.dailyCap ∧
    timed.world.saved.paidToday now ≤ setting.cfg.dailyCap

variable {setting buildTransfer}

theorem capped_step
    (apart : setting.RootsApart)
    (timed : Timed)
    (event : Nat × Happening)
    (capped : timed.world.Capped setting (dayOf timed.clock)) :
    (timed.step setting buildTransfer event).world.Capped setting
      (dayOf (timed.step setting buildTransfer event).clock) := by
  obtain ⟨wait, happening⟩ := event
  have goneOn : dayOf timed.clock ≤ dayOf (timed.clock + wait) :=
    Nat.div_le_div_right (Nat.le_add_right _ _)
  have now := capped.later goneOn
  unfold step
  dsimp only
  cases happening with
  | effect reply written at_ => exact World.capped_carryOut apart now reply written
  | restart tip scanned written at_ =>
      exact World.capped_restart now tip scanned written (timed.clock + wait)
  | message member message at_ =>
      unfold World.step Happening.atTime
      dsimp only
      split
      · exact World.capped_played now (Citizen.settles_handle lasting_genuine now.hands member
          message (timed.clock + wait) _) rfl rfl
      · exact now
  | botTurn at_ =>
      unfold World.step Happening.atTime Runner.onBotTurn
      dsimp only
      split
      · rename_i idle
        split
        · have nothing : Citizen.Settles setting Live.Genuine (timed.clock + wait)
              timed.world.book (timed.world.runner.citizen, []) :=
            Citizen.settles_of_same now.hands rfl rfl rfl
          exact World.capped_played now nothing rfl (List.isEmpty_iff.mp idle)
        · exact World.capped_played now (Citizen.settles_botTurn lasting_genuine now.hands _
            (timed.clock + wait)) rfl rfl
      · exact now
  | poll tip scanned scannedAt at_ =>
      unfold World.step Happening.atTime
      dsimp only
      split
      · exact World.capped_poll now tip scanned scannedAt
      · exact now

theorem capped_begin
    (setting : Setting)
    (clock : Nat) :
    (World.begin Ledger.empty).Capped setting (dayOf clock) := by
  have nothing : Ledger.empty.Capped setting.cfg.dailyCap (dayOf clock) :=
    ⟨fun _ => Nat.zero_le _, fun _ _ => rfl⟩
  refine ⟨?_, nothing, nothing, ?_, ?_, ?_, fun _ _ => Nat.zero_le _⟩
  · rintro _ _ ⟨⟩
  · exact fun _ member => absurd member List.not_mem_nil
  · exact fun _ member => absurd member List.not_mem_nil
  · exact fun _ member => absurd member List.not_mem_nil

/-- Whatever happens to the house's process, and whenever, it has on no day paid out more
than the daily cap. -/
theorem withinCap_run
    (setting : Setting)
    (buildTransfer : BuildTransfer)
    (apart : setting.RootsApart)
    (clock : Nat)
    (events : List (Nat × Happening)) :
    Lib.Visits (step setting buildTransfer) (WithinCap setting) (begin Ledger.empty clock)
      events := by
  rw [Lib.visits_iff_prefixes]
  intro taken _ now
  have kept : (Lib.run (step setting buildTransfer) (begin Ledger.empty clock)
      taken).world.Capped setting
        (dayOf (Lib.run (step setting buildTransfer) (begin Ledger.empty clock) taken).clock) :=
    Lib.invariant_run (capped_step apart) (capped_begin setting clock) taken
  exact ⟨kept.book.within (dayOf now), kept.saved.within (dayOf now)⟩

end Timed

/-! ## A payment after midnight -/

namespace Sample

/-- The record of the hand in which a member wins the blinds of the house. -/
def wonBlinds : Poker.HandRecord where
  context := some Poker.recordContext
  kind := "Hand"
  v := 0
  variant := .holdemLimit
  seed := "a3c719732d2b2fdc1e753ebd35aa85335bd339d554768d4849be7563618ad216"
  sb := 10
  bb := 20
  ante := 0
  button := 0
  seats := [⟨alice, 2000, some ["Qd", "8d"], none⟩, ⟨house, 2000, some ["9d", "Ah"], none⟩]
  board := []
  actions := [.act 0 .raise (some 40) none, .act 1 .fold none none]
  result := ⟨false, 40, [⟨0, 40⟩]⟩

/-- The house, with the root of that record. -/
def rootsOne : Setting :=
  { setting with
    root := fun record =>
      if record = wonBlinds then .ok root else .error "the root of another record" }

theorem rootsOne_apart : rootsOne.RootsApart := by
  have only : ∀ record name, rootsOne.root record = .ok name → record = wonBlinds := by
    intro record name rooted
    by_contra other
    have refused : rootsOne.root record = .error "the root of another record" := if_neg other
    rw [refused] at rooted
    cases rooted
  intro first second name firstRooted secondRooted
  rw [only first name firstRooted, only second name secondRooted]

/-- A member wins the blinds a minute before midnight, and is paid after it. -/
def paidAfterMidnight : List (Nat × Happening) :=
  (winsBlinds .accepted).take 10 |>.map (fun happening => (1, happening)) |>.append
    [(60, .effect .accepted true 0), (0, .effect .accepted true 0), (0, .effect .accepted true 0)]

end Sample

theorem withinCap_run_midnight :
    Lib.Visits (Timed.step Sample.rootsOne Sample.firstCoin) (Timed.WithinCap Sample.rootsOne)
        (Timed.begin Ledger.empty 86340) Sample.paidAfterMidnight ∧
      (Lib.run (Timed.step Sample.rootsOne Sample.firstCoin) (Timed.begin Ledger.empty 86340)
        Sample.paidAfterMidnight).world.saved.paidToday 86400 = 20 :=
  ⟨Timed.withinCap_run _ _ Sample.rootsOne_apart _ _, by decide +kernel⟩

end HouseSeat
end NostrBbs
