import NostrBbs.HouseSeat.Grace
import NostrBbs.HouseSeat.Payouts

/-!
# Paying a hand once

The house knows of a payment only what its book says.  As long as it hears of every
transfer that the producer accepts, and is not started again from a book that still
owes what was paid since, a hand is paid at most what is owed for it.
-/

namespace NostrBbs
namespace HouseSeat

open Lib (tally)

/-- A hand's root and what was transferred for it. -/
def Transfer.due (transfer : Transfer) : String × Nat :=
  (transfer.root, transfer.amount)

namespace World

variable (setting : Setting) (buildTransfer : BuildTransfer)

/-! ## The claim and its condition -/

/-- What the producer accepted, by hands. -/
def transferred (world : World) : List (String × Nat) :=
  world.accepted.map Transfer.due

/-- What the house ever owed, by hands. -/
def everOwed (world : World) : List (String × Nat) :=
  world.booked.map Owing.due

/-- For no hand did the producer accept more than the house owed. -/
def PaysAtMostOwed (world : World) : Prop :=
  ∀ root, tally world.transferred root ≤ tally world.everOwed root

/-- Debts booked for one root are of one amount. -/
def OneAmount (world : World) : Prop :=
  ∀ first ∈ world.everOwed, ∀ second ∈ world.everOwed, first.1 = second.1 → first.2 = second.2

/-- The saved book owes for no hand more than the process knows to be owed. -/
def SavedIsPaidUp (world : World) : Prop :=
  ∀ due ∈ world.saved.dues, tally world.saved.dues due.1 ≤ tally world.book.dues due.1

/-- No answer to a transfer that was accepted is lost, and no process is started from a
book that owes what was paid since. -/
def Remembers (world : World) : Happening → Prop
  | .effect (.lost _) _ _ => world.posts setting buildTransfer = none
  | .restart _ _ _ _ => world.SavedIsPaidUp
  | _ => True

/-- What happens leaves the house with what it paid in its book. -/
def KeepsCount (world : World) (happening : Happening) : Prop :=
  world.OneAmount ∧ world.Remembers setting buildTransfer happening

instance (world : World) : Decidable world.OneAmount :=
  inferInstanceAs (Decidable (∀ first ∈ world.everOwed, ∀ second ∈ world.everOwed, _ → _))

instance (world : World) : Decidable world.SavedIsPaidUp :=
  inferInstanceAs (Decidable (∀ due ∈ world.saved.dues, _ ≤ _))

instance (world : World) :
    ∀ happening, Decidable (world.Remembers setting buildTransfer happening)
  | .effect (.lost _) _ _ =>
      inferInstanceAs (Decidable (world.posts setting buildTransfer = none))
  | .effect .accepted _ _ => isTrue trivial
  | .effect (.refused _) _ _ => isTrue trivial
  | .effect (.unreached _) _ _ => isTrue trivial
  | .restart _ _ _ _ => inferInstanceAs (Decidable world.SavedIsPaidUp)
  | .message _ _ _ => isTrue trivial
  | .botTurn _ => isTrue trivial
  | .poll _ _ _ _ => isTrue trivial

instance (world : World) (happening : Happening) :
    Decidable (world.KeepsCount setting buildTransfer happening) :=
  inferInstanceAs (Decidable (_ ∧ _))

/-! ## The invariant -/

/-- What the process still has to pay. -/
def paying (world : World) : List (String × Nat) :=
  pays world.runner.queue

/-- What is owed, saved or about to be paid was once booked; what is about to be paid is
owed; and what was transferred with what is still owed is within what was booked. -/
structure Kept (world : World) : Prop where
  owedBooked : world.book.dues ⊆ world.everOwed
  savedBooked : world.saved.dues ⊆ world.everOwed
  payingBooked : world.paying ⊆ world.everOwed
  payingOwed : ∀ root, tally world.paying root ≤ tally world.book.dues root
  covered : ∀ root,
    tally world.transferred root + tally world.book.dues root ≤ tally world.everOwed root

theorem Kept.paysAtMostOwed
    {world : World}
    (kept : world.Kept) :
    world.PaysAtMostOwed := by
  intro root
  have covered := kept.covered root
  omega

theorem kept_begin
    (ledger : Ledger) :
    (begin ledger).Kept where
  owedBooked := List.Subset.refl _
  savedBooked := List.Subset.refl _
  payingBooked := List.nil_subset _
  payingOwed _ := Nat.zero_le _
  covered _ := Nat.le_of_eq (Nat.zero_add _)

/-- The process moved without a payment: the book owes what it owed, and what is to be
paid next is part of it. -/
theorem Kept.of_same
    {world next : World}
    (kept : world.Kept)
    (sameBook : next.book.dues = world.book.dues)
    (sameAccepted : next.accepted = world.accepted)
    (sameBooked : next.booked = world.booked)
    (savedFrom : next.saved.dues = world.saved.dues ∨ next.saved.dues = world.book.dues)
    (payingLess : next.paying.Sublist world.paying ∨ next.paying.Sublist world.book.dues) :
    next.Kept := by
  have sameOwed : next.everOwed = world.everOwed := congrArg (List.map Owing.due) sameBooked
  have sameTransferred : next.transferred = world.transferred :=
    congrArg (List.map Transfer.due) sameAccepted
  refine ⟨?_, ?_, ?_, ?_, ?_⟩
  · rw [sameBook, sameOwed]
    exact kept.owedBooked
  · rw [sameOwed]
    rcases savedFrom with same | same
    · rw [same]
      exact kept.savedBooked
    · rw [same]
      exact kept.owedBooked
  · rw [sameOwed]
    rcases payingLess with less | less
    · exact List.Subset.trans less.subset kept.payingBooked
    · exact List.Subset.trans less.subset kept.owedBooked
  · intro root
    rw [sameBook]
    rcases payingLess with less | less
    · exact (Lib.tally_le_of_sublist less root).trans (kept.payingOwed root)
    · exact Lib.tally_le_of_sublist less root
  · intro root
    rw [sameBook, sameOwed, sameTransferred]
    exact kept.covered root

/-! ## What each happening keeps -/

/-- A message or a turn of the house books what it is to have paid. -/
theorem kept_played
    {world : World}
    (kept : world.Kept)
    {runner : Runner}
    {outcome : Outcome}
    (books : Citizen.Books world.book outcome)
    (sameCitizen : runner.citizen = outcome.1)
    (sameQueue : runner.queue = outcome.2) :
    (world.played runner).Kept := by
  obtain ⟨debts, owing, paid⟩ := books
  have newBook : (world.played runner).book.dues = world.book.dues ++ debts.map Owing.due := by
    change (runner.citizen.ledger.owing).map Owing.due = _
    rw [sameCitizen, owing, List.map_append]
    rfl
  have newOwed : (world.played runner).everOwed = world.everOwed ++ debts.map Owing.due := by
    unfold everOwed played
    dsimp only
    rw [sameCitizen, owing, List.drop_left, List.map_append]
  have newPaying : (world.played runner).paying.Sublist (debts.map Owing.due) := by
    change (pays runner.queue).Sublist _
    rw [sameQueue]
    exact paid
  refine ⟨?_, ?_, ?_, ?_, ?_⟩
  · rw [newBook, newOwed]
    exact List.append_subset.mpr
      ⟨List.Subset.trans kept.owedBooked (List.subset_append_left _ _),
        List.subset_append_right _ _⟩
  · rw [newOwed]
    exact List.Subset.trans kept.savedBooked (List.subset_append_left _ _)
  · rw [newOwed]
    exact List.Subset.trans newPaying.subset (List.subset_append_right _ _)
  · intro root
    have less := Lib.tally_le_of_sublist newPaying root
    rw [newBook, Lib.tally_append]
    omega
  · intro root
    have covered := kept.covered root
    rw [newBook, newOwed, Lib.tally_append, Lib.tally_append]
    change tally world.transferred root + _ ≤ _
    omega

theorem booked_accept
    (world : World)
    (transfer : Transfer) :
    (world.accept transfer).booked = world.booked := by
  unfold accept
  split <;> rfl

theorem saved_accept
    (world : World)
    (transfer : Transfer) :
    (world.accept transfer).saved = world.saved := by
  unfold accept
  split <;> rfl

/-- A transfer adds at most its amount to what the producer accepted. -/
theorem tally_accept
    (world : World)
    (transfer : Transfer)
    (root : String) :
    tally (world.accept transfer).transferred root ≤
      tally world.transferred root + if transfer.root = root then transfer.amount else 0 := by
  unfold accept
  split
  · exact Nat.le_add_right _ _
  · unfold transferred
    rw [List.map_append, Lib.tally_append]
    simp [Transfer.due]

variable {setting buildTransfer}

/-- A payment that the house hears to be accepted takes its debt out of the book. -/
theorem kept_accepted
    {world : World}
    (kept : world.Kept)
    (oneAmount : world.OneAmount)
    {hero root : String}
    {amount : Nat}
    {queue : List Effect}
    (isNext : world.runner.queue = .pay hero root amount :: queue)
    {next : World}
    {txid : String}
    {now : Nat}
    (newBook : next.book = (world.book.housePaid root txid now).1)
    (newPaying : next.paying = pays queue)
    (sameSaved : next.saved = world.saved)
    (sameBooked : next.booked = world.booked)
    (transferred : ∀ other, tally next.transferred other ≤
      tally world.transferred other + if root = other then amount else 0) :
    next.Kept := by
  have wasPaying : world.paying = (root, amount) :: pays queue := by
    unfold paying
    rw [isNext]
    rfl
  have sameOwed : next.everOwed = world.everOwed := congrArg (List.map Owing.due) sameBooked
  have isBooked : (root, amount) ∈ world.everOwed :=
    kept.payingBooked (by rw [wasPaying]; exact List.mem_cons_self)
  -- the debt that leaves the book has the root and the amount of the payment
  have leaves : ∀ other, tally world.book.dues other =
      (if root = other then amount else 0) + tally next.book.dues other := by
    intro other
    rw [newBook]
    rcases world.book.dues_housePaid root txid now with ⟨absent, same⟩ | ⟨due, found, erased⟩
    · rw [same]
      have nothing : amount = 0 := by
        by_contra positive
        have owed := kept.payingOwed root
        rw [wasPaying, Lib.tally_cons, if_pos rfl] at owed
        obtain ⟨due, held, named⟩ := Lib.exists_of_tally_pos
          (show 0 < tally world.book.dues root by omega)
        exact List.find?_eq_none.mp absent due held (by simpa using named)
      simp [nothing]
    · have named : due.1 = root := by simpa using List.find?_some found
      have dueBooked := kept.owedBooked (List.mem_of_find?_eq_some found)
      have sameAmount : due.2 = amount := oneAmount due dueBooked _ isBooked named
      rw [erased, Lib.tally_eraseP found, named, sameAmount]
  have fewer : next.book.dues ⊆ world.book.dues := by
    rw [newBook]
    rcases world.book.dues_housePaid root txid now with ⟨_, same⟩ | ⟨_, _, erased⟩
    · rw [same]
      exact List.Subset.refl _
    · rw [erased]
      exact List.eraseP_subset
  refine ⟨?_, ?_, ?_, ?_, ?_⟩
  · rw [sameOwed]
    exact List.Subset.trans fewer kept.owedBooked
  · rw [sameOwed, sameSaved]
    exact kept.savedBooked
  · rw [sameOwed, newPaying]
    refine List.Subset.trans ?_ kept.payingBooked
    rw [wasPaying]
    exact List.subset_cons_self _ _
  · intro other
    have owed := kept.payingOwed other
    rw [wasPaying, Lib.tally_cons, leaves other] at owed
    rw [newPaying]
    dsimp only at owed
    omega
  · intro other
    have covered := kept.covered other
    have added := transferred other
    rw [leaves other] at covered
    rw [sameOwed]
    omega

theorem payment_queue
    (runner : Runner)
    (queue : List Effect)
    {hero root : String}
    {amount : Nat} :
    ({ runner with queue } : Runner).payment setting buildTransfer hero root amount =
      runner.payment setting buildTransfer hero root amount := by
  unfold Runner.payment Runner.buildPayment Runner.heldOutpoints
  dsimp only

/-- A payment comes to a failure that the producer knows nothing of, to one that it
accepted nevertheless, or to a transfer that both know of. -/
theorem carryOut_pay_cases
    {world next : World}
    {hero root : String}
    {amount : Nat}
    {queue : List Effect}
    (isNext : world.runner.queue = .pay hero root amount :: queue)
    {reply : Reply}
    {written : Bool}
    {now : Nat}
    (isCarriedOut : world.carryOut setting buildTransfer reply written now = next) :
    (next.book.dues = world.book.dues ∧ next.accepted = world.accepted ∧
        next.booked = world.booked ∧ next.saved = world.saved ∧ next.paying = pays queue) ∨
      (∃ why, reply = .lost why ∧ world.posts setting buildTransfer ≠ none) ∨
      ∃ spend, next.book = (world.book.housePaid root spend.txid now).1 ∧
        next.accepted = (world.accept ⟨root, amount, spend⟩).accepted ∧
        next.booked = world.booked ∧ next.saved = world.saved ∧ next.paying = pays queue := by
  have posted : world.posts setting buildTransfer =
      (world.runner.payment setting buildTransfer hero root amount).toOption.map fun spend =>
        ⟨root, amount, spend⟩ := by
    unfold posts
    rw [isNext]
  have failed : ∀ why, (world.runner.citizen.ledger.housePayFailed root why now).dues =
      world.book.dues :=
    fun why => world.book.dues_housePayFailed root why now
  have samePayment :
      ({ world.runner with queue } : Runner).payment setting buildTransfer hero root amount =
        world.runner.payment setting buildTransfer hero root amount :=
    payment_queue world.runner queue
  subst isCarriedOut
  unfold carryOut
  rw [isNext]
  dsimp only
  rw [posted]
  unfold Runner.pay
  rw [samePayment]
  cases world.runner.payment setting buildTransfer hero root amount with
  | error why => exact .inl ⟨failed why, rfl, rfl, rfl, rfl⟩
  | ok spend =>
      cases reply with
      | refused why => exact .inl ⟨failed _, rfl, rfl, rfl, rfl⟩
      | unreached why => exact .inl ⟨failed _, rfl, rfl, rfl, rfl⟩
      | lost why => exact .inr (.inl ⟨why, rfl, by simp [Except.toOption]⟩)
      | accepted =>
          have takes : Reply.accepted.takes = true := rfl
          refine .inr (.inr ⟨spend, rfl, ?_, ?_, ?_, ?_⟩)
          · dsimp only [Except.toOption, Option.map_some]
            rw [if_pos takes]
            unfold accept
            dsimp only
            split <;> rfl
          · dsimp only [Except.toOption, Option.map_some]
            rw [if_pos takes, booked_accept]
          · dsimp only [Except.toOption, Option.map_some]
            rw [if_pos takes, saved_accept]
          · have follow := Citizen.pays_housePaid world.runner.citizen hero root spend.txid now
            change pays (_ ++ queue) = pays queue
            rw [pays_append]
            exact congrArg (· ++ pays queue) follow

theorem kept_carryOut
    {world : World}
    (kept : world.Kept)
    {reply : Reply}
    {written : Bool}
    {now : Nat}
    (keepsCount : world.KeepsCount setting buildTransfer (.effect reply written now)) :
    (world.carryOut setting buildTransfer reply written now).Kept := by
  cases isQueue : world.runner.queue with
  | nil =>
      unfold carryOut
      rw [isQueue]
      exact kept
  | cons effect queue =>
      have less : (pays queue).Sublist world.paying := by
        unfold paying
        rw [isQueue, pays_cons]
        exact List.sublist_append_right _ _
      cases effect with
      | send recipient message =>
          unfold carryOut
          rw [isQueue]
          exact kept.of_same rfl rfl rfl (.inl rfl) (.inl less)
      | botTurn commit =>
          unfold carryOut
          rw [isQueue]
          exact kept.of_same rfl rfl rfl (.inl rfl) (.inl less)
      | persist =>
          unfold carryOut persist
          rw [isQueue]
          dsimp only
          split
          · exact kept.of_same rfl rfl rfl (.inr rfl) (.inl less)
          · exact kept.of_same rfl rfl rfl (.inl rfl) (.inl less)
      | pay hero root amount =>
          have isCarriedOut : world.carryOut setting buildTransfer reply written now = _ := rfl
          rcases carryOut_pay_cases isQueue isCarriedOut with
            ⟨sameBook, sameAccepted, sameBooked, sameSaved, paying⟩ | ⟨why, rfl, posted⟩ |
              ⟨spend, newBook, accepted, sameBooked, sameSaved, paying⟩
          · refine kept.of_same sameBook sameAccepted sameBooked (.inl ?_) (.inl ?_)
            · rw [sameSaved]
            · rw [paying]
              exact less
          · exact absurd keepsCount.2 posted
          · refine kept_accepted kept keepsCount.1 isQueue newBook paying sameSaved sameBooked ?_
            intro other
            unfold transferred
            rw [accepted]
            exact tally_accept world ⟨root, amount, spend⟩ other

/-- The clock and the chain leave the house's debts alone, and what is then to be paid
is among them. -/
theorem onPoll_pays
    (setting : Setting)
    (runner : Runner)
    (tip : Option String)
    (scanned : Except String Facts)
    (scannedAt now : Nat) :
    (runner.onPoll setting tip scanned scannedAt now).citizen.ledger.dues =
        runner.citizen.ledger.dues ∧
      (pays (runner.onPoll setting tip scanned scannedAt now).queue).Sublist
        runner.citizen.ledger.dues := by
  have sameCitizen : (runner.refreshChain tip scanned scannedAt).citizen = runner.citizen := by
    unfold Runner.refreshChain
    split
    · rfl
    · split <;> rfl
  have ticked := Citizen.quiet_tick setting runner.citizen now
  unfold Runner.onPoll
  dsimp only
  rw [sameCitizen]
  cases (runner.refreshChain tip scanned scannedAt).facts with
  | none =>
      have sameDues : (runner.citizen.tick setting now).1.ledger.dues = runner.citizen.ledger.dues :=
        congrArg (List.map Owing.due) ticked.1
      have due := Citizen.pays_payable setting (runner.citizen.tick setting now).1 now payRetrySecs
      refine ⟨sameDues, ?_⟩
      rw [pays_append, pays_append, ticked.2]
      exact due
  | some facts =>
      have seen := Citizen.quiet_paymentsSeen (runner.citizen.tick setting now).1
        facts.handPayments
      have sameDues := congrArg (List.map Owing.due) (seen.1.trans ticked.1)
      have due := Citizen.pays_payable setting
        ((runner.citizen.tick setting now).1.paymentsSeen facts.handPayments).1 now payRetrySecs
      rw [sameDues] at due
      refine ⟨sameDues, ?_⟩
      rw [pays_append, pays_append, ticked.2, seen.2]
      exact due

theorem kept_poll
    {world : World}
    (kept : world.Kept)
    (tip : Option String)
    (scanned : Except String Facts)
    (scannedAt now : Nat) :
    ({ world with runner := world.runner.onPoll setting tip scanned scannedAt now } : World).Kept := by
  obtain ⟨sameDues, due⟩ := onPoll_pays setting world.runner tip scanned scannedAt now
  exact kept.of_same sameDues rfl rfl (.inl rfl) (.inr due)

theorem kept_restart
    {world : World}
    (kept : world.Kept)
    (paidUp : world.SavedIsPaidUp)
    (tip : Option String)
    (scanned : Except String Facts)
    (written : Bool)
    (now : Nat) :
    (world.restart tip scanned written now).Kept := by
  have sameRunner :
      ((Runner.start world.saved world.runner.citizen.drawn).refreshChain tip scanned
          now).citizen.ledger = world.saved ∧
        ((Runner.start world.saved world.runner.citizen.drawn).refreshChain tip scanned
          now).queue = [] := by
    unfold Runner.refreshChain
    split
    · exact ⟨rfl, rfl⟩
    · split <;> exact ⟨rfl, rfl⟩
  have less : ∀ root, tally world.saved.dues root ≤ tally world.book.dues root := by
    intro root
    by_cases owes : ∃ due ∈ world.saved.dues, due.1 = root
    · obtain ⟨due, held, rfl⟩ := owes
      exact paidUp due held
    · have nothing : ¬0 < tally world.saved.dues root :=
        fun positive => owes (Lib.exists_of_tally_pos positive)
      omega
  have started : ({ world with
      runner := (Runner.start world.saved world.runner.citizen.drawn).refreshChain tip scanned
        now } : World).Kept := by
    refine ⟨?_, kept.savedBooked, ?_, ?_, ?_⟩
    · unfold book
      rw [sameRunner.1]
      exact kept.savedBooked
    · unfold paying
      rw [sameRunner.2]
      exact List.nil_subset _
    · intro root
      unfold paying
      rw [sameRunner.2]
      exact Nat.zero_le _
    · intro root
      have covered := kept.covered root
      have fewer := less root
      unfold book
      rw [sameRunner.1]
      change tally world.transferred root + _ ≤ tally world.everOwed root
      omega
  unfold restart persist
  dsimp only
  split
  · exact started.of_same rfl rfl rfl (.inr rfl) (.inl (List.Sublist.refl _))
  · exact started

/-- Whatever happens keeps the invariant, as long as it keeps count. -/
theorem kept_step
    {world : World}
    {happening : Happening}
    (kept : world.Kept)
    (keepsCount : world.KeepsCount setting buildTransfer happening) :
    (world.step setting buildTransfer happening).Kept := by
  cases happening with
  | effect reply written now => exact kept_carryOut kept keepsCount
  | restart tip scanned written now =>
      exact kept_restart kept keepsCount.2 tip scanned written now
  | message member message now =>
      unfold step
      dsimp only
      split
      · exact kept_played kept (Citizen.books_handle member message now _) rfl rfl
      · exact kept
  | botTurn now =>
      unfold step Runner.onBotTurn
      dsimp only
      split
      · rename_i idle
        split
        · have nothing : Citizen.Books world.book (world.runner.citizen, []) :=
            Citizen.books_of_same rfl rfl
          exact kept_played kept nothing rfl (List.isEmpty_iff.mp idle)
        · exact kept_played kept (Citizen.books_botTurn _ now) rfl rfl
      · exact kept
  | poll tip scanned scannedAt now =>
      unfold step
      dsimp only
      split
      · exact kept_poll kept tip scanned scannedAt now
      · exact kept

/-- In every run that keeps count, the producer accepts for no hand more than the house
owed. -/
theorem paysAtMostOwed_run
    (setting : Setting)
    (buildTransfer : BuildTransfer)
    (ledger : Ledger)
    (happenings : List Happening)
    (keepsCount : Lib.Along (step setting buildTransfer) (KeepsCount setting buildTransfer)
      (begin ledger) happenings) :
    Lib.Visits (step setting buildTransfer) PaysAtMostOwed (begin ledger) happenings :=
  (Lib.visits_of_along (fun _ _ => kept_step) (kept_begin ledger) keepsCount).mono
    fun _ kept => kept.paysAtMostOwed

end World

/-! ## A lost answer -/

namespace Sample

/-- A builder that spends the first coin that covers the amount. -/
def firstCoin : BuildTransfer := fun _ request =>
  match request.coins.find? fun coin => request.amount ≤ coin.units with
  | some coin => .ok ⟨"spend of " ++ coin.outpoint.txid, [coin.outpoint]⟩
  | none => .error "no coin covers the amount"

/-- The chain with one coin of the house, of 20000 units. -/
def oneCoin : Facts where
  coins := [⟨⟨"treasury", 0⟩, 20000⟩]
  unitsOf _ := 10000
  handPayments _ _ := none
  txids := ["treasury"]

/-- The chain once it shows a transfer of 20 units from that coin, and its change. -/
def changeCoin : Facts where
  coins := [⟨⟨"spend of treasury", 1⟩, 19980⟩]
  unitsOf member := if member = alice then 10020 else 10000
  handPayments hand member := if hand = root ∧ member = alice then some 20 else none
  txids := ["treasury", "spend of treasury"]

/-- A member sits, raises and wins the blinds of the house, which folds; the answer to
the house's transfer is given. -/
def winsBlinds (reply : Reply) : List Happening :=
  [.restart (some "first") (.ok oneCoin) true 999,
    .message alice (.hello 1) 1000,
    .effect .accepted true 1000,
    .message alice (.sit 1 firstCommit .dream 20 firstNonce) 1001,
    .effect .accepted true 1001,
    .message alice (.act firstCommit ⟨0, .raise, some 40⟩) 1002,
    .effect .accepted true 1002,
    .effect .accepted true 1002,
    .botTurn 1003,
    .effect .accepted true 1003,
    .effect reply true 1004]

/-- The answer is lost, the chain shows the transfer, and the house pays again. -/
def lostAnswer : List Happening :=
  winsBlinds (.lost "producer: operation timed out") ++
    [.effect .accepted true 1034,
      .effect .accepted true 1034,
      .effect .accepted true 1034,
      .poll (some "second") (.ok changeCoin) 1200 1200,
      .effect .accepted true 1200]

end Sample

/-- The house pays a hand twice, from two coins, when the answer to its first transfer is
lost. -/
theorem lost_answer_pays_twice :
    ¬Lib.Visits (World.step Sample.setting Sample.firstCoin) World.PaysAtMostOwed
      (World.begin Ledger.empty) Sample.lostAnswer := by
  intro visits
  have final := (Lib.visits_iff_prefixes _ _).mp visits _ List.prefix_rfl
  exact absurd (final Sample.root) (by decide +kernel)

/-- A hand whose transfer is heard of, and a process started after it was saved. -/
theorem paysAtMostOwed_run_heard :
    Lib.Visits (World.step Sample.setting Sample.firstCoin) World.PaysAtMostOwed
      (World.begin Ledger.empty)
      (Sample.winsBlinds .accepted ++
        [.effect .accepted true 1004, .effect .accepted true 1004,
          .restart (some "second") (.ok Sample.changeCoin) true 1100]) :=
  World.paysAtMostOwed_run _ _ _ _ (by decide +kernel)

end HouseSeat
end NostrBbs
