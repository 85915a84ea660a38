import NostrBbs.HouseSeat.Runner
import NostrBbs.HouseSeat.Seating
import NostrBbs.Lib.Counting

/-!
# What the house comes to owe

A message or a turn of the house changes the book in one place only, where a finished
hand is settled.  What it has the runner pay is what it has just put in the book.
-/

namespace NostrBbs
namespace HouseSeat

/-! ## Dues -/

/-- A hand's root and what is owed for it. -/
def Owing.due (owing : Owing) : String × Nat :=
  (owing.root, owing.amount)

/-- What an effect pays. -/
def Effect.due : Effect → Option (String × Nat)
  | .pay _ root amount => some (root, amount)
  | .send _ _ => none
  | .botTurn _ => none
  | .persist => none

/-- What effects pay. -/
def pays (effects : List Effect) : List (String × Nat) :=
  effects.filterMap Effect.due

@[simp] theorem pays_nil : pays [] = [] :=
  rfl

@[simp] theorem pays_cons
    (effect : Effect)
    (effects : List Effect) :
    pays (effect :: effects) = effect.due.toList ++ pays effects := by
  unfold pays
  cases due : effect.due with
  | none => rw [List.filterMap_cons_none due]; rfl
  | some paid => rw [List.filterMap_cons_some due]; rfl

@[simp] theorem pays_append
    (first second : List Effect) :
    pays (first ++ second) = pays first ++ pays second :=
  List.filterMap_append

@[simp] theorem pays_err
    (recipient : String)
    (commit : Option String)
    (message : String) :
    pays (err recipient commit message) = [] :=
  rfl

@[simp] theorem pays_map_send
    {Row : Type}
    (rows : List Row)
    (recipient : Row → String)
    (message : Row → ToHero) :
    pays (rows.map fun row => .send (recipient row) (message row)) = [] := by
  induction rows with
  | nil => rfl
  | cons row rows inductionHypothesis => simpa [Effect.due] using inductionHypothesis

namespace Citizen

variable (setting : Setting) (citizen : Citizen)

/-! ## What leaves the book alone -/

@[simp] theorem ledger_withSession
    (member : String)
    (change : Session → Session) :
    (citizen.withSession member change).ledger = citizen.ledger :=
  rfl

@[simp] theorem ledger_changeSession
    (member : String)
    (change : Session → Session) :
    (citizen.changeSession member change).ledger = citizen.ledger := by
  unfold changeSession
  split <;> rfl

@[simp] theorem ledger_offer
    (member : String)
    (now : Nat) :
    (citizen.offer setting member now).1.ledger = citizen.ledger :=
  rfl

@[simp] theorem ledger_release
    (commit : String)
    (live : Live) :
    (citizen.release commit live).ledger = citizen.ledger := by
  unfold release releaseSeat
  simp

theorem ledger_offers
    (live : Live)
    (now : Nat)
    (seats : List Nat) :
    (offers setting live now seats citizen).1.ledger = citizen.ledger ∧
      pays (offers setting live now seats citizen).2 = [] := by
  induction seats generalizing citizen with
  | nil => exact ⟨rfl, rfl⟩
  | cons seat seats inductionHypothesis =>
      have rest := inductionHypothesis (citizen.offer setting (live.player seat) now).1
      unfold offers
      dsimp only
      rw [rest.1, pays_cons, rest.2]
      exact ⟨rfl, rfl⟩

@[simp] theorem ledger_seatHand
    (deal : Deal)
    (hand : Poker.Hand) :
    (citizen.seatHand setting deal hand).ledger = citizen.ledger := by
  have folded : ∀ (members : List String) (citizen : Citizen),
      (members.foldl (fun citizen member => citizen.withSession member fun session =>
        { session with live := some deal.commit }) citizen).ledger = citizen.ledger := by
    intro members
    induction members with
    | nil => exact fun _ => rfl
    | cons member members inductionHypothesis => exact fun _ => inductionHypothesis _
  exact folded _ citizen

/-- The end of a hand pays nobody by itself. -/
theorem pays_doneMessages
    {commit : String}
    {live : Live}
    {record : Poker.HandRecord}
    {root : String}
    {seats : List Nat} :
    (∀ messages, doneMessages commit live record root seats = .ok messages →
        pays messages = []) ∧
      ∀ refused, doneMessages commit live record root seats = .error refused →
        pays refused = [] := by
  induction seats with
  | nil =>
      constructor
      · rintro _ ⟨⟩
        rfl
      · rintro _ ⟨⟩
  | cons seat seats inductionHypothesis =>
      unfold doneMessages
      cases settlement true (live.hand.seat seat).stack live.buyin with
      | error refusal =>
          constructor
          · rintro _ ⟨⟩
          · rintro _ ⟨⟩
            rfl
      | ok settled =>
          dsimp only
          cases rest : doneMessages commit live record root seats with
          | error refused =>
              constructor
              · rintro _ ⟨⟩
              · rintro _ ⟨⟩
                exact inductionHypothesis.2 _ rest
          | ok messages =>
              constructor
              · rintro _ ⟨⟩
                rw [pays_cons, inductionHypothesis.1 _ rest]
                rfl
              · rintro _ ⟨⟩

/-! ## What puts a debt in the book -/

/-- An outcome adds debts of the house to a book and pays at most these. -/
def Books (before : Ledger) (outcome : Outcome) : Prop :=
  ∃ debts, outcome.1.ledger.owing = before.owing ++ debts ∧
    (pays outcome.2).Sublist (debts.map Owing.due)

variable {setting citizen} {before : Ledger} {outcome : Outcome}

theorem books_of_same
    (sameOwing : outcome.1.ledger.owing = before.owing)
    (noPayment : pays outcome.2 = []) :
    Books before outcome :=
  ⟨[], by rw [sameOwing, List.append_nil], by rw [noPayment]; exact List.nil_sublist _⟩

end Citizen

/-- What a seat has won in a hand. -/
def Live.won (live : Live) (seat : Nat) : Nat :=
  (live.hand.seat seat).stack - live.buyin

/-- A debt is what a hand against the house left it owing. -/
def Live.Earned (setting : Setting) (live : Live) (owing : Owing) : Prop :=
  owing.amount = live.won 0 ∧
    ∃ record, Poker.recordOf live.hand (some [live.seats.1, live.seats.2]) = some record ∧
      setting.root record = .ok owing.root

/-- A property of hands that every deal gives and every action keeps. -/
structure Lasting (kind : Live → Prop) : Prop where
  dealt : ∀ (deal : Citizen.Deal) (hand : Poker.Hand),
    Poker.newHand deal.config = .ok hand → kind (deal.live hand)
  moved : ∀ (live : Live) (action : Poker.Action) (hand : Poker.Hand),
    kind live → Poker.act live.hand action = .ok hand → kind { live with hand }

namespace Citizen

/-- All hands on the table are of a kind. -/
def AllHands (kind : Live → Prop) (citizen : Citizen) : Prop :=
  ∀ commit live, citizen.hand commit = some live → kind live

/-- An outcome that may settle a hand of a kind: the debts that it adds to a book were won
in such hands, and what it pays is part of them and within what is left of the day's cap. -/
structure Settles (setting : Setting) (kind : Live → Prop) (now : Nat) (before : Ledger)
    (outcome : Outcome) : Prop where
  hands : outcome.1.AllHands kind
  paid : outcome.1.ledger.paid = before.paid
  booked : ∃ debts, outcome.1.ledger.owing = before.owing ++ debts ∧
    (pays outcome.2).Sublist (debts.map Owing.due) ∧
    ((pays outcome.2).map Prod.snd).sum ≤ setting.cfg.dailyCap - before.paidToday now ∧
    ∀ owing ∈ debts, ∃ live, kind live ∧ live.Earned setting owing

/-- An outcome leaves the book and the hands as they are and pays nobody. -/
structure Untouched (citizen : Citizen) (outcome : Outcome) : Prop where
  ledger : outcome.1.ledger = citizen.ledger
  hands : outcome.1.hands = citizen.hands
  noPayment : pays outcome.2 = []

variable {setting : Setting} {citizen : Citizen} {before : Ledger} {outcome : Outcome}
variable {kind : Live → Prop} {now : Nat}

theorem Settles.books
    (settles : Settles setting kind now before outcome) :
    Books before outcome := by
  obtain ⟨debts, owing, paid, _, _⟩ := settles.booked
  exact ⟨debts, owing, paid⟩

theorem settles_of_same
    (hands : outcome.1.AllHands kind)
    (samePaid : outcome.1.ledger.paid = before.paid)
    (sameOwing : outcome.1.ledger.owing = before.owing)
    (noPayment : pays outcome.2 = []) :
    Settles setting kind now before outcome := by
  refine ⟨hands, samePaid, [], ?_, ?_, ?_, ?_⟩
  · rw [sameOwing, List.append_nil]
  · rw [noPayment]
    exact List.nil_sublist _
  · rw [noPayment]
    exact Nat.zero_le _
  · exact fun _ held => absurd held List.not_mem_nil

theorem AllHands.of_hands
    (all : citizen.AllHands kind)
    {other : Citizen}
    (sameHands : other.hands = citizen.hands) :
    other.AllHands kind := by
  intro commit live stored
  unfold Citizen.hand at stored
  rw [sameHands] at stored
  exact all commit live stored

theorem Untouched.settles
    (untouched : Untouched citizen outcome)
    (all : citizen.AllHands kind) :
    Settles setting kind now citizen.ledger outcome :=
  settles_of_same (all.of_hands untouched.hands) (congrArg Ledger.paid untouched.ledger)
    (congrArg Ledger.owing untouched.ledger) untouched.noPayment

/-- What an outcome adds to a book it adds to every book that owes and has paid the same. -/
theorem Settles.of_book
    (settles : Settles setting kind now before outcome)
    {other : Ledger}
    (samePaid : other.paid = before.paid)
    (sameOwing : other.owing = before.owing) :
    Settles setting kind now other outcome := by
  obtain ⟨hands, paid, debts, owing, paysPart, within, earned⟩ := settles
  refine ⟨hands, paid.trans samePaid.symm, debts, ?_, paysPart, ?_, earned⟩
  · rw [sameOwing, owing]
  · unfold Ledger.paidToday
    rw [samePaid]
    exact within

/-- Effects that pay nothing, around an outcome. -/
theorem Settles.around
    (settles : Settles setting kind now before outcome)
    {first last : List Effect}
    (noneFirst : pays first = [])
    (noneLast : pays last = [])
    {later : Citizen}
    (sameLedger : later.ledger = outcome.1.ledger)
    (sameHands : later.hands = outcome.1.hands) :
    Settles setting kind now before (later, first ++ outcome.2 ++ last) := by
  obtain ⟨hands, samePaid, debts, owing, paid, within, earned⟩ := settles
  have samePays : pays (first ++ outcome.2 ++ last) = pays outcome.2 := by
    simp [noneFirst, noneLast]
  refine ⟨hands.of_hands sameHands, ?_, debts, ?_, ?_, ?_, earned⟩
  · rw [sameLedger, samePaid]
  · rw [sameLedger, owing]
  · rw [samePays]
    exact paid
  · rw [samePays]
    exact within

/-! ## Settling -/

/-- The debt of a settlement from seat 0's side is what seat 0 has won. -/
theorem amount_of_settlement
    {stack buyin : Nat}
    {settled : Settlement}
    (settles : settlement true stack buyin = .ok (some settled))
    (payer : settled.payer = .citizen) :
    settled.amount = stack - buyin := by
  unfold settlement at settles
  dsimp only at settles
  rw [if_neg (by simp)] at settles
  split at settles
  · cases settles
  · split at settles
    · cases settles
    · split at settles
      · cases settles
      · split at settles
        · cases settles
          change ((stack : Int) - buyin).natAbs = stack - buyin
          omega
        · cases settles
          cases payer

theorem hands_offers
    (setting : Setting)
    (live : Live)
    (now : Nat)
    (seats : List Nat)
    (citizen : Citizen) :
    (offers setting live now seats citizen).1.hands = citizen.hands := by
  induction seats generalizing citizen with
  | nil => rfl
  | cons seat seats inductionHypothesis =>
      exact inductionHypothesis (citizen.offer setting (live.player seat) now).1

theorem settles_book
    (live : Live)
    (root : String)
    (now : Nat)
    (settled : Settlement)
    (isKind : kind live)
    (all : citizen.AllHands kind)
    (earned : settled.payer = .citizen → ∀ owing : Owing, owing.amount = settled.amount →
      owing.root = root → live.Earned setting owing) :
    Settles setting kind now citizen.ledger (citizen.book setting live root now settled) := by
  unfold book
  dsimp only
  cases payer : settled.payer with
  | hero => exact settles_of_same all rfl rfl rfl
  | citizen =>
      dsimp only
      split
      · refine ⟨all, rfl, [⟨live.seats.1, root, settled.amount, now, 0, 0, none⟩], rfl, ?_, ?_,
          ?_⟩
        · dsimp only
          split
          · exact List.Sublist.refl _
          · exact List.nil_sublist _
        · dsimp only
          split
          · rename_i withinCap
            change settled.amount ≤ setting.cfg.dailyCap - citizen.ledger.paidToday now at withinCap
            simpa [Effect.due] using withinCap
          · exact Nat.zero_le _
        · intro owing isOwing
          obtain rfl := List.mem_singleton.mp isOwing
          exact ⟨live, isKind, earned payer _ rfl rfl⟩
      · exact settles_of_same all rfl rfl rfl

theorem settles_bookHand
    {live : Live}
    {record : Poker.HandRecord}
    {root : String}
    (isKind : kind live)
    (all : citizen.AllHands kind)
    (recorded : Poker.recordOf live.hand (some [live.seats.1, live.seats.2]) = some record)
    (rooted : setting.root record = .ok root)
    (now : Nat) :
    Settles setting kind now citizen.ledger (citizen.bookHand setting live root now) := by
  unfold bookHand
  dsimp only
  split
  · rename_i settled isSettled
    have earned : settled.payer = .citizen → ∀ owing : Owing, owing.amount = settled.amount →
        owing.root = root → live.Earned setting owing := by
      intro payer owing amount isRoot
      refine ⟨amount.trans (amount_of_settlement isSettled payer), record, recorded, ?_⟩
      rw [rooted, isRoot]
    -- the history is written first, which leaves the debts as they are
    let net : Int := ((live.hand.seat 0).stack : Int) - live.buyin
    let written :=
      { citizen with ledger := citizen.ledger.settled live.seats.1 root net now }
    have writtenAll : written.AllHands kind := all
    exact (settles_book live root now settled isKind writtenAll earned).of_book rfl rfl
  · exact settles_of_same all rfl rfl rfl

theorem settles_settle
    (all : citizen.AllHands kind)
    (commit : String)
    (now : Nat) :
    Settles setting kind now citizen.ledger (citizen.settle setting commit now) := by
  unfold settle
  split
  · exact settles_of_same all rfl rfl rfl
  · rename_i live stored
    have isKind := all commit live stored
    have sameLedger := ledger_release citizen commit live
    have released : (citizen.release commit live).AllHands kind := by
      intro other otherLive otherStored
      rw [hand_release] at otherStored
      by_cases same : other = commit
      · rw [same, Function.update_self] at otherStored
        cases otherStored
      · rw [Function.update_of_ne same] at otherStored
        exact all other otherLive otherStored
    have refused : ∀ effects, pays effects = [] →
        Settles setting kind now citizen.ledger (citizen.release commit live, effects) :=
      fun effects noPayment => settles_of_same released (by rw [sameLedger]) (by rw [sameLedger])
        noPayment
    dsimp only
    split
    · exact refused _ (pays_err _ _ _)
    · rename_i record recorded
      split
      · exact refused _ (pays_err _ _ _)
      · rename_i root rooted
        split
        · rename_i refusal isRefused
          exact refused _ (pays_doneMessages.2 _ isRefused)
        · rename_i messages isDone
          have booked := settles_bookHand isKind released recorded rooted now
          rw [sameLedger] at booked
          have offered := ledger_offers setting
            ((citizen.release commit live).bookHand setting live root now).1 live now
            live.memberSeats
          rw [List.append_assoc (messages ++ _)]
          refine booked.around (pays_doneMessages.1 _ isDone) ?_ offered.1
            (hands_offers setting live now _ _)
          rw [pays_append, offered.2]
          rfl

theorem settles_afterChange
    (all : citizen.AllHands kind)
    (commit : String)
    (now : Nat) :
    Settles setting kind now citizen.ledger (citizen.afterChange setting commit now) := by
  unfold afterChange
  split
  · exact settles_of_same all rfl rfl rfl
  · split
    · refine settles_of_same all rfl rfl ?_
      rw [pays_append, pays_map_send]
      split <;> rfl
    · exact settles_settle all commit now

theorem settles_deal
    (lasting : Lasting kind)
    (all : citizen.AllHands kind)
    (deal : Deal)
    (now : Nat) :
    Settles setting kind now citizen.ledger (citizen.deal setting deal now) := by
  unfold Citizen.deal
  split
  · exact settles_of_same all rfl rfl rfl
  · rename_i hand deals
    have sameLedger := ledger_seatHand setting citizen deal hand
    have dealt : (citizen.seatHand setting deal hand).AllHands kind := by
      intro commit live stored
      rw [hand_seatHand] at stored
      by_cases same : commit = deal.commit
      · rw [same, Function.update_self] at stored
        exact Option.some.inj stored ▸ lasting.dealt deal hand deals
      · rw [Function.update_of_ne same] at stored
        exact all commit live stored
    rw [← sameLedger]
    exact settles_afterChange dealt deal.commit now

theorem settles_moveHand
    (lasting : Lasting kind)
    (all : citizen.AllHands kind)
    {commit : String}
    {live : Live}
    {action : Poker.Action}
    {hand : Poker.Hand}
    (stored : citizen.hand commit = some live)
    (accepted : Poker.act live.hand action = .ok hand)
    (now : Nat) :
    Settles setting kind now citizen.ledger
      ((citizen.moveHand commit live hand).afterChange setting commit now) := by
  have moved : (citizen.moveHand commit live hand).AllHands kind := by
    intro other otherLive otherStored
    unfold moveHand at otherStored
    rw [hand_put] at otherStored
    by_cases same : other = commit
    · rw [same, Function.update_self] at otherStored
      exact Option.some.inj otherStored ▸
        lasting.moved live action hand (all commit live stored) accepted
    · rw [Function.update_of_ne same] at otherStored
      exact all other otherLive otherStored
  exact settles_afterChange moved commit now

/-! ## Messages and turns -/

/-- An outcome leaves the house's debts as they are and pays nobody. -/
def Quiet (before : Ledger) (outcome : Outcome) : Prop :=
  outcome.1.ledger.owing = before.owing ∧ pays outcome.2 = []

theorem untouched_sitDeal
    {member commit nonce : String}
    {v bb now : Nat}
    {balances : Balances}
    (refused : citizen.sitDeal setting member v commit bb nonce now balances = .error outcome) :
    Untouched citizen outcome := by
  unfold sitDeal at refused
  dsimp only at refused
  split at refused
  · cases refused
    exact ⟨rfl, rfl, rfl⟩
  · split at refused
    · cases refused
      exact ⟨rfl, rfl, rfl⟩
    · split at refused
      · cases refused
        exact ⟨rfl, rfl, rfl⟩
      · split at refused
        · cases refused
          exact ⟨rfl, rfl, rfl⟩
        · split at refused
          · cases refused
            exact ⟨rfl, rfl, rfl⟩
          · split at refused
            · cases refused
              exact ⟨rfl, rfl, rfl⟩
            · split at refused
              · cases refused
                exact ⟨rfl, rfl, rfl⟩
              · split at refused
                · cases refused
                  exact ⟨rfl, rfl, rfl⟩
                · split at refused
                  · cases refused
                    exact ⟨rfl, rfl, rfl⟩
                  · cases refused

theorem settles_sit
    (lasting : Lasting kind)
    (all : citizen.AllHands kind)
    (member : String)
    (v : Nat)
    (commit : String)
    (bb : Nat)
    (nonce : String)
    (now : Nat)
    (balances : Balances) :
    Settles setting kind now citizen.ledger
      (citizen.sit setting member v commit bb nonce now balances) := by
  unfold sit
  split
  · rename_i refused
    exact (untouched_sitDeal refused).settles all
  · rename_i next deal accepted
    have passed := sitDeal_ok accepted
    rw [← passed.sameLedger]
    exact settles_deal lasting (all.of_hands passed.sameHands) deal now

theorem untouched_acceptDeal
    {member commit nonce : String}
    {now : Nat}
    {balances : Balances}
    (refused : citizen.acceptDeal setting member commit nonce now balances = .error outcome) :
    Untouched citizen outcome := by
  unfold acceptDeal at refused
  dsimp only at refused
  split at refused
  · cases refused
    exact ⟨rfl, rfl, rfl⟩
  · split at refused
    · cases refused
      exact ⟨rfl, rfl, rfl⟩
    · split at refused
      · cases refused
        exact ⟨rfl, rfl, rfl⟩
      · split at refused
        · cases refused
          exact ⟨rfl, rfl, rfl⟩
        · split at refused
          · cases refused
            exact ⟨rfl, rfl, rfl⟩
          · split at refused
            · cases refused
              exact ⟨rfl, rfl, rfl⟩
            · split at refused
              · cases refused
                exact ⟨rfl, rfl, rfl⟩
              · cases refused

theorem settles_accept
    (lasting : Lasting kind)
    (all : citizen.AllHands kind)
    (member commit nonce : String)
    (now : Nat)
    (balances : Balances) :
    Settles setting kind now citizen.ledger
      (citizen.accept setting member commit nonce now balances) := by
  unfold accept
  split
  · rename_i refused
    exact (untouched_acceptDeal refused).settles all
  · rename_i next deal accepted
    have passed := acceptDeal_ok accepted
    rw [← passed.sameLedger]
    exact settles_deal lasting (all.of_hands passed.sameHands) deal now

theorem untouched_challenge
    (challenger : String)
    (v : Nat)
    (opponent : String)
    (bb : Nat)
    (nonce : String)
    (now : Nat)
    (balances : Balances) :
    Untouched citizen
      (citizen.challenge setting challenger v opponent bb nonce now balances) := by
  unfold challenge
  dsimp only
  split
  · exact ⟨rfl, rfl, rfl⟩
  · split
    · exact ⟨rfl, rfl, rfl⟩
    · split
      · exact ⟨rfl, rfl, rfl⟩
      · split
        · exact ⟨rfl, rfl, rfl⟩
        · split
          · exact ⟨rfl, rfl, rfl⟩
          · split
            · exact ⟨rfl, rfl, rfl⟩
            · split
              · exact ⟨rfl, rfl, rfl⟩
              · split
                · exact ⟨rfl, rfl, rfl⟩
                · exact ⟨rfl, rfl, rfl⟩

theorem settles_memberAct
    (lasting : Lasting kind)
    (all : citizen.AllHands kind)
    (member commit : String)
    (action : Poker.Action)
    (now : Nat) :
    Settles setting kind now citizen.ledger
      (citizen.memberAct setting member commit action now) := by
  unfold memberAct
  dsimp only
  split
  · exact settles_of_same all rfl rfl rfl
  · rename_i live stored
    split
    · exact settles_of_same all rfl rfl rfl
    · split
      · exact settles_of_same all rfl rfl rfl
      · split
        · exact settles_of_same all rfl rfl rfl
        · split
          · exact settles_of_same all rfl rfl rfl
          · rename_i accepted
            exact settles_moveHand lasting all stored accepted now

theorem settles_botTurn
    (lasting : Lasting kind)
    (all : citizen.AllHands kind)
    (commit : String)
    (now : Nat) :
    Settles setting kind now citizen.ledger (citizen.botTurn setting commit now) := by
  unfold botTurn
  split
  · exact settles_of_same all rfl rfl rfl
  · rename_i live stored
    split
    · exact settles_of_same all rfl rfl rfl
    · split
      · exact settles_of_same all rfl rfl rfl
      · split
        · exact settles_of_same all rfl rfl rfl
        · rename_i accepted
          exact settles_moveHand lasting all stored accepted now

theorem untouched_hello
    (member : String)
    (v now : Nat) :
    Untouched citizen (citizen.hello setting member v now) := by
  unfold hello
  dsimp only
  split
  · exact ⟨rfl, rfl, rfl⟩
  · split
    · exact ⟨rfl, rfl, rfl⟩
    · split
      · refine ⟨rfl, rfl, ?_⟩
        dsimp only
        split <;> rfl
      · exact ⟨rfl, rfl, rfl⟩

theorem settles_paid
    (all : citizen.AllHands kind)
    (member root txid : String)
    (now : Nat) :
    Settles setting kind now citizen.ledger (citizen.paid member root txid now) := by
  have sameBook : (citizen.ledger.claim member root txid now).1.paid = citizen.ledger.paid ∧
      (citizen.ledger.claim member root txid now).1.owing = citizen.ledger.owing := by
    unfold Ledger.claim
    dsimp only
    split <;> exact ⟨rfl, rfl⟩
  unfold paid
  dsimp only
  split
  · exact settles_of_same all rfl rfl rfl
  · split
    · exact settles_of_same all sameBook.1 sameBook.2 rfl
    · exact settles_of_same all rfl rfl rfl

theorem settles_leave
    (lasting : Lasting kind)
    (all : citizen.AllHands kind)
    (member : String)
    (commit : Option String)
    (now : Nat) :
    Settles setting kind now citizen.ledger (citizen.leave setting member commit now) := by
  have sameHands : ∀ (citizen : Citizen) (change : Session → Session),
      (citizen.changeSession member change).hands = citizen.hands := by
    intro citizen change
    unfold changeSession
    split <;> rfl
  have later : ∀ outcome, Settles setting kind now citizen.ledger outcome →
      Settles setting kind now citizen.ledger
        (outcome.1.changeSession member fun session => { session with offer := none, seen := 0 },
          outcome.2) := by
    intro outcome settles
    have around : Settles setting kind now citizen.ledger
        (outcome.1.changeSession member fun session => { session with offer := none, seen := 0 },
          [] ++ outcome.2 ++ []) :=
      settles.around pays_nil pays_nil (ledger_changeSession outcome.1 member _)
        (sameHands outcome.1 _)
    rw [List.nil_append, List.append_nil] at around
    exact around
  unfold leave
  dsimp only
  apply later
  split
  · exact settles_of_same all rfl rfl rfl
  · split
    · exact settles_memberAct lasting all member _ _ now
    · exact settles_of_same all rfl rfl rfl

theorem untouched_decline
    (member commit : String) :
    Untouched citizen (citizen.decline member commit) := by
  unfold decline
  split
  · exact ⟨rfl, rfl, rfl⟩
  · split
    · exact ⟨rfl, rfl, rfl⟩
    · exact ⟨rfl, rfl, rfl⟩

/-- A message adds to the book what was won of the house, and has at most this paid, within
what is left of the day's cap. -/
theorem settles_handle
    (lasting : Lasting kind)
    (all : citizen.AllHands kind)
    (member : String)
    (message : ToCitizen)
    (now : Nat)
    (balances : Balances) :
    Settles setting kind now citizen.ledger
      (citizen.handle setting member message now balances) := by
  cases message with
  | hello v => exact (untouched_hello member v now).settles all
  | sit v commit asset bb nonce =>
      exact settles_sit lasting all member v commit bb nonce now balances
  | act commit action => exact settles_memberAct lasting all member commit action now
  | paid root txid => exact settles_paid all member root txid now
  | leave commit => exact settles_leave lasting all member commit now
  | challenge v opponent bb nonce =>
      exact (untouched_challenge member v opponent bb nonce now balances).settles all
  | accept commit nonce => exact settles_accept lasting all member commit nonce now balances
  | decline commit => exact (untouched_decline member commit).settles all

/-- Every hand is of the kind that asks nothing. -/
theorem lasting_trivial : Lasting fun _ => True :=
  ⟨fun _ _ _ => trivial, fun _ _ _ _ _ => trivial⟩

/-- A message adds debts of the house to the book and has at most these paid. -/
theorem books_handle
    (member : String)
    (message : ToCitizen)
    (now : Nat)
    (balances : Balances) :
    Books citizen.ledger (citizen.handle setting member message now balances) :=
  (settles_handle lasting_trivial (fun _ _ _ => trivial) member message now balances).books

theorem books_botTurn
    (commit : String)
    (now : Nat) :
    Books citizen.ledger (citizen.botTurn setting commit now) :=
  (settles_botTurn lasting_trivial (fun _ _ _ => trivial) commit now).books

/-! ## The chain and the clock -/

theorem quiet_tick
    (setting : Setting)
    (citizen : Citizen)
    (now : Nat) :
    Quiet citizen.ledger (citizen.tick setting now) :=
  ⟨rfl, pays_map_send _ _ _⟩

theorem quiet_paymentsSeen
    (citizen : Citizen)
    (paid : HandPayments) :
    Quiet citizen.ledger (citizen.paymentsSeen paid) := by
  have noted : ∀ (roots : List String) (ledger : Ledger),
      (roots.foldl Ledger.noteSeen ledger).owing = ledger.owing := by
    intro roots
    induction roots with
    | nil => exact fun _ => rfl
    | cons root roots inductionHypothesis =>
        intro ledger
        refine (inductionHypothesis _).trans ?_
        unfold Ledger.noteSeen
        split <;> rfl
  unfold paymentsSeen
  dsimp only
  refine ⟨noted _ _, ?_⟩
  split <;> rfl

/-- What is due is part of what the house owes. -/
theorem pays_payable
    (setting : Setting)
    (citizen : Citizen)
    (now retryAfter : Nat) :
    (pays (citizen.payable setting now retryAfter)).Sublist
      (citizen.ledger.owing.map Owing.due) := by
  have part : ∀ (owings : List Owing) (left : Nat),
      (pays (duePayments now retryAfter owings left)).Sublist (owings.map Owing.due) := by
    intro owings
    induction owings with
    | nil => exact fun _ => List.Sublist.refl _
    | cons owing owings inductionHypothesis =>
        intro left
        unfold duePayments
        split
        · exact (inductionHypothesis left).cons _
        · exact (inductionHypothesis _).cons_cons _
  exact part _ _

end Citizen

/-! ## The book after a payment -/

/-- A change of one entry that keeps what the entry stands for. -/
theorem map_changeFirst
    {Entry Value : Type}
    (condition : Entry → Bool)
    (change : Entry → Entry)
    (value : Entry → Value)
    (same : ∀ entry, value (change entry) = value entry)
    (entries : List Entry) :
    (changeFirst condition change entries).map value = entries.map value := by
  induction entries with
  | nil => rfl
  | cons entry entries inductionHypothesis =>
      unfold changeFirst
      split
      · rw [List.map_cons, List.map_cons, same]
      · rw [List.map_cons, List.map_cons, inductionHypothesis]

namespace Ledger

variable (ledger : Ledger) (root txid why : String) (now : Nat)

/-- What the house owes, by hands. -/
def dues : List (String × Nat) :=
  ledger.owing.map Owing.due

theorem dues_housePayFailed :
    (ledger.housePayFailed root why now).dues = ledger.dues := by
  unfold dues housePayFailed
  apply map_changeFirst
  exact fun _ => rfl

/-- A payment for a hand takes the first debt for it out of the book. -/
theorem dues_housePaid :
    (ledger.dues.find? (fun due => due.1 == root) = none ∧
        (ledger.housePaid root txid now).1.dues = ledger.dues) ∨
      ∃ due, ledger.dues.find? (fun due => due.1 == root) = some due ∧
        (ledger.housePaid root txid now).1.dues = ledger.dues.eraseP fun due => due.1 == root := by
  unfold dues housePaid
  rw [List.find?_map, List.eraseP_map]
  have sameCondition :
      ((fun due : String × Nat => due.1 == root) ∘ Owing.due) = fun owing => owing.root == root := by
    funext owing
    rfl
  rw [sameCondition]
  cases found : ledger.owing.find? fun owing => owing.root == root with
  | none => exact .inl ⟨rfl, rfl⟩
  | some owing => exact .inr ⟨owing.due, rfl, rfl⟩

end Ledger

namespace Citizen

@[simp] theorem pays_housePaid
    (citizen : Citizen)
    (hero root txid : String)
    (now : Nat) :
    pays (citizen.housePaid hero root txid now).2 = [] := by
  unfold housePaid
  dsimp only
  split <;> rfl

end Citizen

end HouseSeat
end NostrBbs
