import NostrBbs.HouseSeat.Ledger
import NostrBbs.Poker.Verify

/-!
# The house seat

The house's end of the table: one state that serves every member, messages in,
messages and effects out.  A member plays the house's bot, or another member in a
hand that the house deals.
-/

namespace NostrBbs
namespace HouseSeat

open Poker (Action ActionName Digest Hand HandConfig HandRecord LogEntry SeatView isHex64)

/-! ## Messages -/

def version : Nat := 1

/-- The asset a table settles in. -/
inductive Asset where
  | dream
deriving DecidableEq, Repr

/-- One table on offer. -/
structure TableOffer where
  bb : Nat
  sb : Nat
  buyin : Nat
  label : String
deriving DecidableEq, Repr

/-- A debt for a settled hand. -/
structure Debt where
  root : String
  amount : Nat
  since : Nat
deriving DecidableEq, Repr

/-- What a member sends. -/
inductive ToCitizen where
  | hello (v : Nat)
  | sit (v : Nat) (commit : String) (asset : Asset) (bb : Nat) (nonce : String)
  | act (commit : String) (action : Action)
  | paid (root txid : String)
  | leave (commit : Option String)
  | challenge (v : Nat) (opponent : String) (bb : Nat) (nonce : String)
  | accept (commit nonce : String)
  | decline (commit : String)

/-- The tables on offer and a fresh commitment. -/
structure Offer where
  v : Nat
  citizen : String
  script : String
  name : String
  profile : String
  assets : List Asset
  tables : List TableOffer
  commit : String
  owed : List Debt
  owing : List Debt
  dailyCapLeft : Nat
  present : List String

/-- A finished hand as its player is told. -/
structure Done where
  commit : String
  seat : Nat
  opponent : String
  house : Bool
  view : SeatView
  log : List LogEntry
  secret : String
  nonces : List String
  seed : String
  record : HandRecord
  root : String
  buyin : Nat
  settlement : Option Settlement

/-- What a member is sent. -/
inductive ToHero where
  | offer (offer : Offer)
  | challenged (commit challenger : String) (bb buyin expires : Nat)
  | waiting (commit opponent : String) (expires : Nat)
  | declined (commit decliner : String)
  | state (commit : String) (seat : Nat) (opponent : String) (house : Bool) (view : SeatView)
      (log : List LogEntry)
  | done (done : Done)
  | paid (root txid : String)
  | error (commit : Option String) (message : String)

/-- What the runner must do. -/
inductive Effect where
  | send (recipient : String) (message : ToHero)
  | botTurn (commit : String)
  | pay (hero root : String) (amount : Nat)
  | persist

/-! ## The table -/

/-- The member's seat in a hand against the house. -/
def heroSeat : Nat := 0

/-- The house's seat in a hand against the house. -/
def houseSeat : Nat := 1

/-- How long a member counts as present after their last hello, in seconds. -/
def presenceTtl : Nat := 180

/-- How long a challenge waits, in seconds. -/
def challengeTtl : Nat := 120

/-- The table's parameters. -/
structure Config where
  stakesBb : List Nat
  buyinBb : Nat
  profile : String
  dailyCap : Nat
  claimGraceSecs : Nat
  ticker : String

/-- Who the house is. -/
structure House where
  pubkey : String
  scriptHex : String

/-- A character of the house. -/
structure RosterEntry where
  name : String
  profile : String

def roster : List RosterEntry :=
  [⟨"Cmdr. Sterling", "rock"⟩, ⟨"First Mate Wren", "tag"⟩, ⟨"Gunner Halloway", "lag"⟩,
    ⟨"Cook Barnacle", "station"⟩, ⟨"Ensign Puffin", "maniac"⟩]

/-- The first character that plays a profile, else the one that plays `tag`. -/
def pickBot (profile : String) : RosterEntry :=
  (roster.find? fun entry => entry.profile == profile).getD ⟨"First Mate Wren", "tag"⟩

/-- Balances read from the chain for one request. -/
structure Balances where
  heroAsset : Nat
  houseAsset : Nat

/-- A hand in play; the second seat is the house's in a hand against the house. -/
structure Live where
  seats : String × String
  house : Bool
  secret : String
  nonces : List String
  seed : String
  buyin : Nat
  hand : Hand

/-- A challenge that waits for its opponent. -/
structure Challenge where
  challenger : String
  opponent : String
  bb : Nat
  nonce : String
  secret : String
  expires : Nat

/-- One member's standing with the house. -/
structure Session where
  offer : Option (String × String)
  live : Option String
  nextButton : Nat
  seen : Nat

def Session.new : Session :=
  ⟨none, none, 0, 0⟩

/-- What the house seat is given: its parameters, its identity, the digest, the
roots of records and a source of secrets, 32 bytes in hexadecimal each. -/
structure Setting where
  cfg : Config
  house : House
  digest : Digest
  root : HandRecord → Except String String
  secrets : Nat → String

/-- The house seat; `drawn` secrets were taken from the source. -/
structure Citizen where
  sessions : Lib.Table (String × Session) Prod.fst
  hands : Lib.Table (String × Live) Prod.fst
  challenges : Lib.Table (String × Challenge) Prod.fst
  ledger : Ledger
  drawn : Nat

/-- A house seat with a book and no hands. -/
def Citizen.new (ledger : Ledger) : Citizen :=
  ⟨Lib.Table.empty, Lib.Table.empty, Lib.Table.empty, ledger, 0⟩

/-- A state and what the runner must do. -/
abbrev Outcome := Citizen × List Effect

/-- One error message. -/
def err (recipient : String) (commit : Option String) (message : String) : List Effect :=
  [.send recipient (.error commit message)]

namespace Live

/-- The player of a seat. -/
def player (live : Live) (seat : Nat) : String :=
  if seat = 0 then live.seats.1 else live.seats.2

/-- The seat of a player. -/
def seatOf (live : Live) (member : String) : Option Nat :=
  if live.seats.1 = member then some 0
  else if live.seats.2 = member then some 1
  else none

/-- The seats that members hold. -/
def memberSeats (live : Live) : List Nat :=
  if live.house then [0] else [0, 1]

/-- The hand as a seat may see it. -/
def stateFor (live : Live) (commit : String) (seat : Nat) : ToHero :=
  .state commit seat (live.player (1 - seat)) live.house (Poker.seatView live.hand seat)
    live.hand.log

/-- The house is to act. -/
def houseToAct (live : Live) : Bool :=
  live.house && live.hand.toAct == some houseSeat

end Live

namespace Setting

variable (setting : Setting)

def bot : RosterEntry :=
  pickBot setting.cfg.profile

/-- The tables on offer. -/
def stakes : List Stakes :=
  stakesTable setting.cfg.stakesBb setting.cfg.buyinBb

def tables : List TableOffer :=
  setting.stakes.map fun stakes => ⟨stakes.bb, stakes.sb, stakes.buyin, stakes.label⟩

def stakeFor (bb : Nat) : Option Stakes :=
  setting.stakes.find? fun stakes => stakes.bb == bb

end Setting

namespace Citizen

variable (setting : Setting) (citizen : Citizen)

/-! ## Reading -/

def session (member : String) : Option Session :=
  (citizen.sessions.find? member).map Prod.snd

def hand (commit : String) : Option Live :=
  (citizen.hands.find? commit).map Prod.snd

/-- The hand that a member's session names, when it is held. -/
def liveHand (member : String) : Option (String × Live) :=
  ((citizen.session member).bind Session.live).bind citizen.hands.find?

/-- A member is in a hand. -/
def inHand (member : String) : Bool :=
  (citizen.liveHand member).any fun entry => entry.2.hand.inPlay

/-- What the house may still pay out on the day of a time. -/
def capLeft (now : Nat) : Nat :=
  setting.cfg.dailyCap - citizen.ledger.paidToday now

/-- Members who are at the table, other than one, and in no hand. -/
def present (except : String) (now : Nat) : List String :=
  ((citizen.sessions.rows.filter fun entry =>
      entry.1 != except && now - entry.2.seen ≤ presenceTtl && !citizen.inHand entry.1).map
    Prod.fst).mergeSort fun first second => first ≤ second

/-- A debt holds its member back: it was never claimed, or its claim is older than
the grace. -/
def overdue (owed : Owed) (now : Nat) : Bool :=
  match owed.claimed with
  | none => true
  | some claimed => setting.cfg.claimGraceSecs < now - claimed.reportedAt

/-- Why a member may not sit for a hand, if anything. -/
def refusal (member : String) (buyin held now : Nat) : Option String :=
  let ticker := setting.cfg.ticker
  match citizen.ledger.owed.find? fun owed =>
      owed.hero == member && overdue setting owed now with
  | some owed =>
      let why :=
        if owed.claimed.isSome then "the chain has not shown your payment"
        else "it has not been paid"
      let amount := owed.amount
      let root := String.ofList (owed.root.toList.take 12)
      some s!"You still owe {amount} {ticker} for hand {root}…: {why}. Pay it and sit again."
  | none =>
      if held < buyin then
        some s!"You hold {held} {ticker}; this table's buy-in is {buyin}."
      else none

/-! ## Changing -/

/-- A member's session changed, with a new one when there is none. -/
def withSession (member : String) (change : Session → Session) : Citizen :=
  { citizen with
    sessions := citizen.sessions.put
      (member, change ((citizen.session member).getD Session.new)) }

/-- A member's session changed when there is one. -/
def changeSession (member : String) (change : Session → Session) : Citizen :=
  match citizen.session member with
  | none => citizen
  | some session =>
      { citizen with sessions := citizen.sessions.put (member, change session) }

/-- The next secret with its commitment. -/
def freshSecret : Citizen × String × String :=
  let secret := setting.secrets citizen.drawn
  ({ citizen with drawn := citizen.drawn + 1 }, secret, setting.digest.commit secret)

/-- A fresh offer to a member. -/
def offer (member : String) (now : Nat) : Citizen × ToHero :=
  let (drawn, secret, commit) := citizen.freshSecret setting
  let offered := drawn.withSession member fun session =>
    { session with offer := some (secret, commit) }
  (offered,
    .offer
      { v := version
        citizen := setting.house.pubkey
        script := setting.house.scriptHex
        name := setting.bot.name
        profile := setting.bot.profile
        assets := [.dream]
        tables := setting.tables
        commit
        owed := (citizen.ledger.owed.filter fun owed => owed.hero == member).map fun owed =>
          ⟨owed.root, owed.amount, owed.since⟩
        owing := (citizen.ledger.owing.filter fun owing => owing.hero == member).map fun owing =>
          ⟨owing.root, owing.amount, owing.since⟩
        dailyCapLeft := citizen.capLeft setting now
        present := citizen.present member now })

/-! ## Settling -/

/-- The sessions of a finished hand's players no longer name it. -/
def releaseSeat (commit : String) (member : String) : Citizen :=
  citizen.changeSession member fun session =>
    if session.live = some commit then { session with live := none } else session

/-- The end of a hand as a seat is told. -/
def doneFor (commit : String) (live : Live) (record : HandRecord) (root : String) (seat : Nat)
    (settlement : Option Settlement) : Effect :=
  .send (live.player seat)
    (.done
      { commit
        seat
        opponent := live.player (1 - seat)
        house := live.house
        view := Poker.seatView live.hand seat
        log := live.hand.log
        secret := live.secret
        nonces := live.nonces
        seed := live.seed
        record
        root
        buyin := live.buyin
        settlement })

/-- What seat the players of a hand are told of its end, from their side of the
settlement, until one side cannot be settled. -/
def doneMessages (commit : String) (live : Live) (record : HandRecord) (root : String) :
    List Nat → Except (List Effect) (List Effect)
  | [] => .ok []
  | seat :: seats =>
      match settlement true (live.hand.seat seat).stack live.buyin with
      | .error refusal =>
          let why := refusal.message
          .error (err (live.player seat) (some commit) s!"The hand cannot be settled: {why}")
      | .ok settled =>
          match doneMessages commit live record root seats with
          | .error refused => .error refused
          | .ok messages => .ok (doneFor commit live record root seat settled :: messages)

/-- The debt that a settlement, from seat 0's side, puts in the book, and the payment
that the house owes at once. -/
def book (live : Live) (root : String) (now : Nat) (settled : Settlement) :
    Citizen × List Effect :=
  let ledger := citizen.ledger
  let debt (hero creditor : String) : Ledger :=
    { ledger with
      owed := ledger.owed ++ [⟨hero, creditor, root, settled.amount, now, none⟩] }
  match settled.payer with
  | .hero => ({ citizen with ledger := debt live.seats.1 live.seats.2 }, [])
  | .citizen =>
      if live.house then
        let owing : Owing := ⟨live.seats.1, root, settled.amount, now, 0, 0, none⟩
        ({ citizen with ledger := { ledger with owing := ledger.owing ++ [owing] } },
          if settled.amount ≤ citizen.capLeft setting now then
            [.pay live.seats.1 root settled.amount]
          else [])
      else ({ citizen with ledger := debt live.seats.2 live.seats.1 }, [])

/-- Fresh offers to some seats of a hand. -/
def offers (live : Live) (now : Nat) : List Nat → Citizen → Outcome
  | [], citizen => (citizen, [])
  | seat :: seats, citizen =>
      let (citizen, message) := citizen.offer setting (live.player seat) now
      let (citizen, rest) := offers live now seats citizen
      (citizen, .send (live.player seat) message :: rest)

/-- A hand taken off the table and its players' sessions released. -/
def release (commit : String) (live : Live) : Citizen :=
  let citizen := { citizen with hands := citizen.hands.erase commit }
  (citizen.releaseSeat commit live.seats.1).releaseSeat commit live.seats.2

/-- A settled hand put in the book: the history, then the debt. -/
def bookHand (live : Live) (root : String) (now : Nat) : Outcome :=
  let net : Int := ((live.hand.seat 0).stack : Int) - live.buyin
  let citizen :=
    { citizen with ledger := citizen.ledger.settled live.seats.1 root net now }
  match settlement true (live.hand.seat 0).stack live.buyin with
  | .ok (some settled) => citizen.book setting live root now settled
  | _ => (citizen, [])

/-- A finished hand is taken off the table, its players are told, it is put in the
book, and its members get fresh offers. -/
def settle (commit : String) (now : Nat) : Outcome :=
  match citizen.hand commit with
  | none => (citizen, [])
  | some live =>
      let citizen := citizen.release commit live
      match Poker.recordOf live.hand (some [live.seats.1, live.seats.2]) with
      | none =>
          (citizen, err live.seats.1 (some commit) "The hand ended without a result.")
      | some record =>
          match setting.root record with
          | .error why =>
              (citizen, err live.seats.1 (some commit) s!"The record cannot be rooted: {why}")
          | .ok root =>
              match doneMessages commit live record root live.memberSeats with
              | .error refused => (citizen, refused)
              | .ok messages =>
                  let (citizen, payments) := citizen.bookHand setting live root now
                  let (citizen, offered) := offers setting live now live.memberSeats citizen
                  (citizen, messages ++ payments ++ [.persist] ++ offered)

/-- After a hand moved: the players are told, the house's turn is queued, or the hand
is settled. -/
def afterChange (commit : String) (now : Nat) : Outcome :=
  match citizen.hand commit with
  | none => (citizen, [])
  | some live =>
      if live.hand.inPlay then
        (citizen,
          (live.memberSeats.map fun seat =>
              .send (live.player seat) (live.stateFor commit seat)) ++
            if live.houseToAct then [.botTurn commit] else [])
      else citizen.settle setting commit now

/-! ## Dealing -/

/-- A hand that passed the door. -/
structure Deal where
  commit : String
  seats : String × String
  house : Bool
  secret : String
  nonces : List String
  seed : String
  stake : Stakes
  button : Nat

/-- The configuration of a hand to deal. -/
def Deal.config (deal : Deal) : HandConfig where
  seats := [⟨deal.seats.1, deal.stake.buyin⟩, ⟨deal.seats.2, deal.stake.buyin⟩]
  button := deal.button
  sb := deal.stake.sb
  bb := deal.stake.bb
  ante := 0
  seedHex := deal.seed
  limit := true

/-- The players of a hand whose sessions name it. -/
def Deal.members (deal : Deal) : List String :=
  [deal.seats.1, deal.seats.2].filter fun player =>
    !deal.house || player != setting.house.pubkey

/-- A dealt hand put on the table and named by its players' sessions. -/
def seatHand (deal : Deal) (hand : Hand) : Citizen :=
  let citizen := (deal.members setting).foldl
    (fun citizen member => citizen.withSession member fun session =>
      { session with live := some deal.commit }) citizen
  { citizen with
    hands := citizen.hands.put
      (deal.commit,
        { seats := deal.seats
          house := deal.house
          secret := deal.secret
          nonces := deal.nonces
          seed := deal.seed
          buyin := deal.stake.buyin
          hand }) }

def deal (deal : Deal) (now : Nat) : Outcome :=
  match Poker.newHand deal.config with
  | .error refusal =>
      let why := refusal.message
      (citizen, err deal.seats.1 (some deal.commit) s!"The deal failed: {why}")
  | .ok hand => (citizen.seatHand setting deal hand).afterChange setting deal.commit now

def badNonce : String :=
  "Your nonce must be 64 lowercase hex characters."

def badVersion (v : Nat) : String :=
  s!"This table speaks protocol {version}, not {v}."

/-- What a request to sit comes to: a refusal, or a hand to deal. -/
def sitDeal (member : String) (v : Nat) (commit : String) (bb : Nat) (nonce : String)
    (now : Nat) (balances : Balances) : Except Outcome (Citizen × Deal) :=
  let refuse (citizen : Citizen) (message : String) : Except Outcome (Citizen × Deal) :=
    .error (citizen, err member (some commit) message)
  if v ≠ version then refuse citizen (badVersion v)
  else if !isHex64 nonce then refuse citizen badNonce
  else
    match setting.stakeFor bb with
    | none => refuse citizen s!"No table at a big blind of {bb}."
    | some stake =>
        if citizen.inHand member then refuse citizen "You are already in a hand."
        else
          let seen := citizen.withSession member fun session => { session with seen := now }
          match (seen.session member).bind Session.offer with
          | none => refuse seen "Ask for an offer first."
          | some (secret, offered) =>
              -- the offer is used up whatever comes next
              let taken := seen.withSession member fun session => { session with offer := none }
              if offered ≠ commit then
                let (citizen, message) := taken.offer setting member now
                .error (citizen,
                  err member (some commit) "That offer has expired; here is a new one." ++
                    [.send member message])
              else
                match taken.refusal setting member stake.buyin balances.heroAsset now with
                | some why => refuse taken why
                | none =>
                    if balances.houseAsset - taken.ledger.owingTotal < stake.buyin then
                      refuse taken "The house cannot cover this buy-in right now."
                    else if taken.capLeft setting now < stake.buyin then
                      refuse taken
                        "The house has paid out its daily limit; the table reopens tomorrow."
                    else
                      let button := ((taken.session member).getD Session.new).nextButton
                      let dealt := taken.withSession member fun session =>
                        { session with
                          nextButton := if button = heroSeat then houseSeat else heroSeat }
                      .ok (dealt,
                        { commit
                          seats := (member, setting.house.pubkey)
                          house := true
                          secret
                          nonces := [nonce]
                          seed := setting.digest.seedOfMany secret [nonce]
                          stake
                          button })

def sit (member : String) (v : Nat) (commit : String) (bb : Nat) (nonce : String)
    (now : Nat) (balances : Balances) : Outcome :=
  match citizen.sitDeal setting member v commit bb nonce now balances with
  | .error outcome => outcome
  | .ok (citizen, deal) => citizen.deal setting deal now

/-! ## Challenges -/

def challenge (challenger : String) (v : Nat) (opponent : String) (bb : Nat) (nonce : String)
    (now : Nat) (balances : Balances) : Outcome :=
  if v ≠ version then (citizen, err challenger none (badVersion v))
  else if !isHex64 nonce then (citizen, err challenger none badNonce)
  else if opponent = challenger ∨ opponent = setting.house.pubkey then
    (citizen, err challenger none "Challenge another member; the house deals this hand.")
  else
    match setting.stakeFor bb with
    | none => (citizen, err challenger none s!"No table at a big blind of {bb}.")
    | some stake =>
        if citizen.inHand challenger then
          (citizen, err challenger none "You are already in a hand.")
        else
          let seen := citizen.withSession challenger fun session => { session with seen := now }
          if !(seen.present challenger now).contains opponent then
            (seen, err challenger none "That member is not at the table right now.")
          else
            match seen.refusal setting challenger stake.buyin balances.heroAsset now with
            | some why => (seen, err challenger none why)
            | none =>
                if seen.challenges.rows.any fun entry =>
                    entry.2.challenger == challenger && now < entry.2.expires then
                  (seen, err challenger none "Your last challenge is still waiting.")
                else
                  let (drawn, secret, commit) := seen.freshSecret setting
                  let expires := now + challengeTtl
                  ({ drawn with
                      challenges := drawn.challenges.put
                        (commit, ⟨challenger, opponent, bb, nonce, secret, expires⟩) },
                    [.send opponent (.challenged commit challenger bb stake.buyin expires),
                      .send challenger (.waiting commit opponent expires)])

/-- What an acceptance comes to: a refusal, or a hand to deal. -/
def acceptDeal (member : String) (commit nonce : String) (now : Nat) (balances : Balances) :
    Except Outcome (Citizen × Deal) :=
  let refuse (citizen : Citizen) (message : String) : Except Outcome (Citizen × Deal) :=
    .error (citizen, err member (some commit) message)
  match (citizen.challenges.find? commit).map Prod.snd with
  | none => refuse citizen "That challenge is no longer open."
  | some offered =>
      if offered.opponent ≠ member then refuse citizen "That challenge is not yours to accept."
      else if offered.expires < now then
        .error ({ citizen with challenges := citizen.challenges.erase commit },
          err member (some commit) "That challenge has lapsed." ++
            [.send offered.challenger (.declined commit setting.house.pubkey)])
      else if !isHex64 nonce then refuse citizen badNonce
      else
        match setting.stakeFor offered.bb with
        | none => refuse citizen "That table is no longer offered."
        | some stake =>
            if citizen.inHand member || citizen.inHand offered.challenger then
              refuse citizen "One of you is already in a hand."
            else
              let seen := citizen.withSession member fun session => { session with seen := now }
              match seen.refusal setting member stake.buyin balances.heroAsset now with
              | some why => refuse seen why
              | none =>
                  .ok ({ seen with challenges := seen.challenges.erase commit },
                    { commit
                      seats := (offered.challenger, member)
                      house := false
                      secret := offered.secret
                      nonces := [offered.nonce, nonce]
                      seed := setting.digest.seedOfMany offered.secret [offered.nonce, nonce]
                      stake
                      -- the challenger has the button
                      button := 0 })

def accept (member : String) (commit nonce : String) (now : Nat) (balances : Balances) :
    Outcome :=
  match citizen.acceptDeal setting member commit nonce now balances with
  | .error outcome => outcome
  | .ok (citizen, deal) => citizen.deal setting deal now

def decline (member commit : String) : Outcome :=
  match (citizen.challenges.find? commit).map Prod.snd with
  | none => (citizen, [])
  | some offered =>
      if offered.opponent ≠ member then (citizen, [])
      else
        ({ citizen with challenges := citizen.challenges.erase commit },
          [.send offered.challenger (.declined commit member)])

/-! ## Acting -/

/-- A hand on the table replaced by what an action left of it. -/
def moveHand (commit : String) (live : Live) (hand : Hand) : Citizen :=
  { citizen with hands := citizen.hands.put (commit, { live with hand }) }

def memberAct (member commit : String) (action : Action) (now : Nat) : Outcome :=
  let refuse (message : String) : Outcome := (citizen, err member (some commit) message)
  match citizen.hand commit with
  | none => refuse "That is not a hand in play."
  | some live =>
      match live.seatOf member with
      | none => refuse "You are not in that hand."
      | some seat =>
          if action.seat ≠ seat then refuse "You may only act for your own seat."
          else if !live.hand.inPlay || live.hand.toAct != some seat then
            refuse "It is not your turn."
          else
            match Poker.act live.hand action with
            | .error refusal => refuse refusal.message
            | .ok hand => (citizen.moveHand commit live hand).afterChange setting commit now

/-- The house's action in a hand. -/
def botAction (live : Live) (envelope : Poker.Legal) : Action :=
  match Poker.Rng.fromSeed (setting.digest.botSeed live.seed live.hand.log.length) with
  | .ok rng =>
      Poker.decide (Poker.seatView live.hand houseSeat) envelope setting.bot.profile rng
  | .error _ => ⟨houseSeat, if envelope.allows .check then .check else .fold, none⟩

/-- The house's turn in a hand, if it is its turn. -/
def botTurn (commit : String) (now : Nat) : Outcome :=
  match citizen.hand commit with
  | none => (citizen, [])
  | some live =>
      if !live.house || !live.hand.inPlay || live.hand.toAct != some houseSeat then (citizen, [])
      else
        match Poker.legal live.hand with
        | none => (citizen, [])
        | some envelope =>
            match Poker.act live.hand (botAction setting live envelope) with
            | .error refusal =>
                let why := refusal.message
                (citizen, err live.seats.1 (some commit) s!"The house could not act: {why}")
            | .ok hand => (citizen.moveHand commit live hand).afterChange setting commit now

/-! ## Messages -/

def hello (member : String) (v now : Nat) : Outcome :=
  if v ≠ version then (citizen, err member none (badVersion v))
  else
    let seen := citizen.withSession member fun session => { session with seen := now }
    let offered :=
      let (citizen, message) := seen.offer setting member now
      (citizen, [.send member message])
    match seen.liveHand member with
    | none => offered
    | some (commit, live) =>
        if live.hand.inPlay then
          -- a reload in the middle of a hand: it is shown again
          (seen,
            .send member (live.stateFor commit ((live.seatOf member).getD heroSeat)) ::
              if live.houseToAct then [.botTurn commit] else [])
        else offered

/-- A member reports a payment. -/
def paid (member root txid : String) (now : Nat) : Outcome :=
  if !isHex64 root || txid.utf8ByteSize != 64 then (citizen, [])
  else
    let (ledger, found) := citizen.ledger.claim member root txid now
    if found then ({ citizen with ledger }, [.persist]) else (citizen, [])

/-- Leaving a hand is folding it, on one's own turn. -/
def leave (member : String) (commit : Option String) (now : Nat) : Outcome :=
  let mine := commit.filter fun commit =>
    citizen.inHand member && (citizen.session member).bind Session.live == some commit
  let (citizen, effects) :=
    match mine.bind fun commit => (citizen.hand commit).map fun live => (commit, live) with
    | none => (citizen, [])
    | some (commit, live) =>
        let seat := (live.seatOf member).getD heroSeat
        if live.hand.toAct = some seat then
          citizen.memberAct setting member commit ⟨seat, .fold, none⟩ now
        else (citizen, [])
  (citizen.changeSession member fun session => { session with offer := none, seen := 0 }, effects)

def handle (member : String) (message : ToCitizen) (now : Nat) (balances : Balances) : Outcome :=
  match message with
  | .hello v => citizen.hello setting member v now
  | .sit v commit _ bb nonce => citizen.sit setting member v commit bb nonce now balances
  | .act commit action => citizen.memberAct setting member commit action now
  | .paid root txid => citizen.paid member root txid now
  | .leave commit => citizen.leave setting member commit now
  | .challenge v opponent bb nonce =>
      citizen.challenge setting member v opponent bb nonce now balances
  | .accept commit nonce => citizen.accept setting member commit nonce now balances
  | .decline commit => citizen.decline member commit

/-! ## The chain and the clock -/

def paymentsSeen (paid : HandPayments) : Outcome :=
  let (ledger, cleared) := citizen.ledger.paymentsSeen paid
  ({ citizen with ledger }, if cleared = [] then [] else [.persist])

def housePaid (hero root txid : String) (now : Nat) : Outcome :=
  let (ledger, amount) := citizen.ledger.housePaid root txid now
  ({ citizen with ledger },
    if amount.isNone then [] else [.send hero (.paid root txid), .persist])

def housePayFailed (root why : String) (now : Nat) : Outcome :=
  ({ citizen with ledger := citizen.ledger.housePayFailed root why now }, [.persist])

/-- Payments that are due, within what is left of the daily cap. -/
def duePayments (now retryAfter : Nat) : List Owing → Nat → List Effect
  | [], _ => []
  | owing :: rest, left =>
      if left < owing.amount ∨ now - owing.lastAttempt < retryAfter then
        duePayments now retryAfter rest left
      else
        .pay owing.hero owing.root owing.amount ::
          duePayments now retryAfter rest (left - owing.amount)

/-- What the house owes and may pay now. -/
def payable (now retryAfter : Nat) : List Effect :=
  duePayments now retryAfter citizen.ledger.owing (citizen.capLeft setting now)

/-- Old challenges lapse and stale sessions are forgotten. -/
def tick (now : Nat) : Outcome :=
  let lapsed := citizen.challenges.rows.filter fun entry => entry.2.expires < now
  ({ citizen with
      challenges := citizen.challenges.retain fun entry => !(entry.2.expires < now)
      sessions := citizen.sessions.retain fun entry =>
        entry.2.live.isSome || now - entry.2.seen ≤ presenceTtl * 10 },
    lapsed.map fun entry =>
      .send entry.2.challenger (.declined entry.1 setting.house.pubkey))

/-! ## Runs -/

/-- What reaches the house seat. -/
inductive Input where
  | message (member : String) (message : ToCitizen) (now : Nat) (balances : Balances)
  | botTurn (commit : String) (now : Nat)
  | paymentsSeen (paid : HandPayments)
  | housePaid (hero root txid : String) (now : Nat)
  | housePayFailed (root why : String) (now : Nat)
  | tick (now : Nat)

def receive (input : Input) : Outcome :=
  match input with
  | .message member message now balances => citizen.handle setting member message now balances
  | .botTurn commit now => citizen.botTurn setting commit now
  | .paymentsSeen paid => citizen.paymentsSeen paid
  | .housePaid hero root txid now => citizen.housePaid hero root txid now
  | .housePayFailed root why now => citizen.housePayFailed root why now
  | .tick now => citizen.tick setting now

def step (input : Input) : Citizen :=
  (citizen.receive setting input).1

end Citizen

end HouseSeat
end NostrBbs
