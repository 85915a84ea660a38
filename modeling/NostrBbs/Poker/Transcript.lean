import NostrBbs.Poker.Decisions
import NostrBbs.Lib.Run

/-!
# Transcripts are complete

The record of a hand is replayed entry by entry to the hand it was taken from, up
to the names of the seats.  A transcript is rejected exactly when the house made a
decision that no record keeps.
-/

namespace NostrBbs
namespace Poker

/-! ## Playing against the house -/

section

variable (digest : Digest) (house : Option Nat) (profileName seed : String)

/-- An accepted action; the house's is the bot's decision under the seed of its
turn. -/
def HousePlays (hand : Hand) (action : Action) : Prop :=
  (∃ next, act hand action = .ok next) ∧
    (house = some action.seat →
      botDecide hand action.seat profileName (digest.botSeed seed hand.log.length) = .ok action)

/-- The bot of a seat goes in before the flop by a call. -/
def Hand.shovesIntoCall (hand : Hand) (seat : Nat) (profileName seedHex : String) : Bool :=
  match legal hand with
  | none => false
  | some envelope =>
      match Rng.fromSeed seedHex with
      | .error _ => false
      | .ok rng => (seatView hand seat).shovesIntoCall envelope profileName rng

/-- The house does not go in by a call in its turn. -/
def HouseKept (hand : Hand) (action : Action) : Prop :=
  house = some action.seat →
    hand.shovesIntoCall action.seat profileName (digest.botSeed seed hand.log.length) = false

instance (hand : Hand) (action : Action) :
    Decidable (HousePlays digest house profileName seed hand action) :=
  decidable_of_iff
    ((act hand action).isOk = true ∧
      (house = some action.seat →
        (botDecide hand action.seat profileName
          (digest.botSeed seed hand.log.length)).toOption = some action)) <| by
    unfold HousePlays
    refine and_congr ?_ (forall_congr' fun _ => ?_)
    · cases act hand action <;> simp [Except.isOk, Except.toBool]
    · cases botDecide hand action.seat profileName (digest.botSeed seed hand.log.length) <;>
        simp [Except.toOption]

instance (hand : Hand) (action : Action) :
    Decidable (HouseKept digest house profileName seed hand action) :=
  inferInstanceAs (Decidable (_ → _))

/-- A bot's decision is kept by the record unless it goes in by a call. -/
theorem botDecide_recorded_iff
    {hand : Hand}
    {seat : Nat}
    {seedHex : String}
    {action : Action}
    (decides : botDecide hand seat profileName seedHex = .ok action) :
    action.recorded = action ↔ hand.shovesIntoCall seat profileName seedHex = false := by
  unfold botDecide at decides
  split at decides
  · cases decides
  · rename_i envelope isLegal
    split at decides
    · cases decides
    · rename_i rng seeded
      obtain rfl := Except.ok.inj decides
      unfold Hand.shovesIntoCall
      rw [isLegal, seeded]
      exact decide_recorded_iff ..

end

/-! ## Replaying one entry -/

section

variable {digest : Digest} {claim : Claim} {index : Nat} {hand : Hand} {expectedStreet : Nat}

theorem checkHouse_ok_iff
    {action : Action} :
    checkHouse digest rustEngine claim index hand action = .ok () ↔
      (claim.houseSeat = some action.seat →
        botDecide hand action.seat claim.profile (digest.botSeed claim.seed hand.log.length) =
          .ok action) := by
  have asked : rustEngine.botDecide hand action.seat claim.profile
      (digest.botSeed claim.seed hand.log.length) =
        botDecide hand action.seat claim.profile
          (digest.botSeed claim.seed hand.log.length) := rfl
  unfold checkHouse
  rw [asked]
  split
  · rename_i isHouse
    cases decides : botDecide hand action.seat claim.profile
        (digest.botSeed claim.seed hand.log.length) with
    | error why => simp [isHouse]
    | ok expected =>
        dsimp only
        split
        · rename_i other
          simp [isHouse, other]
        · rename_i same
          rw [not_not] at same
          simp [same]
  · rename_i notHouse
    exact iff_of_true rfl fun isHouse => absurd isHouse.symm notHouse

/-- An action is replayed when it is due, is the bot's where the house acts, and
the engine accepts it. -/
theorem replayEntry_act_ok_iff
    {seat : Nat}
    {act : Act}
    {raisedTo amount : Option Nat}
    {next : Hand}
    {reached : Nat} :
    replayEntry digest rustEngine claim index hand expectedStreet (.act seat act raisedTo amount) =
        .ok (next, reached) ↔
      hand.inPlay ∧ hand.street = expectedStreet ∧ reached = expectedStreet ∧
        (claim.houseSeat = some seat →
          botDecide hand seat claim.profile (digest.botSeed claim.seed hand.log.length) =
            .ok (act.action seat raisedTo)) ∧
        Poker.act hand (act.action seat raisedTo) = .ok next := by
  have engine : rustEngine.act hand (act.action seat raisedTo) =
      (Poker.act hand (act.action seat raisedTo)).mapError EngineError.message := rfl
  have checked : checkHouse digest rustEngine claim index hand (act.action seat raisedTo) =
      .ok () ↔ (claim.houseSeat = some seat → botDecide hand seat claim.profile
        (digest.botSeed claim.seed hand.log.length) = .ok (act.action seat raisedTo)) :=
    checkHouse_ok_iff
  unfold replayEntry
  rw [← checked]
  cases playing : hand.inPlay with
  | false => simp
  | true =>
      dsimp only
      rw [if_neg (by simp)]
      split
      · rename_i elsewhere
        simp [elsewhere]
      · rename_i here
        rw [not_not] at here
        split
        · rename_i refusal refused
          simp [refused]
        · rename_i isBot
          rw [engine]
          cases accepted : Poker.act hand (act.action seat raisedTo) with
          | error refusal => simp [Except.mapError]
          | ok advanced =>
              simp only [Except.mapError, Except.ok.injEq, Prod.mk.injEq, here, isBot, true_and]
              exact ⟨fun same => ⟨same.2.symm, same.1⟩, fun same => ⟨same.2, same.1.symm⟩⟩

theorem replayEntry_street_ok_iff
    {street : BoardStreet}
    {next : Hand}
    {reached : Nat} :
    replayEntry digest rustEngine claim index hand expectedStreet (.street street) =
        .ok (next, reached) ↔
      street.index ≤ hand.street ∧ street.index = expectedStreet + 1 ∧ next = hand ∧
        reached = street.index := by
  unfold replayEntry
  dsimp only
  split
  · rename_i misplaced
    simp only [reduceCtorEq, false_iff, not_and]
    omega
  · rename_i placed
    rw [not_or, not_lt, not_not] at placed
    rw [Except.ok.injEq, Prod.mk.injEq]
    exact ⟨fun same => ⟨placed.1, placed.2, same.1.symm, same.2.symm⟩,
      fun same => ⟨same.2.2.1.symm, same.2.2.2.symm⟩⟩

theorem replay_cons_ok_iff
    {entry : HandAction}
    {entries : List HandAction}
    {final : Hand} :
    replay digest rustEngine claim index (entry :: entries) hand expectedStreet = .ok final ↔
      ∃ next reached, replayEntry digest rustEngine claim index hand expectedStreet entry =
          .ok (next, reached) ∧
        replay digest rustEngine claim (index + 1) entries next reached = .ok final := by
  conv_lhs => unfold replay
  split
  · rename_i refusal refused
    simp [refused]
  · rename_i next reached accepted
    simp [accepted]

end

/-! ## Replaying a hand -/

theorem step_of_ok
    {hand next : Hand}
    {action : Action}
    (accepted : act hand action = .ok next) :
    step hand action = next := by
  unfold step
  rw [accepted]

section

variable (digest : Digest) (claim : Claim)

/-- The entry of a played action is replayed to the same hand, unless the record
does not keep the house's decision. -/
theorem replayEntry_played_iff
    {hand next : Hand}
    {action : Action}
    {act : Act}
    {raisedTo amount : Option Nat}
    (accepted : Poker.act hand action = .ok next)
    (again : act.action action.seat raisedTo = action.recorded)
    (decided : claim.houseSeat = some action.seat → botDecide hand action.seat claim.profile
      (digest.botSeed claim.seed hand.log.length) = .ok action)
    (index : Nat)
    (replayed : Hand)
    (reached : Nat) :
    replayEntry digest rustEngine claim index hand hand.street
        (.act action.seat act raisedTo amount) = .ok (replayed, reached) ↔
      HouseKept digest claim.houseSeat claim.profile claim.seed hand action ∧
        replayed = next ∧ reached = hand.street := by
  have inPlay : hand.inPlay = true := by simp [Hand.inPlay, (act_ok accepted).1]
  have kept : (claim.houseSeat = some action.seat →
      botDecide hand action.seat claim.profile (digest.botSeed claim.seed hand.log.length) =
        .ok action.recorded) ↔
      HouseKept digest claim.houseSeat claim.profile claim.seed hand action := by
    refine forall_congr' fun isHouse => ?_
    rw [← botDecide_recorded_iff claim.profile (decided isHouse), decided isHouse,
      Except.ok.injEq]
    exact eq_comm
  rw [replayEntry_act_ok_iff, again, kept, act_recorded accepted, Except.ok.injEq]
  constructor
  · rintro ⟨-, -, rfl, isKept, rfl⟩
    exact ⟨isKept, rfl, rfl⟩
  · rintro ⟨isKept, rfl, rfl⟩
    exact ⟨inPlay, rfl, rfl, isKept, rfl⟩

/-- A marker that a hand was given falls where the replay dealt its street. -/
theorem replayEntry_marker
    {hand : Hand}
    {street : BoardStreet}
    {before : Nat}
    (isNext : street.index = before + 1)
    (reached : hand.street = street.index)
    (index : Nat) :
    replayEntry digest rustEngine claim index hand before (.street street) =
      .ok (hand, hand.street) :=
  replayEntry_street_ok_iff.mpr ⟨reached.ge, isNext, rfl, reached⟩

/-- The entries that a played hand adds are replayed to the hand it ends in,
exactly when the record keeps all of the house's decisions. -/
theorem replay_played_iff
    {hand : Hand}
    (inOrder : hand.InOrder)
    {actions : List Action}
    (plays : Lib.Along step (HousePlays digest claim.houseSeat claim.profile claim.seed)
      hand actions) :
    ∃ entries, (Lib.run step hand actions).marks = hand.marks ++ entries ∧
      ∀ index final,
        replay digest rustEngine claim index entries hand hand.street = .ok final ↔
          Lib.Along step (HouseKept digest claim.houseSeat claim.profile claim.seed)
              hand actions ∧
            final = Lib.run step hand actions := by
  induction actions generalizing hand with
  | nil =>
      refine ⟨[], (List.append_nil _).symm, fun index final => ?_⟩
      unfold replay
      rw [Except.ok.injEq, Lib.run_nil]
      exact ⟨fun same => ⟨trivial, same.symm⟩, fun same => same.2.symm⟩
  | cons action actions inductionHypothesis =>
      obtain ⟨⟨⟨next, accepted⟩, decided⟩, later⟩ := plays
      have stepped := step_of_ok accepted
      have nextInOrder : next.InOrder := stepped ▸ inOrder_step hand action inOrder
      rw [stepped] at later
      obtain ⟨entries, marks, replays⟩ := inductionHypothesis nextInOrder later
      obtain ⟨act, raisedTo, amount, marked, again⟩ := act_marked inOrder accepted
      have entryIff : ∀ index replayed reached,
          replayEntry digest rustEngine claim index hand hand.street
              (.act action.seat act raisedTo amount) = .ok (replayed, reached) ↔
            HouseKept digest claim.houseSeat claim.profile claim.seed hand action ∧
              replayed = next ∧ reached = hand.street :=
        replayEntry_played_iff digest claim accepted again decided
      -- the rest is replayed from the street that the markers have reached
      have restIff : ∀ rest, (∀ index final,
          replay digest rustEngine claim index rest next hand.street = .ok final ↔
            Lib.Along step (HouseKept digest claim.houseSeat claim.profile claim.seed)
                next actions ∧ final = Lib.run step next actions) →
          ∀ index final, replay digest rustEngine claim index
              (.act action.seat act raisedTo amount :: rest) hand hand.street = .ok final ↔
            Lib.Along step (HouseKept digest claim.houseSeat claim.profile claim.seed)
                hand (action :: actions) ∧
              final = Lib.run step next actions := by
        intro rest isRest index final
        rw [replay_cons_ok_iff]
        unfold Lib.Along
        rw [stepped]
        constructor
        · rintro ⟨replayed, reached, isEntry, rested⟩
          obtain ⟨kept, rfl, rfl⟩ := (entryIff index replayed reached).mp isEntry
          obtain ⟨laterKept, isFinal⟩ := (isRest (index + 1) final).mp rested
          exact ⟨⟨kept, laterKept⟩, isFinal⟩
        · rintro ⟨⟨kept, laterKept⟩, isFinal⟩
          exact ⟨next, hand.street, (entryIff index next hand.street).mpr ⟨kept, rfl, rfl⟩,
            (isRest (index + 1) final).mpr ⟨laterKept, isFinal⟩⟩
      rw [Lib.run_cons, stepped]
      cases marked with
      | ended phase nextMarks =>
          -- no action is accepted after the end
          cases actions with
          | cons other actions =>
              obtain ⟨⟨⟨_, accepted⟩, _⟩, _⟩ := later
              rw [act_of_done phase] at accepted
              cases accepted
          | nil =>
              refine ⟨_, nextMarks, restIff [] fun index final => ?_⟩
              unfold replay
              rw [Except.ok.injEq, Lib.run_nil]
              exact ⟨fun same => ⟨trivial, same.symm⟩, fun same => same.2.symm⟩
      | sameStreet phase street nextMarks =>
          refine ⟨_, ?_, restIff entries fun index final => street ▸ replays index final⟩
          rw [marks, nextMarks, List.append_assoc]
          rfl
      | newStreet street phase isNext reached nextMarks =>
          refine ⟨_, ?_, restIff (.street street :: entries) fun index final => ?_⟩
          · rw [marks, nextMarks, List.append_assoc]
            rfl
          · have marker := replayEntry_marker digest claim isNext reached index
            rw [replay_cons_ok_iff, marker, ← replays (index + 1) final]
            constructor
            · rintro ⟨replayed, street, isMarker, rested⟩
              obtain ⟨rfl, rfl⟩ := Prod.mk.inj (Except.ok.inj isMarker)
              exact rested
            · intro rested
              exact ⟨next, next.street, rfl, rested⟩

/-! ## Names -/

theorem checkHouse_unnamed
    (index : Nat)
    (hand : Hand)
    (action : Action) :
    checkHouse digest rustEngine claim index hand.unnamed action =
      checkHouse digest rustEngine claim index hand action := by
  have asked : ∀ seedHex, rustEngine.botDecide hand.unnamed action.seat claim.profile seedHex =
      rustEngine.botDecide hand action.seat claim.profile seedHex :=
    botDecide_unnamed hand action.seat claim.profile
  have log : hand.unnamed.log = hand.log := rfl
  unfold checkHouse
  rw [log, asked]

theorem replayEntry_unnamed
    (index : Nat)
    (hand : Hand)
    (expectedStreet : Nat)
    (entry : HandAction) :
    replayEntry digest rustEngine claim index hand.unnamed expectedStreet entry =
      (replayEntry digest rustEngine claim index hand expectedStreet entry).map
        (Prod.map Hand.unnamed id) := by
  have onStreet : hand.unnamed.street = hand.street := rfl
  cases entry with
  | street street =>
      unfold replayEntry
      dsimp only
      rw [onStreet]
      split <;> rfl
  | act seat act raisedTo amount =>
      have engine : ∀ (hand : Hand) (action : Action), rustEngine.act hand action =
          (Poker.act hand action).mapError EngineError.message := fun _ _ => rfl
      unfold replayEntry
      dsimp only
      rw [Hand.inPlay_unnamed, onStreet, checkHouse_unnamed, engine, engine, Hand.act_unnamed]
      split
      · rfl
      · split
        · rfl
        · split
          · rfl
          · cases Poker.act hand (act.action seat raisedTo) <;> rfl

/-- Replaying commutes with forgetting the names. -/
theorem replay_unnamed
    (entries : List HandAction)
    (index : Nat)
    (hand : Hand)
    (expectedStreet : Nat) :
    replay digest rustEngine claim index entries hand.unnamed expectedStreet =
      (replay digest rustEngine claim index entries hand expectedStreet).map Hand.unnamed := by
  induction entries generalizing index hand expectedStreet with
  | nil => rfl
  | cons entry entries inductionHypothesis =>
      unfold replay
      rw [replayEntry_unnamed]
      cases replayEntry digest rustEngine claim index hand expectedStreet entry with
      | error refusal => rfl
      | ok replayed => exact inductionHypothesis (index + 1) replayed.1 replayed.2

end

/-- The part of a record that a verifier compares. -/
structure Pinned where
  seats : List HandSeat
  board : List String
  result : RecordResult
  actions : List HandAction
deriving DecidableEq

def HandRecord.pinned (record : HandRecord) : Pinned where
  seats := record.strip.seats
  board := record.board
  result := record.result
  actions := record.actions

theorem compareRecords_ok_iff
    (replayed record : HandRecord) :
    compareRecords replayed.strip record.strip = .ok () ↔ replayed.pinned = record.pinned := by
  unfold compareRecords HandRecord.pinned
  rw [Pinned.mk.injEq]
  change (if replayed.strip.seats ≠ record.strip.seats then
      Except.error (VerifyError.mismatch "hole cards or start stacks")
    else if replayed.board ≠ record.board then .error (.mismatch "board")
    else if replayed.result ≠ record.result then .error (.mismatch "result")
    else if replayed.actions ≠ record.actions then .error (.mismatch "actions")
    else .ok ()) = .ok () ↔ _
  split
  · rename_i different
    simp [different]
  · split
    · rename_i different
      simp [different]
    · split
      · rename_i different
        simp [different]
      · split
        · rename_i different
          simp [different]
        · simp_all

/-- What a verifier has checked of a hand that it accepts. -/
theorem verify_ok_iff
    {digest : Digest}
    {claim : Claim}
    {final : Hand} :
    verify digest rustEngine claim = .ok final ↔
      digest.checkCommit claim.secret claim.commit ∧
        digest.seedOfMany claim.secret claim.nonces = claim.seed ∧
        claim.record.seed = claim.seed ∧
        ∃ dealt, newHand claim.record.config = .ok dealt ∧
          replay digest rustEngine claim 0 claim.record.actions dealt 0 = .ok final ∧
          final.inPlay = false ∧
          ∃ replayed, recordOf final none = some replayed ∧
            replayed.pinned = claim.record.pinned := by
  have engine : rustEngine.newHand claim.record.config =
      (newHand claim.record.config).mapError EngineError.message := rfl
  unfold verify
  rw [engine]
  split
  · rename_i uncommitted
    simp_all
  · rename_i committed
    split
    · rename_i otherSeed
      simp [otherSeed]
    · rename_i seed
      split
      · rename_i otherRecord
        simp [otherRecord]
      · rename_i recordSeed
        rw [not_not] at seed recordSeed
        have isCommitted : digest.checkCommit claim.secret claim.commit = true := by
          simpa using committed
        simp only [isCommitted, seed, recordSeed, true_and]
        cases newHand claim.record.config with
        | error refusal => simp [Except.mapError]
        | ok dealt =>
            simp only [Except.mapError, Except.ok.injEq, exists_eq_left']
            cases replay digest rustEngine claim 0 claim.record.actions dealt 0 with
            | error refusal => simp
            | ok ended =>
                dsimp only
                rw [Except.ok.injEq]
                by_cases playing : ended.inPlay = true
                · rw [if_pos playing]
                  refine iff_of_false (by simp) ?_
                  rintro ⟨rfl, isOver, -⟩
                  rw [playing] at isOver
                  cases isOver
                · rw [if_neg playing]
                  cases recorded : recordOf ended none with
                  | none =>
                      refine iff_of_false (by simp) ?_
                      rintro ⟨rfl, -, replayed, isReplayed, -⟩
                      rw [recorded] at isReplayed
                      cases isReplayed
                  | some replayed =>
                      dsimp only
                      have compared := compareRecords_ok_iff replayed claim.record
                      cases outcome : compareRecords replayed.strip claim.record.strip with
                      | error refusal =>
                          refine iff_of_false (by simp) ?_
                          rintro ⟨rfl, -, other, isReplayed, pinned⟩
                          obtain rfl := Option.some.inj (recorded.symm.trans isReplayed)
                          rw [outcome] at compared
                          cases compared.mpr pinned
                      | ok same =>
                          rw [Except.ok.injEq]
                          constructor
                          · rintro rfl
                            exact ⟨rfl, by simpa using playing, replayed, recorded,
                              compared.mp outcome⟩
                          · exact fun isFinal => isFinal.1

/-- The compared part of the record of a hand. -/
def Hand.pinned (hand : Hand) (result : HandResult) : Pinned where
  seats := hand.seats.map fun seat => seat.record (some "")
  board := hand.board.map cardCode
  result :=
    { showdown := result.showdown
      pot := (result.pots.map Pot.amount).sum
      winners := result.winners }
  actions := hand.marks

/-- What is compared of a record does not depend on the names. -/
theorem recordOf_pinned
    (hand : Hand)
    (names : Option (List String)) :
    (recordOf hand names).map HandRecord.pinned =
      hand.unnamed.result.map hand.unnamed.pinned := by
  have seats : (hand.seats.mapIdx fun index seat =>
      seat.record (names.bind fun names => names[index]?)).map
        (fun seat => { seat with name := "" }) =
      (hand.seats.map Seat.unnamed).map fun seat => seat.record (some "") := by
    apply List.ext_getElem?
    intro index
    simp only [List.getElem?_map, List.getElem?_mapIdx, Option.map_map]
    rfl
  unfold recordOf
  rw [Option.map_map]
  have result : hand.unnamed.result = hand.result := rfl
  rw [result]
  congr 1
  funext result
  exact congrArg (fun seats => { hand.unnamed.pinned result with seats := seats }) seats

/-- A record names the terms that its hand was dealt under. -/
theorem config_recordOf
    {hand : Hand}
    {names : Option (List String)}
    {record : HandRecord}
    (recorded : recordOf hand names = some record) :
    record.config.unnamed = hand.terms.unnamed := by
  unfold recordOf at recorded
  obtain ⟨result, _, rfl⟩ := Option.map_eq_some_iff.mp recorded
  have seats : ((hand.seats.mapIdx fun index seat =>
      seat.record (names.bind fun names => names[index]?)).map
        (fun seat => (⟨seat.name, seat.startStack⟩ : SeatConfig))).map
        (fun seat => { seat with name := "" }) =
      hand.places.map fun seat => { seat with name := "" } := by
    apply List.ext_getElem?
    intro index
    simp only [Hand.places, Hand.identities, List.getElem?_map, List.getElem?_mapIdx,
      Option.map_map]
    rfl
  have variant : ((if hand.limit then Variant.holdemLimit else .holdemNoLimit) ==
      .holdemLimit) = hand.limit := by
    cases hand.limit <;> rfl
  unfold HandRecord.config HandConfig.unnamed
  dsimp only
  rw [seats, variant]
  rfl

/-! ## Completeness -/

/-- What is claimed of a hand that was dealt from a secret and nonces. -/
def Digest.claim
    (digest : Digest)
    (secret : String)
    (nonces : List String)
    (house : Option Nat)
    (profileName : String)
    (record : HandRecord) : Claim where
  commit := digest.commit secret
  secret := secret
  nonces := nonces
  seed := digest.seedOfMany secret nonces
  record := record
  houseSeat := house
  profile := profileName

/-- A verifier accepts the claim. -/
def Claim.Verified (digest : Digest) (claim : Claim) : Prop :=
  ∃ final, verify digest rustEngine claim = .ok final

/-- A finished hand has a result. -/
theorem result_of_finished
    {config : HandConfig}
    {dealt : Hand}
    (deals : newHand config = .ok dealt)
    (actions : List Action)
    (finished : (Lib.run step dealt actions).inPlay = false) :
    ∃ result, (Lib.run step dealt actions).result = some result := by
  have conserving : (Lib.run step dealt actions).Conserving
      (config.seats.map SeatConfig.stack).sum :=
    Lib.invariant_run conserving_step (conserving_newHand deals) actions
  exact conserving.result_of_over finished

/-- The entries of a dealt hand are replayed from the deal to its end, exactly when
the record keeps all of the house's decisions. -/
theorem replay_dealt_iff
    {digest : Digest}
    {claim : Claim}
    {config : HandConfig}
    {dealt : Hand}
    (deals : newHand config = .ok dealt)
    {actions : List Action}
    (plays : Lib.Along step (HousePlays digest claim.houseSeat claim.profile claim.seed)
      dealt actions)
    (final : Hand) :
    replay digest rustEngine claim 0 (Lib.run step dealt actions).marks dealt 0 = .ok final ↔
      Lib.Along step (HouseKept digest claim.houseSeat claim.profile claim.seed) dealt actions ∧
        final = Lib.run step dealt actions := by
  obtain ⟨noEntries, preflop⟩ := newHand_marks deals
  obtain ⟨entries, marks, replays⟩ :=
    replay_played_iff digest claim (inOrder_newHand deals) plays
  rw [noEntries, List.nil_append] at marks
  rw [marks, ← replays 0 final]
  cases phase : dealt.phase with
  | act => rw [preflop phase]
  | done =>
      -- nothing is played after the blinds have ended the hand
      cases actions with
      | cons action actions =>
          obtain ⟨⟨⟨_, accepted⟩, _⟩, _⟩ := plays
          rw [act_of_done phase] at accepted
          cases accepted
      | nil =>
          rw [Lib.run_nil, noEntries] at marks
          rw [← marks]
          rfl

theorem map_eq_ok
    {Problem First Second : Type}
    {outcome : Except Problem First}
    {change : First → Second}
    {changed : Second}
    (isOk : outcome.map change = .ok changed) :
    ∃ value, outcome = .ok value ∧ change value = changed := by
  cases outcome with
  | error problem => cases isOk
  | ok value => exact ⟨value, rfl, Except.ok.inj isOk⟩

/-- The record of every hand that was dealt from a committed seed, played by
accepted actions, the house's by the book, and finished, is accepted exactly when
the house never went in by a call. -/
theorem verified_iff_houseKept
    (digest : Digest)
    (secret : String)
    (isSecret : isHex64 secret)
    (nonces : List String)
    (house : Option Nat)
    (profileName : String)
    (config : HandConfig)
    (fromSeed : config.seedHex = digest.seedOfMany secret nonces)
    (dealt : Hand)
    (deals : newHand config = .ok dealt)
    (actions : List Action)
    (plays : Lib.Along step (HousePlays digest house profileName config.seedHex) dealt actions)
    (finished : (Lib.run step dealt actions).inPlay = false)
    (names : Option (List String)) :
    ∃ record, recordOf (Lib.run step dealt actions) names = some record ∧
      ((digest.claim secret nonces house profileName record).Verified digest ↔
        Lib.Along step (HouseKept digest house profileName config.seedHex) dealt actions) := by
  obtain ⟨result, hasResult⟩ := result_of_finished deals actions finished
  have keeps : ∀ (hand : Hand) (action : Action),
      hand.terms = config → (step hand action).terms = config :=
    fun hand action same => (step_terms hand action).trans same
  have terms : (Lib.run step dealt actions).terms = config :=
    Lib.invariant_run keeps (newHand_terms deals) actions
  -- the verifier deals the same hand under other names
  have recorded : ∃ record, recordOf (Lib.run step dealt actions) names = some record := by
    simp [recordOf, hasResult]
  obtain ⟨record, isRecord⟩ := recorded
  refine ⟨record, isRecord, ?_⟩
  have sameConfig : record.config.unnamed = config.unnamed :=
    (config_recordOf isRecord).trans (congrArg HandConfig.unnamed terms)
  have seed : record.seed = digest.seedOfMany secret nonces :=
    (congrArg HandConfig.seedHex sameConfig).trans fromSeed
  have redealt : (newHand record.config).map Hand.unnamed = .ok dealt.unnamed := by
    rw [← HandConfig.newHand_unnamed, sameConfig, HandConfig.newHand_unnamed, deals]
    rfl
  obtain ⟨other, isOther, sameDealt⟩ := map_eq_ok redealt
  have entries : record.actions = (Lib.run step dealt actions).marks := by
    unfold recordOf at isRecord
    obtain ⟨_, _, rfl⟩ := Option.map_eq_some_iff.mp isRecord
    rfl
  let claim := digest.claim secret nonces house profileName record
  have sameReplay : (replay digest rustEngine claim 0 record.actions other 0).map Hand.unnamed =
      (replay digest rustEngine claim 0 record.actions dealt 0).map Hand.unnamed := by
    rw [← replay_unnamed, sameDealt, replay_unnamed]
  have houseSeed : claim.seed = config.seedHex := fromSeed.symm
  have claimPlays : Lib.Along step
      (HousePlays digest claim.houseSeat claim.profile claim.seed) dealt actions :=
    houseSeed ▸ plays
  have replays := replay_dealt_iff deals claimPlays
  rw [← entries, houseSeed] at replays
  constructor
  · rintro ⟨final, verified⟩
    obtain ⟨_, _, _, again, isAgain, replayed, _⟩ := verify_ok_iff.mp verified
    obtain rfl := Except.ok.inj (isOther.symm.trans isAgain)
    have isReplayed : replay digest rustEngine claim 0 record.actions other 0 = .ok final :=
      replayed
    rw [isReplayed] at sameReplay
    obtain ⟨ended, isEnded, _⟩ := map_eq_ok sameReplay.symm
    exact ((replays ended).mp isEnded).1
  · intro kept
    rw [(replays _).mpr ⟨kept, rfl⟩] at sameReplay
    obtain ⟨ended, isEnded, sameEnd⟩ := map_eq_ok sameReplay
    have pinned : (recordOf ended none).map HandRecord.pinned = some record.pinned := by
      rw [recordOf_pinned, sameEnd, ← recordOf_pinned _ names, isRecord]
      rfl
    obtain ⟨replayed, isReplayed, samePinned⟩ := Option.map_eq_some_iff.mp pinned
    have isOver : ended.inPlay = false :=
      (congrArg Hand.inPlay sameEnd).trans finished
    exact ⟨ended, verify_ok_iff.mpr ⟨by simp [Digest.claim, Digest.checkCommit, isSecret], rfl,
      seed, other, isOther, isEnded, isOver, replayed, isReplayed, samePinned⟩⟩

/-! ## A short call -/

namespace Sample

def secret : String :=
  "0000000000000000000000000000000000000000000000000000000000000021"

def nonce : String :=
  "0000000000000000000000000000000000000000000000000000000000000409"

/-- The digests that a hand of one decision needs. -/
def digest : Digest :=
  .ofTable
    [(secret, "d513972e27b822b76c6aeb654a4a6fa1c28593a38cdc62692314d5c3973ce6d8"),
      (secret ++ nonce, "8ee1922437f72d2e6ab6fc38d8b9901aa3408d57612e18c506b002036f40a640"),
      ("8ee1922437f72d2e6ab6fc38d8b9901aa3408d57612e18c506b002036f40a640:bot:4",
        "35c73ddc84cb9b59d37f67eea4f98d34631fba3953e6b39069d95df81eaa5d95")]
    (by decide +kernel)

/-- A member and the house with the same stack each, at a fixed-limit table. -/
def table (stack : Nat) : HandConfig where
  seats := [⟨"Member", stack⟩, ⟨"House", stack⟩]
  button := 0
  sb := 10
  bb := 20
  ante := 0
  seedHex := digest.seedOfMany secret [nonce]
  limit := true

/-- A hand of the table is played to its end by the book, and something holds of its
deal and of its record. -/
def played (config : HandConfig) (actions : List Action)
    (holds : Hand → HandRecord → Bool) : Bool :=
  (newHand config).toOption.any fun dealt =>
    Decidable.decide (Lib.Along step
        (HousePlays digest (some 1) "tag" config.seedHex) dealt actions) &&
      !(Lib.run step dealt actions).inPlay &&
      (recordOf (Lib.run step dealt actions) none).any (holds dealt)

theorem played_iff
    (config : HandConfig)
    (actions : List Action)
    (holds : Hand → HandRecord → Bool) :
    played config actions holds ↔
      ∃ dealt record, newHand config = .ok dealt ∧
        Lib.Along step (HousePlays digest (some 1) "tag" config.seedHex) dealt actions ∧
        (Lib.run step dealt actions).inPlay = false ∧
        recordOf (Lib.run step dealt actions) none = some record ∧ holds dealt record := by
  unfold played
  cases newHand config with
  | error refusal => simp [Except.toOption]
  | ok dealt =>
      simp only [Except.toOption, Option.any_some, Bool.and_eq_true, decide_eq_true_eq,
        Bool.not_eq_true', Option.any_eq_true, Except.ok.injEq, exists_eq_left', and_assoc,
        exists_and_left]

end Sample

/-- The member raises all-in, the house goes in with two jacks by a call, and its
own record is rejected. -/
theorem short_call_rejected :
    ∃ dealt record, newHand (Sample.table 40) = .ok dealt ∧
      Lib.Along step (HousePlays Sample.digest (some 1) "tag" (Sample.table 40).seedHex) dealt
        [⟨0, .raise, some 40⟩, ⟨1, .call, some 40⟩] ∧
      (Lib.run step dealt [⟨0, .raise, some 40⟩, ⟨1, .call, some 40⟩]).inPlay = false ∧
      recordOf (Lib.run step dealt [⟨0, .raise, some 40⟩, ⟨1, .call, some 40⟩]) none =
        some record ∧
      verify Sample.digest rustEngine
          (Sample.digest.claim Sample.secret [Sample.nonce] (some 1) "tag" record) =
        .error (.housePlay 1 "call" "call 40") := by
  let verdict (record : HandRecord) : Except VerifyError Hand :=
    verify Sample.digest rustEngine
      (Sample.digest.claim Sample.secret [Sample.nonce] (some 1) "tag" record)
  let rejects : Hand → HandRecord → Bool := fun _ record =>
    match verdict record with
    | .ok _ => false
    | .error refusal => refusal == .housePlay 1 "call" "call 40"
  have rejected : Sample.played (Sample.table 40)
      [⟨0, .raise, some 40⟩, ⟨1, .call, some 40⟩] rejects := by decide +kernel
  obtain ⟨dealt, record, deals, plays, finished, recorded, refused⟩ :=
    (Sample.played_iff ..).mp rejected
  refine ⟨dealt, record, deals, plays, finished, recorded, ?_⟩
  change verdict record = _
  dsimp only [rejects] at refused
  cases outcome : verdict record with
  | ok final =>
      rw [outcome] at refused
      cases refused
  | error refusal =>
      rw [outcome] at refused
      exact congrArg Except.error (by simpa using refused)

/-- Called before the flop, the house raises all-in with the same cards, and the
record of the showdown is accepted. -/
theorem verified_iff_houseKept_raised :
    ∃ dealt record, newHand (Sample.table 40) = .ok dealt ∧
      recordOf (Lib.run step dealt [⟨0, .call, none⟩, ⟨1, .raise, some 40⟩, ⟨0, .call, none⟩])
        none = some record ∧
      (Sample.digest.claim Sample.secret [Sample.nonce] (some 1) "tag" record).Verified
        Sample.digest := by
  let kept : Hand → HandRecord → Bool := fun dealt _ =>
    Decidable.decide (Lib.Along step
      (HouseKept Sample.digest (some 1) "tag" (Sample.table 40).seedHex) dealt
        [⟨0, .call, none⟩, ⟨1, .raise, some 40⟩, ⟨0, .call, none⟩])
  have isPlayed : Sample.played (Sample.table 40)
      [⟨0, .call, none⟩, ⟨1, .raise, some 40⟩, ⟨0, .call, none⟩] kept := by decide +kernel
  obtain ⟨dealt, _, deals, plays, finished, _, isKept⟩ := (Sample.played_iff ..).mp isPlayed
  obtain ⟨record, recorded, verified⟩ := verified_iff_houseKept Sample.digest Sample.secret
    (by decide) [Sample.nonce] (some 1) "tag" (Sample.table 40) rfl dealt deals _ plays finished
    none
  exact ⟨dealt, record, deals, recorded, verified.mpr (by simpa [kept] using isKept)⟩

end Poker
end NostrBbs
