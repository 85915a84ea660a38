import NostrBbs.Poker.Transcript

/-!
# Transcripts are sound

An accepted transcript is the engine's own play: its actions applied in turn to
the hand that its seed deals under the terms it names, the house's by the book.
The terms and the members' actions leave nothing else of the compared part open.
-/

namespace NostrBbs
namespace Poker

/-- The action that an entry of a record applies. -/
def HandAction.played : HandAction → Option Action
  | .act seat deed raisedTo _ => some (deed.action seat raisedTo)
  | .street _ => none

/-- The actions that a record applies. -/
def HandRecord.played (record : HandRecord) : List Action :=
  record.actions.filterMap HandAction.played

/-- The actions of the other seats. -/
def memberActions (house : Option Nat) (actions : List Action) : List Action :=
  actions.filter fun action => house ≠ some action.seat

/-! ## Replaying -/

/-- What an accepted replay has applied. -/
theorem replay_sound
    {digest : Digest}
    {claim : Claim}
    {index : Nat}
    {entries : List HandAction}
    {hand final : Hand}
    {expectedStreet : Nat}
    (replayed : replay digest rustEngine claim index entries hand expectedStreet = .ok final) :
    Lib.Along step (HousePlays digest claim.houseSeat claim.profile claim.seed) hand
        (entries.filterMap HandAction.played) ∧
      final = Lib.run step hand (entries.filterMap HandAction.played) := by
  induction entries generalizing index hand expectedStreet with
  | nil =>
      unfold replay at replayed
      exact ⟨trivial, (Except.ok.inj replayed).symm⟩
  | cons entry entries inductionHypothesis =>
      obtain ⟨next, reached, applied, rest⟩ := replay_cons_ok_iff.mp replayed
      have later := inductionHypothesis rest
      cases entry with
      | street street =>
          obtain ⟨_, _, rfl, _⟩ := replayEntry_street_ok_iff.mp applied
          exact later
      | act seat act raisedTo amount =>
          obtain ⟨_, _, _, decided, accepted⟩ := replayEntry_act_ok_iff.mp applied
          have stepped := step_of_ok accepted
          have cons : (HandAction.act seat act raisedTo amount :: entries).filterMap
              HandAction.played =
                act.action seat raisedTo :: entries.filterMap HandAction.played := rfl
          rw [cons, Lib.run_cons, stepped]
          refine ⟨⟨⟨⟨next, accepted⟩, decided⟩, ?_⟩, later.2⟩
          rw [stepped]
          exact later.1

/-! ## Nothing else is open -/

theorem step_unnamed
    (hand : Hand)
    (action : Action) :
    step hand.unnamed action = (step hand action).unnamed := by
  unfold step
  rw [Hand.act_unnamed]
  cases act hand action <;> rfl

/-- Two hands that differ in names at most, played by the book to their ends with
the same actions of the members, were played with the same actions. -/
theorem played_unique
    {digest : Digest}
    {house : Option Nat}
    {profileName seed : String}
    {first second : Hand}
    {firstActions secondActions : List Action}
    (sameHand : first.unnamed = second.unnamed)
    (firstPlays : Lib.Along step (HousePlays digest house profileName seed) first firstActions)
    (secondPlays : Lib.Along step (HousePlays digest house profileName seed) second secondActions)
    (firstEnds : (Lib.run step first firstActions).inPlay = false)
    (secondEnds : (Lib.run step second secondActions).inPlay = false)
    (sameMembers : memberActions house firstActions = memberActions house secondActions) :
    firstActions = secondActions ∧
      (Lib.run step first firstActions).unnamed = (Lib.run step second secondActions).unnamed := by
  have inPlay : first.inPlay = second.inPlay :=
    (congrArg Hand.inPlay sameHand :)
  -- a hand that accepts an action is not over
  have playing : ∀ (hand next : Hand) (action : Action),
      act hand action = .ok next → hand.inPlay = true := by
    intro hand next action accepted
    simp [Hand.inPlay, (act_ok accepted).1]
  induction firstActions generalizing first second secondActions with
  | nil =>
      cases secondActions with
      | nil => exact ⟨rfl, sameHand⟩
      | cons action actions =>
          obtain ⟨⟨⟨next, accepted⟩, _⟩, _⟩ := secondPlays
          have onGoing := playing _ _ _ accepted
          rw [← inPlay] at onGoing
          rw [Lib.run_nil, onGoing] at firstEnds
          cases firstEnds
  | cons action actions inductionHypothesis =>
      obtain ⟨⟨⟨next, accepted⟩, decided⟩, later⟩ := firstPlays
      cases secondActions with
      | nil =>
          have onGoing := playing _ _ _ accepted
          rw [inPlay] at onGoing
          rw [Lib.run_nil, onGoing] at secondEnds
          cases secondEnds
      | cons other others =>
          obtain ⟨⟨⟨otherNext, otherAccepted⟩, otherDecided⟩, otherLater⟩ := secondPlays
          have turn : first.toAct = second.toAct := (congrArg Hand.toAct sameHand :)
          have sameSeat : action.seat = other.seat := by
            rw [(act_ok accepted).2.1, (act_ok otherAccepted).2.1] at turn
            exact Option.some.inj turn
          have log : first.log = second.log := (congrArg Hand.log sameHand :)
          have sameAction : action = other ∧
              memberActions house actions = memberActions house others := by
            unfold memberActions at sameMembers ⊢
            by_cases isHouse : house = some action.seat
            · have otherHouse : house = some other.seat := sameSeat ▸ isHouse
              rw [List.filter_cons_of_neg (by simpa using isHouse),
                List.filter_cons_of_neg (by simpa using otherHouse)] at sameMembers
              have decision := decided isHouse
              have otherDecision := otherDecided otherHouse
              rw [← botDecide_unnamed, sameHand, botDecide_unnamed, log, sameSeat,
                otherDecision] at decision
              exact ⟨(Except.ok.inj decision).symm, sameMembers⟩
            · have otherMember : ¬house = some other.seat := sameSeat ▸ isHouse
              rw [List.filter_cons_of_pos (by simpa using isHouse),
                List.filter_cons_of_pos (by simpa using otherMember)] at sameMembers
              exact List.cons.inj sameMembers
          obtain ⟨rfl, sameRest⟩ := sameAction
          have sameNext : (step first action).unnamed = (step second action).unnamed := by
            rw [← step_unnamed, sameHand, step_unnamed]
          obtain ⟨rfl, sameEnd⟩ := inductionHypothesis sameNext later otherLater firstEnds
            secondEnds sameRest (congrArg Hand.inPlay sameNext :)
          exact ⟨rfl, sameEnd⟩

/-! ## Soundness -/

/-- An accepted record is what the engine leaves of the record's own terms and
actions. -/
structure Claim.Replayed (digest : Digest) (claim : Claim) (final : Hand) : Prop where
  committed : isHex64 claim.secret ∧ digest.commit claim.secret = claim.commit
  seed : claim.record.seed = digest.seedOfMany claim.secret claim.nonces ∧
    claim.record.seed = claim.seed
  replay : ∃ dealt, newHand claim.record.config = .ok dealt ∧
    Lib.Along step (HousePlays digest claim.houseSeat claim.profile claim.seed) dealt
      claim.record.played ∧
    final = Lib.run step dealt claim.record.played
  ended : final.inPlay = false
  pinned : ∃ replayed, recordOf final none = some replayed ∧
    replayed.pinned = claim.record.pinned

theorem replayed_of_verify
    {digest : Digest}
    {claim : Claim}
    {final : Hand}
    (accepted : verify digest rustEngine claim = .ok final) :
    claim.Replayed digest final := by
  obtain ⟨committed, seed, recordSeed, dealt, deals, replayed, isOver, pinned⟩ :=
    verify_ok_iff.mp accepted
  obtain ⟨plays, isFinal⟩ := replay_sound replayed
  have isCommitted : isHex64 claim.secret ∧ digest.commit claim.secret = claim.commit := by
    simpa [Digest.checkCommit] using committed
  exact ⟨isCommitted, ⟨recordSeed.trans seed.symm, recordSeed⟩, ⟨dealt, deals, plays, isFinal⟩,
    isOver, pinned⟩

/-- Two accepted claims of one seed and one house, under the same terms and with the
same actions of the members, have the same compared part. -/
theorem Claim.Replayed.unique
    {digest : Digest}
    {claim other : Claim}
    {final otherFinal : Hand}
    (replayed : claim.Replayed digest final)
    (otherReplayed : other.Replayed digest otherFinal)
    (sameSeed : other.seed = claim.seed)
    (sameHouse : other.houseSeat = claim.houseSeat)
    (sameProfile : other.profile = claim.profile)
    (sameTerms : other.record.config.unnamed = claim.record.config.unnamed)
    (sameMembers : memberActions claim.houseSeat other.record.played =
      memberActions claim.houseSeat claim.record.played) :
    other.record.pinned = claim.record.pinned := by
  obtain ⟨dealt, deals, plays, isFinal⟩ := replayed.replay
  obtain ⟨otherDealt, otherDeals, otherPlays, isOtherFinal⟩ := otherReplayed.replay
  rw [sameSeed, sameHouse, sameProfile] at otherPlays
  have sameDealt : otherDealt.unnamed = dealt.unnamed := by
    have dealings := HandConfig.newHand_unnamed other.record.config
    rw [sameTerms, HandConfig.newHand_unnamed, deals, otherDeals] at dealings
    exact (Except.ok.inj dealings).symm
  have sameFinal : otherFinal.unnamed = final.unnamed := by
    have ends := replayed.ended
    have otherEnds := otherReplayed.ended
    rw [isFinal] at ends ⊢
    rw [isOtherFinal] at otherEnds ⊢
    exact (played_unique sameDealt otherPlays plays otherEnds ends sameMembers).2
  obtain ⟨record, isRecord, pinned⟩ := replayed.pinned
  obtain ⟨otherRecord, isOtherRecord, otherPinned⟩ := otherReplayed.pinned
  have samePinned := recordOf_pinned otherFinal none
  rw [sameFinal, ← recordOf_pinned final none, isRecord, isOtherRecord] at samePinned
  rw [← pinned, ← otherPinned]
  exact Option.some.inj samePinned

/-- An accepted transcript is the engine's play from the committed seed, and under the
same terms no other transcript with the same actions of the members is accepted. -/
theorem verify_sound
    (digest : Digest)
    (claim : Claim)
    (final : Hand)
    (accepted : verify digest rustEngine claim = .ok final) :
    claim.Replayed digest final ∧
      ∀ (other : Claim) (otherFinal : Hand),
        verify digest rustEngine other = .ok otherFinal →
        other.seed = claim.seed → other.houseSeat = claim.houseSeat →
        other.profile = claim.profile →
        other.record.config.unnamed = claim.record.config.unnamed →
        memberActions claim.houseSeat other.record.played =
          memberActions claim.houseSeat claim.record.played →
        other.record.pinned = claim.record.pinned :=
  ⟨replayed_of_verify accepted, fun _ _ otherAccepted =>
    (replayed_of_verify accepted).unique (replayed_of_verify otherAccepted)⟩

/-! ## Terms -/

/-- The member folds the small blind to the house; the record of the hand. -/
def Sample.folded : HandRecord where
  context := none
  kind := "Hand"
  v := 0
  variant := .holdemLimit
  seed := digest.seedOfMany secret [nonce]
  sb := 10
  bb := 20
  ante := 0
  button := 0
  seats := [⟨"Member", 2000, some ["Jd", "Th"], none⟩, ⟨"House", 2000, some ["Jh", "Jc"], none⟩]
  board := []
  actions := [.act 0 .fold none none]
  result := ⟨false, 20, [⟨1, 20⟩]⟩

/-- The same record with other stakes and other stacks. -/
def Sample.restaked : HandRecord :=
  { Sample.folded with
    bb := 40
    seats := [⟨"Member", 5000, some ["Jd", "Th"], none⟩,
      ⟨"House", 7000, some ["Jh", "Jc"], none⟩] }

def Sample.claim (record : HandRecord) : Claim :=
  digest.claim secret [nonce] (some 1) "tag" record

theorem Sample.verified_iff (record : HandRecord) :
    (Sample.claim record).Verified Sample.digest ↔
      (verify Sample.digest rustEngine (Sample.claim record)).isOk := by
  unfold Claim.Verified
  cases verify Sample.digest rustEngine (Sample.claim record) <;>
    simp [Except.isOk, Except.toBool]

/-- The big blind and the stacks of an accepted record can be altered. -/
theorem restaked_accepted :
    (Sample.claim Sample.folded).Verified Sample.digest ∧
      (Sample.claim Sample.restaked).Verified Sample.digest ∧
      Sample.folded.bb ≠ Sample.restaked.bb ∧
      Sample.folded.seats.map HandSeat.startStack ≠
        Sample.restaked.seats.map HandSeat.startStack :=
  ⟨(Sample.verified_iff _).mpr (by decide +kernel), (Sample.verified_iff _).mpr (by decide +kernel),
    by decide, by decide⟩

theorem verify_sound_folded :
    ∃ final, (Sample.claim Sample.folded).Replayed Sample.digest final := by
  obtain ⟨final, accepted⟩ := (Sample.verified_iff Sample.folded).mpr (by decide +kernel)
  exact ⟨final, (verify_sound Sample.digest _ final accepted).1⟩

end Poker
end NostrBbs
