import NostrBbs.Poker.Transcript

/-!
# A record determines its hand

Two hands that leave one record were dealt under the same terms and played with the same
entries.  A replay of these ends in both, so they differ in the names of their seats at
most.
-/

namespace NostrBbs
namespace Poker

/-- The engine accepts an action. -/
def Hand.Accepts (hand : Hand) (action : Action) : Prop :=
  ∃ next, act hand action = .ok next

/-- A hand that the engine dealt and accepted every action of. -/
def Hand.Played (hand : Hand) : Prop :=
  ∃ config dealt actions, newHand config = .ok dealt ∧
    Lib.Along step Hand.Accepts dealt actions ∧ hand = Lib.run step dealt actions

namespace Hand

theorem Played.of_dealt
    {config : HandConfig}
    {hand : Hand}
    (dealt : newHand config = .ok hand) :
    hand.Played :=
  ⟨config, hand, [], dealt, trivial, rfl⟩

theorem Played.act
    {hand next : Hand}
    {action : Action}
    (played : hand.Played)
    (accepted : Poker.act hand action = .ok next) :
    next.Played := by
  obtain ⟨config, dealt, actions, deals, along, rfl⟩ := played
  refine ⟨config, dealt, actions ++ [action], deals, ?_, ?_⟩
  · rw [Lib.along_append]
    exact ⟨along, ⟨next, accepted⟩, trivial⟩
  · rw [Lib.run_append]
    exact (step_of_ok accepted).symm

end Hand

/-- A claim about a hand without the house. -/
def HandRecord.anyClaim (record : HandRecord) : Claim where
  commit := ""
  secret := ""
  nonces := []
  seed := ""
  record
  houseSeat := none
  profile := ""

/-- A replay of a played hand's record from its deal ends in the hand. -/
theorem Hand.Played.replays
    {hand : Hand}
    {names : Option (List String)}
    {record : HandRecord}
    (played : hand.Played)
    (recorded : recordOf hand names = some record)
    (digest : Digest) :
    ∃ dealt, newHand hand.terms = .ok dealt ∧
      replay digest rustEngine record.anyClaim 0 record.actions dealt 0 = .ok hand := by
  obtain ⟨config, dealt, actions, deals, along, rfl⟩ := played
  have terms : (Lib.run step dealt actions).terms = config := by
    have keeps : ∀ (hand : Hand) (action : Action),
        hand.terms = config → (step hand action).terms = config :=
      fun hand action same => (step_terms hand action).trans same
    exact Lib.invariant_run keeps (newHand_terms deals) actions
  have plays : Lib.Along step (HousePlays digest record.anyClaim.houseSeat
      record.anyClaim.profile record.anyClaim.seed) dealt actions := by
    refine along.mono fun hand action accepted => ⟨accepted, ?_⟩
    rintro ⟨⟩
  have noHouse : Lib.Along step (HouseKept digest record.anyClaim.houseSeat
      record.anyClaim.profile record.anyClaim.seed) dealt actions := by
    refine along.mono fun hand action _ => ?_
    rintro ⟨⟩
  have entries : record.actions = (Lib.run step dealt actions).marks := by
    unfold recordOf at recorded
    obtain ⟨_, _, rfl⟩ := Option.map_eq_some_iff.mp recorded
    rfl
  rw [terms, entries]
  exact ⟨dealt, deals, (replay_dealt_iff deals plays _).mpr ⟨noHouse, rfl⟩⟩

/-- Hands of one record differ in the names of their seats at most. -/
theorem unnamed_of_record
    {first second : Hand}
    {firstNames secondNames : Option (List String)}
    {record : HandRecord}
    (firstPlayed : first.Played)
    (secondPlayed : second.Played)
    (firstRecorded : recordOf first firstNames = some record)
    (secondRecorded : recordOf second secondNames = some record) :
    first.unnamed = second.unnamed := by
  have digest : Digest := Digest.ofTable [] (by simp)
  have sameTerms : first.terms.unnamed = second.terms.unnamed :=
    (config_recordOf firstRecorded).symm.trans (config_recordOf secondRecorded)
  obtain ⟨firstDealt, firstDeals, firstEnds⟩ := firstPlayed.replays firstRecorded digest
  obtain ⟨secondDealt, secondDeals, secondEnds⟩ := secondPlayed.replays secondRecorded digest
  have sameDealt : firstDealt.unnamed = secondDealt.unnamed := by
    have dealings := HandConfig.newHand_unnamed first.terms
    rw [sameTerms, HandConfig.newHand_unnamed, firstDeals, secondDeals] at dealings
    exact (Except.ok.inj dealings).symm
  have sameReplay := replay_unnamed digest record.anyClaim record.actions 0
    firstDealt 0
  rw [sameDealt, replay_unnamed, firstEnds, secondEnds] at sameReplay
  exact (Except.ok.inj sameReplay).symm

/-- Hands of one record end with the same chips in every seat. -/
theorem stack_of_record
    {first second : Hand}
    {firstNames secondNames : Option (List String)}
    {record : HandRecord}
    (firstPlayed : first.Played)
    (secondPlayed : second.Played)
    (firstRecorded : recordOf first firstNames = some record)
    (secondRecorded : recordOf second secondNames = some record)
    (index : Nat) :
    (first.seat index).stack = (second.seat index).stack ∧
      (first.seat index).startStack = (second.seat index).startStack := by
  have same := unnamed_of_record firstPlayed secondPlayed firstRecorded secondRecorded
  have sameSeat : (first.seat index).unnamed = (second.seat index).unnamed := by
    rw [← Hand.seat_unnamed, same, Hand.seat_unnamed]
  have sameStack : (first.seat index).unnamed.stack = (second.seat index).unnamed.stack :=
    congrArg Seat.stack sameSeat
  have sameStart : (first.seat index).unnamed.startStack =
      (second.seat index).unnamed.startStack :=
    congrArg Seat.startStack sameSeat
  exact ⟨sameStack, sameStart⟩

end Poker
end NostrBbs
