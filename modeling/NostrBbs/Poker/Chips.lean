import NostrBbs.Poker.Settle
import NostrBbs.Lib.Run

/-!
# Chip conservation

While a hand is in play every seat holds or has committed what it started with,
and by the end of a betting round either nobody has chips in or some live seat
has.  Every action keeps this, so every finished hand pays out every chip.
-/

namespace NostrBbs
namespace Poker

/-- What holds of every seat against the bet to match. -/
structure Seat.Sound (bet : Nat) (seat : Seat) : Prop where
  balanced : seat.stack + seat.handCommit = seat.startStack
  matched : seat.streetCommit ≤ bet
  spent : seat.allIn → seat.stack = 0
  dealtIn : seat.out = false → 0 < seat.startStack

/-- A seat whose commitments are all of this street. -/
def Seat.FirstStreet (seat : Seat) : Prop :=
  seat.handCommit = seat.streetCommit

/-- Every live seat has chips in. -/
def Hand.AllPaidIn (hand : Hand) : Prop :=
  ∀ seat ∈ hand.seats, seat.inHand → 0 < seat.handCommit

/-- The betting invariant: once a street has closed with chips in, every live
seat has chips in; before that all commitments are of the current street. -/
structure Hand.Betting (hand : Hand) : Prop where
  seated : hand.Seated
  sound : ∀ seat ∈ hand.seats, seat.Sound hand.currentBet
  paidIn : hand.AllPaidIn ∨ ∀ seat ∈ hand.seats, seat.FirstStreet

/-! ## Seats -/

namespace Seat

theorem Sound.mono
    {seat : Seat}
    {low high : Nat}
    (sound : seat.Sound low)
    (le : low ≤ high) :
    seat.Sound high :=
  ⟨sound.balanced, Nat.le_trans sound.matched le, sound.spent, sound.dealtIn⟩

theorem Sound.commit
    {seat : Seat}
    {bet amount newBet : Nat}
    (sound : seat.Sound bet)
    (matched : seat.streetCommit + min amount seat.stack ≤ newBet) :
    (seat.commit amount).Sound newBet := by
  obtain ⟨balanced, _, spent, dealtIn⟩ := sound
  refine ⟨?_, matched, ?_, dealtIn⟩
  · simp only [Seat.commit]
    omega
  · intro allIn
    simp only [Seat.commit, Bool.or_eq_true, decide_eq_true_eq] at allIn ⊢
    rcases allIn with already | now
    · have := spent already
      omega
    · exact now

theorem FirstStreet.commit
    {seat : Seat}
    (firstStreet : seat.FirstStreet)
    (amount : Nat) :
    (seat.commit amount).FirstStreet := by
  simp only [FirstStreet, Seat.commit] at firstStreet ⊢
  omega

theorem handCommit_commit
    (seat : Seat)
    (amount : Nat) :
    (seat.commit amount).handCommit = seat.handCommit + min amount seat.stack :=
  rfl

/-- A seat in the hand without chips behind has them all in. -/
theorem Sound.paidIn_of_not_canAct
    {seat : Seat}
    {bet : Nat}
    (sound : seat.Sound bet)
    (inHand : seat.inHand)
    (cannotAct : seat.canAct = false) :
    0 < seat.handCommit := by
  simp only [Seat.inHand, Bool.and_eq_true, Bool.not_eq_true'] at inHand
  simp only [Seat.canAct, Seat.inHand, inHand, Bool.not_false, Bool.true_and,
    Bool.not_eq_false'] at cannotAct
  have empty := sound.spent cannotAct
  have started := sound.dealtIn inHand.1
  have total := sound.balanced
  omega

end Seat

namespace Hand

/-! ## Actions -/

/-- A change at one seat that commits chips keeps the betting invariant. -/
theorem Betting.commit
    {hand next : Hand}
    (betting : hand.Betting)
    {index amount : Nat}
    (seats : next.seats = hand.seats.modify index fun seat => seat.commit amount)
    (sameN : next.n = hand.n)
    (higher : hand.currentBet ≤ next.currentBet)
    (matched : ∀ seat, hand.seats[index]? = some seat →
      seat.streetCommit + min amount seat.stack ≤ next.currentBet) :
    next.Betting where
  seated := by
    rw [Seated, sameN, seats, List.length_modify]
    exact betting.seated
  sound := by
    rw [seats]
    exact Lib.forall_modify betting.sound
      (fun seat here sound => sound.commit (matched seat here))
      fun _ sound => sound.mono higher
  paidIn := by
    rw [AllPaidIn, seats]
    refine betting.paidIn.imp ?_ ?_
    · intro paidIn
      refine Lib.forall_modify paidIn ?_ fun _ kept => kept
      intro seat _ kept inHand
      have positive := kept inHand
      rw [Seat.handCommit_commit]
      omega
    · intro firstStreet
      exact Lib.forall_modify firstStreet (fun _ _ kept => kept.commit amount)
        fun _ kept => kept

/-- A change of the seats that moves no chips and lets nobody back in keeps the
betting invariant. -/
theorem Betting.of_map
    {hand next : Hand}
    (betting : hand.Betting)
    (sameN : next.n = hand.n)
    (sameLength : next.seats.length = hand.seats.length)
    (sameBet : next.currentBet = hand.currentBet)
    (fromOld : ∀ seat ∈ next.seats, ∃ old ∈ hand.seats,
      seat.stack = old.stack ∧ seat.handCommit = old.handCommit ∧
      seat.streetCommit = old.streetCommit ∧ seat.startStack = old.startStack ∧
      seat.allIn = old.allIn ∧ seat.out = old.out ∧ (seat.inHand → old.inHand)) :
    next.Betting where
  seated := by
    rw [Seated, sameN, sameLength]
    exact betting.seated
  sound := by
    intro seat member
    obtain ⟨old, oldMember, stack, handCommit, streetCommit, startStack, allIn, out, _⟩ :=
      fromOld seat member
    have sound := betting.sound old oldMember
    rw [sameBet]
    exact ⟨by rw [stack, handCommit, startStack]; exact sound.balanced,
      by rw [streetCommit]; exact sound.matched,
      by rw [allIn, stack]; exact sound.spent,
      by rw [out, startStack]; exact sound.dealtIn⟩
  paidIn := by
    refine betting.paidIn.imp ?_ ?_
    · intro paidIn seat member inHand
      obtain ⟨old, oldMember, _, handCommit, _, _, _, _, stillIn⟩ := fromOld seat member
      rw [handCommit]
      exact paidIn old oldMember (stillIn inHand)
    · intro firstStreet seat member
      obtain ⟨old, oldMember, _, handCommit, streetCommit, _, _, _, _⟩ := fromOld seat member
      rw [Seat.FirstStreet, handCommit, streetCommit]
      exact firstStreet old oldMember

theorem Betting.markActed
    {hand : Hand}
    (betting : hand.Betting)
    (index : Nat) :
    (hand.markActed index).Betting := by
  refine betting.of_map rfl (List.length_modify ..) rfl ?_
  intro seat member
  rcases Lib.mem_modify member with ⟨old, oldMember, _, rfl⟩ | oldMember
  · exact ⟨old, oldMember, rfl, rfl, rfl, rfl, rfl, rfl, id⟩
  · exact ⟨seat, oldMember, rfl, rfl, rfl, rfl, rfl, rfl, id⟩

theorem Betting.foldSeat
    {hand : Hand}
    (betting : hand.Betting)
    (index : Nat) :
    (hand.foldSeat index).Betting := by
  refine betting.of_map rfl (List.length_modify ..) rfl ?_
  intro seat member
  rcases Lib.mem_modify member with ⟨old, oldMember, _, rfl⟩ | oldMember
  · exact ⟨old, oldMember, rfl, rfl, rfl, rfl, rfl, rfl, by simp [Seat.inHand]⟩
  · exact ⟨seat, oldMember, rfl, rfl, rfl, rfl, rfl, rfl, id⟩

/-- Seats whose flags alone change after a raise. -/
theorem Betting.mapIdx_flags
    {hand next : Hand}
    (betting : hand.Betting)
    (sameN : next.n = hand.n)
    (sameBet : next.currentBet = hand.currentBet)
    {change : Nat → Seat → Seat}
    (seats : next.seats = hand.seats.mapIdx change)
    (flags : ∀ index seat, ∃ canRaise acted,
      change index seat = { seat with canRaise, acted }) :
    next.Betting := by
  refine betting.of_map sameN (by rw [seats, List.length_mapIdx]) sameBet ?_
  intro seat member
  rw [seats, List.mem_mapIdx] at member
  obtain ⟨index, bound, rfl⟩ := member
  obtain ⟨canRaise, acted, changed⟩ := flags index hand.seats[index]
  rw [changed]
  exact ⟨hand.seats[index], List.getElem_mem bound, rfl, rfl, rfl, rfl, rfl, rfl, id⟩

theorem Betting.putIn
    {hand : Hand}
    (betting : hand.Betting)
    (index : Nat)
    {amount : Nat}
    (higher : hand.currentBet ≤ amount) :
    (hand.putIn index amount).Betting := by
  refine betting.commit rfl rfl higher ?_
  intro seat here
  have isSeat : hand.seat index = seat := by simp [Hand.seat, here]
  have matched := (betting.sound seat (List.mem_of_getElem? here)).matched
  rw [isSeat]
  change _ ≤ amount
  omega

theorem Betting.reopen
    {hand : Hand}
    (betting : hand.Betting)
    (raiser raiseSize : Nat) :
    (hand.reopen raiser raiseSize).Betting := by
  refine betting.mapIdx_flags rfl rfl (hand.reopen_seats raiser raiseSize) fun position seat => ?_
  split
  · exact ⟨_, _, rfl⟩
  · exact ⟨seat.canRaise, seat.acted, rfl⟩

theorem Betting.closeRaising
    {hand : Hand}
    (betting : hand.Betting)
    (raiser : Nat) :
    (hand.closeRaising raiser).Betting := by
  refine betting.mapIdx_flags rfl rfl (hand.closeRaising_seats raiser) fun position seat => ?_
  split
  · exact ⟨_, _, rfl⟩
  · exact ⟨seat.canRaise, seat.acted, rfl⟩

theorem Betting.raiseTo
    {hand : Hand}
    (betting : hand.Betting)
    (index : Nat)
    {amount : Nat}
    (higher : hand.currentBet ≤ amount) :
    (hand.raiseTo index amount).Betting := by
  have raised := betting.putIn index higher
  unfold Hand.raiseTo
  dsimp only
  split
  · exact raised.reopen index _
  · exact raised.closeRaising index

/-- Every open action keeps the betting invariant. -/
theorem Betting.applied
    {hand applied : Hand}
    (betting : hand.Betting)
    {index : Nat}
    (isApplied : Applied hand index applied) :
    applied.Betting := by
  cases isApplied with
  | fold => exact betting.foldSeat index
  | check => exact betting.of_map rfl rfl rfl fun seat member =>
      ⟨seat, member, rfl, rfl, rfl, rfl, rfl, rfl, id⟩
  | call =>
      refine betting.commit rfl rfl (Nat.le_refl _) ?_
      intro seat here
      have isSeat : hand.seat index = seat := by simp [Hand.seat, here]
      have matched := (betting.sound seat (List.mem_of_getElem? here)).matched
      change _ ≤ hand.currentBet
      simp only [legalFor, isSeat]
      omega
  | raise amount higher _ _ => exact betting.raiseTo index higher

theorem countP_inHand_modify
    {hand next : Hand}
    {index : Nat}
    {change : Seat → Seat}
    (seats : next.seats = hand.seats.modify index change)
    (inHand : ∀ seat, (change seat).inHand = seat.inHand) :
    next.seats.countP Seat.inHand = hand.seats.countP Seat.inHand := by
  rw [seats]
  exact Lib.countP_eq_of_map_eq
    (Lib.map_modify_of_eq hand.seats index change Seat.inHand inHand)

theorem countP_inHand_mapIdx
    {hand next : Hand}
    {change : Nat → Seat → Seat}
    (seats : next.seats = hand.seats.mapIdx change)
    (inHand : ∀ index seat, (change index seat).inHand = seat.inHand) :
    next.seats.countP Seat.inHand = hand.seats.countP Seat.inHand := by
  rw [seats]
  exact Lib.countP_eq_of_map_eq
    (Lib.map_mapIdx_of_eq hand.seats change Seat.inHand inHand)

/-- Raising takes no seat out of the hand. -/
theorem countP_inHand_raiseTo
    (hand : Hand)
    (index amount : Nat) :
    (hand.raiseTo index amount).seats.countP Seat.inHand =
      hand.seats.countP Seat.inHand := by
  have raised : (hand.putIn index amount).seats.countP Seat.inHand =
      hand.seats.countP Seat.inHand :=
    countP_inHand_modify rfl fun _ => rfl
  have reopened : ∀ raised : Hand, ∀ raiseSize,
      (raised.reopen index raiseSize).seats.countP Seat.inHand =
        raised.seats.countP Seat.inHand :=
    fun _ _ => countP_inHand_mapIdx rfl fun position seat => by split <;> rfl
  have closed : ∀ raised : Hand,
      (raised.closeRaising index).seats.countP Seat.inHand =
        raised.seats.countP Seat.inHand :=
    fun _ => countP_inHand_mapIdx rfl fun position seat => by split <;> rfl
  unfold Hand.raiseTo
  dsimp only
  split
  · exact (reopened _ _).trans raised
  · exact (closed _).trans raised

/-- An action takes at most one seat out of the hand. -/
theorem length_liveSeats_applied
    {hand applied : Hand}
    {index : Nat}
    (isApplied : Applied hand index applied) :
    hand.liveSeats.length ≤ (applied.markActed index).liveSeats.length + 1 := by
  have marked : (applied.markActed index).seats.countP Seat.inHand =
      applied.seats.countP Seat.inHand :=
    countP_inHand_modify rfl fun _ => rfl
  rw [length_liveSeats, length_liveSeats, marked]
  cases isApplied with
  | fold => exact Lib.countP_le_modify hand.seats index _ Seat.inHand
  | check => exact Nat.le_succ _
  | call =>
      have kept : (hand.callSeat index (legalFor hand index).callAmount).seats.countP
          Seat.inHand = hand.seats.countP Seat.inHand :=
        countP_inHand_modify rfl fun _ => rfl
      omega
  | raise amount _ _ _ =>
      have kept := hand.countP_inHand_raiseTo index amount
      omega

/-! ## Closing a round -/

theorem settled_iff
    (hand : Hand) :
    hand.settled ↔ ∀ seat ∈ hand.seats, seat.canAct →
      seat.acted ∧ seat.streetCommit = hand.currentBet := by
  simp only [settled, List.all_eq_true, Bool.and_eq_true, beq_iff_eq]
  constructor
  · intro allActed seat member canAct
    obtain ⟨index, bound, rfl⟩ := List.getElem_of_mem member
    have here := hand.seat_eq_getElem bound
    have isActor : index ∈ hand.actors := by
      rw [mem_actors, Hand.canAct, here]
      exact canAct
    rw [← here]
    exact allActed index isActor
  · intro allActed index member
    have canAct := (hand.mem_actors index).mp member
    exact allActed _ (hand.seat_mem (lt_of_inHand (inHand_of_canAct canAct))) canAct

/-- When a round closes, every live seat has chips in or nobody has. -/
theorem Betting.round_closed
    {hand : Hand}
    (betting : hand.Betting)
    (settled : hand.settled) :
    hand.AllPaidIn ∨ ∀ seat ∈ hand.seats, seat.handCommit = 0 := by
  rcases betting.paidIn with paidIn | firstStreet
  · exact .inl paidIn
  · rcases Nat.eq_zero_or_pos hand.currentBet with noBet | bet
    · right
      intro seat member
      have matched := (betting.sound seat member).matched
      have same := firstStreet seat member
      rw [Seat.FirstStreet] at same
      omega
    · left
      intro seat member inHand
      cases canAct : seat.canAct with
      | true =>
          have acted := hand.settled_iff.mp settled seat member canAct
          have same := firstStreet seat member
          rw [Seat.FirstStreet] at same
          omega
      | false => exact (betting.sound seat member).paidIn_of_not_canAct inHand canAct

/-- A hand with one live seat or a closed round may be finished. -/
theorem Betting.closing
    {hand : Hand}
    (betting : hand.Betting)
    (live : 1 ≤ hand.liveSeats.length)
    (ended : hand.liveSeats.length = 1 ∨ hand.settled) :
    hand.Closing where
  seated := betting.seated
  balanced := fun seat member => (betting.sound seat member).balanced
  live := live
  potContested := by
    intro several
    rcases betting.round_closed (ended.resolve_left several) with paidIn | nothing
    · right
      obtain ⟨index, member⟩ := List.exists_mem_of_length_pos live
      have inHand := (hand.mem_liveSeats index).mp member
      exact ⟨index, inHand, paidIn _ (hand.seat_mem (lt_of_inHand inHand)) inHand⟩
    · left
      apply List.sum_eq_zero
      intro commit member
      obtain ⟨seat, seatMember, rfl⟩ := List.mem_map.mp member
      exact nothing seat seatMember

/-- A new street starts with what the last one left committed. -/
theorem Betting.enterStreet
    {hand : Hand}
    (betting : hand.Betting)
    (settled : hand.settled) :
    hand.enterStreet.Betting where
  seated := by
    have sameN : hand.enterStreet.n = hand.n := congrArg Setup.n hand.enterStreet_setup
    rw [Seated, sameN, enterStreet_seats, List.length_map]
    exact betting.seated
  sound := by
    rw [enterStreet_seats, enterStreet_currentBet, List.forall_mem_map]
    intro seat member
    obtain ⟨balanced, _, spent, dealtIn⟩ := betting.sound seat member
    exact ⟨balanced, Nat.le_refl 0, spent, dealtIn⟩
  paidIn := by
    rw [AllPaidIn, enterStreet_seats, List.forall_mem_map, List.forall_mem_map]
    exact betting.round_closed settled

/-- Dealing the rest of the board moves no chips. -/
theorem Closing.dealt
    {hand dealt : Hand}
    (closing : hand.Closing)
    (seats : dealt.seats = hand.seats)
    (setup : dealt.setup = hand.setup) :
    dealt.Closing where
  seated := by
    have sameN : dealt.n = hand.n := congrArg Setup.n setup
    rw [Seated, sameN, seats]
    exact closing.seated
  balanced := by
    rw [Balanced, seats]
    exact closing.balanced
  live := by
    rw [liveSeats_congr seats]
    exact closing.live
  potContested := by
    intro several
    rw [liveSeats_congr seats] at several
    simpa only [PotContested, committed, inHand, seat, seats] using
      closing.potContested several

/-! ## The deal -/

/-- A table being dealt: every commitment is of the first street and nobody has
folded. -/
structure Posted (table hand : Hand) : Prop where
  setup : hand.setup = table.setup
  phase : hand.phase = .act
  length : hand.seats.length = table.seats.length
  startStacks : hand.startStacks = table.startStacks
  live : hand.seats.countP Seat.inHand = table.seats.countP Seat.inHand
  sound : ∀ seat ∈ hand.seats, seat.Sound seat.streetCommit
  firstStreet : ∀ seat ∈ hand.seats, seat.FirstStreet

theorem Posted.modify
    {table hand next : Hand}
    (posted : Posted table hand)
    {index : Nat}
    {change : Seat → Seat}
    (seats : next.seats = hand.seats.modify index change)
    (setup : next.setup = hand.setup)
    (phase : next.phase = hand.phase)
    (startStack : ∀ seat, (change seat).startStack = seat.startStack)
    (inHand : ∀ seat, (change seat).inHand = seat.inHand)
    (sound : ∀ seat, seat.Sound seat.streetCommit →
      (change seat).Sound (change seat).streetCommit)
    (firstStreet : ∀ seat, seat.FirstStreet → (change seat).FirstStreet) :
    Posted table next where
  setup := setup.trans posted.setup
  phase := phase.trans posted.phase
  length := by rw [seats, List.length_modify, posted.length]
  startStacks := by
    refine Eq.trans ?_ posted.startStacks
    rw [Hand.startStacks, seats, Lib.map_modify_of_eq _ _ _ Seat.startStack startStack]
    rfl
  live := (countP_inHand_modify seats inHand).trans posted.live
  sound := by
    rw [seats]
    exact Lib.forall_modify posted.sound (fun seat _ kept => sound seat kept) fun _ kept => kept
  firstStreet := by
    rw [seats]
    exact Lib.forall_modify posted.firstStreet (fun seat _ kept => firstStreet seat kept)
      fun _ kept => kept

theorem Posted.commit
    {table hand : Hand}
    (posted : Posted table hand)
    (index amount : Nat)
    (why : Option Ev) :
    Posted table (hand.commit index amount why) :=
  posted.modify (commit_seats ..) (commit_setup ..) (commit_phase ..) (fun _ => rfl)
    (fun _ => rfl) (fun _ sound => sound.commit (Nat.le_refl _))
    fun _ firstStreet => firstStreet.commit amount

theorem Posted.dealTo
    {table hand : Hand}
    (posted : Posted table hand)
    (index : Nat) :
    Posted table (hand.dealTo index) :=
  posted.modify rfl rfl rfl (fun _ => rfl) (fun _ => rfl)
    (fun _ sound => ⟨sound.balanced, Nat.le_refl _, sound.spent, sound.dealtIn⟩)
    fun _ firstStreet => firstStreet

theorem Posted.postAntes
    {table hand : Hand}
    (posted : Posted table hand)
    (live : List Nat) :
    Posted table (hand.postAntes live) := by
  unfold Hand.postAntes
  split
  · rename_i positive
    clear positive
    induction live generalizing hand with
    | nil => exact posted
    | cons index live inductionHypothesis =>
        exact inductionHypothesis (posted.commit index hand.ante _)
  · exact posted

theorem Posted.dealRound
    {table hand : Hand}
    (posted : Posted table hand) :
    Posted table hand.dealRound := by
  unfold Hand.dealRound
  generalize hand.order (hand.button + 1) = indices
  induction indices generalizing hand with
  | nil => exact posted
  | cons index indices inductionHypothesis =>
      rw [List.foldl_cons]
      split
      · exact inductionHypothesis posted
      · exact inductionHypothesis (posted.dealTo index)

theorem Posted.congr
    {table hand next : Hand}
    (posted : Posted table hand)
    (setup : next.setup = hand.setup)
    (phase : next.phase = hand.phase)
    (seats : next.seats = hand.seats) :
    Posted table next where
  setup := setup.trans posted.setup
  phase := phase.trans posted.phase
  length := seats ▸ posted.length
  startStacks := by
    refine Eq.trans ?_ posted.startStacks
    rw [Hand.startStacks, seats]
    rfl
  live := seats ▸ posted.live
  sound := seats ▸ posted.sound
  firstStreet := seats ▸ posted.firstStreet

theorem Posted.postBlinds
    {table hand : Hand}
    (posted : Posted table hand)
    (sbSeat bbSeat : Nat) :
    Posted table (hand.postBlinds sbSeat bbSeat) :=
  ((posted.commit sbSeat hand.sb (some .sb)).commit bbSeat hand.bb (some .bb)).congr
    rfl rfl rfl

/-- The bet to match covers every commitment once the blinds are posted. -/
theorem matched_postBlinds
    (hand : Hand)
    (sbSeat bbSeat : Nat) :
    ∀ seat ∈ (hand.postBlinds sbSeat bbSeat).seats,
      seat.streetCommit ≤ (hand.postBlinds sbSeat bbSeat).currentBet := by
  intro seat member
  exact Lib.le_foldl_max (List.mem_map_of_mem member)

theorem dealTo_streetCommits
    (hand : Hand)
    (index : Nat) :
    (hand.dealTo index).seats.map Seat.streetCommit = hand.seats.map Seat.streetCommit :=
  Lib.map_modify_of_eq hand.seats index _ Seat.streetCommit fun _ => rfl

/-- Dealing a round of cards leaves the bets alone. -/
theorem dealRound_bets
    (hand : Hand) :
    hand.dealRound.seats.map Seat.streetCommit = hand.seats.map Seat.streetCommit ∧
      hand.dealRound.currentBet = hand.currentBet := by
  unfold Hand.dealRound
  generalize hand.order (hand.button + 1) = indices
  induction indices generalizing hand with
  | nil => exact ⟨rfl, rfl⟩
  | cons index indices inductionHypothesis =>
      rw [List.foldl_cons]
      split
      · exact inductionHypothesis hand
      · obtain ⟨commits, bet⟩ := inductionHypothesis (hand.dealTo index)
        exact ⟨commits.trans (hand.dealTo_streetCommits index), bet⟩

end Hand

theorem posted_table
    (config : HandConfig)
    (deck : Deck) :
    Hand.Posted (config.table deck) (config.table deck) where
  setup := rfl
  phase := rfl
  length := rfl
  startStacks := rfl
  live := rfl
  sound := by
    simp only [HandConfig.table, List.forall_mem_map]
    intro seat _
    refine ⟨rfl, Nat.le_refl _, by simp [SeatConfig.seat], ?_⟩
    intro dealtIn
    simp only [SeatConfig.seat, beq_eq_false_iff_ne] at dealtIn ⊢
    omega
  firstStreet := by
    simp only [HandConfig.table, List.forall_mem_map]
    intro seat _
    rfl

/-- The seats dealt in are the live seats of the table. -/
theorem length_dealtIn
    (config : HandConfig)
    (deck : Deck) :
    (config.table deck).dealtIn.length =
      (config.table deck).seats.countP Seat.inHand := by
  rw [← Hand.length_liveSeats, Hand.dealtIn, Hand.liveSeats]
  refine ((Hand.order_perm _ _).filter _).length_eq.trans (congrArg List.length ?_)
  have sameLength : (config.table deck).n = (config.table deck).seats.length := by
    simp [HandConfig.table]
  rw [sameLength]
  apply List.filter_congr
  intro index member
  rw [List.mem_range] at member
  have bound : index < config.seats.length := by simpa [HandConfig.table] using member
  simp [Hand.inHand, Hand.seat, HandConfig.table, bound, Seat.inHand, SeatConfig.seat]

namespace Hand

theorem Posted.openHand
    {table hand : Hand}
    (posted : Posted table hand)
    (headsUp : Bool)
    (sbSeat bbSeat : Nat) :
    Posted table (hand.openHand headsUp sbSeat bbSeat) :=
  posted.congr rfl rfl rfl

theorem posted_posted
    (config : HandConfig)
    (deck : Deck) :
    Posted (config.table deck) (config.posted deck) :=
  ((posted_table config deck).postAntes _).postBlinds _ _

theorem posted_dealt
    (config : HandConfig)
    (deck : Deck) :
    Posted (config.table deck) (config.dealt deck) :=
  (posted_posted config deck).dealRound.dealRound.openHand _ _ _

theorem matched_dealt
    (config : HandConfig)
    (deck : Deck) :
    ∀ commit ∈ (config.dealt deck).seats.map Seat.streetCommit,
      commit ≤ (config.dealt deck).currentBet := by
  obtain ⟨firstCommits, firstBet⟩ := (config.posted deck).dealRound_bets
  obtain ⟨secondCommits, secondBet⟩ := (config.posted deck).dealRound.dealRound_bets
  rw [HandConfig.dealt, openHand_seats, openHand_currentBet, secondCommits, firstCommits,
    secondBet, firstBet, List.forall_mem_map, HandConfig.posted]
  exact matched_postBlinds _ _ _

/-- A dealt hand satisfies the betting invariant. -/
theorem betting_dealt
    (config : HandConfig)
    (deck : Deck) :
    (config.dealt deck).Betting where
  seated := by
    have sameN : (config.dealt deck).n = config.seats.length :=
      congrArg Setup.n (posted_dealt config deck).setup
    rw [Seated, sameN, (posted_dealt config deck).length]
    simp [HandConfig.table]
  sound := by
    intro seat member
    refine ((posted_dealt config deck).sound seat member).mono ?_
    exact matched_dealt config deck _ (List.mem_map_of_mem member)
  paidIn := .inr (posted_dealt config deck).firstStreet

/-! ## Runs -/

/-- A hand in play keeps the betting invariant with two live seats; a finished
hand was closed in order and paid out. -/
inductive Conserving (total : Nat) (hand : Hand) : Prop where
  | playing :
      hand.phase = .act → hand.Betting → 2 ≤ hand.liveSeats.length →
      hand.startStacks = total → Conserving total hand
  | finished (closing : Hand) :
      closing.Closing → hand = closing.finish → closing.startStacks = total →
      Conserving total hand

theorem Closing.runOut
    {hand : Hand}
    (closing : hand.Closing) :
    Conserving hand.startStacks hand.runOut := by
  refine .finished ((dealOut (3 - hand.street) hand).record
    { ev := .runout, board := some (dealOut (3 - hand.street) hand).board }) ?_ rfl ?_
  · exact closing.dealt (hand.dealOut_seats _) (hand.dealOut_setup _)
  · exact ((sameTable_record _ _).trans (hand.sameTable_dealOut _)).startStacks

/-- Advancing a hand with a live seat conserves its chips. -/
theorem Betting.advance
    {hand : Hand}
    (betting : hand.Betting)
    (phase : hand.phase = .act)
    (live : 1 ≤ hand.liveSeats.length) :
    Conserving hand.startStacks hand.advance := by
  have outcome := advanced betting.seated
  generalize hand.advance = next at outcome
  cases outcome with
  | foldOut alone => exact .finished hand (betting.closing live (.inl alone)) rfl rfl
  | next index several _ =>
      exact .playing phase ⟨betting.seated, betting.sound, betting.paidIn⟩
        (show 2 ≤ hand.liveSeats.length by omega) rfl
  | runOut several settled _ => exact (betting.closing live (.inr settled)).runOut
  | showdown several settled _ _ =>
      exact .finished hand (betting.closing live (.inr settled)) rfl rfl
  | street first several settled _ _ _ =>
      have entered := betting.enterStreet settled
      have stillLive : hand.enterStreet.liveSeats.length = hand.liveSeats.length := by
        rw [length_liveSeats, length_liveSeats, enterStreet_seats, List.countP_map]
        rfl
      refine .playing (hand.enterStreet_phase.trans phase)
        ⟨entered.seated, entered.sound, entered.paidIn⟩ ?_
        hand.sameTable_enterStreet.startStacks
      change 2 ≤ hand.enterStreet.liveSeats.length
      omega

end Hand

theorem sameTable_applied
    {hand applied : Hand}
    {index : Nat}
    (isApplied : Applied hand index applied) :
    Hand.SameTable applied hand := by
  cases isApplied with
  | fold => exact Hand.sameTable_modify rfl rfl fun _ => rfl
  | check => exact Hand.sameTable_of_seats rfl rfl
  | call => exact Hand.sameTable_modify rfl rfl fun _ => rfl
  | raise amount _ _ _ => exact hand.sameTable_raiseTo index amount

theorem applied_phase
    {hand applied : Hand}
    {index : Nat}
    (isApplied : Applied hand index applied) :
    applied.phase = hand.phase := by
  cases isApplied with
  | fold => rfl
  | check => rfl
  | call => rfl
  | raise amount _ _ _ =>
      unfold Hand.raiseTo
      dsimp only
      split <;> rfl

/-- A finished hand refuses every action. -/
theorem act_of_done
    {hand : Hand}
    (done : hand.phase = .done)
    (action : Action) :
    act hand action = .error ⟨"hand is over"⟩ := by
  simp [act, Hand.inPlay, done]

/-- One action conserves the chips of the hand. -/
theorem conserving_step
    {total : Nat}
    (hand : Hand)
    (action : Action)
    (conserving : hand.Conserving total) :
    (step hand action).Conserving total := by
  cases conserving with
  | finished closing isClosing finished started =>
      obtain ⟨result, paidOut⟩ := Hand.finish_paidOut isClosing
      have done : hand.phase = .done := finished ▸ paidOut.phase
      rw [step, act_of_done done]
      exact .finished closing isClosing finished started
  | playing phase betting live started =>
      unfold step
      split
      · rename_i next accepted
        obtain ⟨_, _, allowed, applied, result, rfl⟩ := act_ok accepted
        have isApplied := applied_of_applyAction allowed result
        have stillLive := Hand.length_liveSeats_applied isApplied
        have table : Hand.SameTable (applied.markActed action.seat) hand :=
          (applied.sameTable_markActed action.seat).trans (sameTable_applied isApplied)
        rw [← started, ← table.startStacks]
        exact ((betting.applied isApplied).markActed action.seat).advance
          ((applied_phase isApplied).trans phase) (by omega)
      · exact .playing phase betting live started

/-- A dealt hand conserves the chips it was dealt with. -/
theorem conserving_newHand
    {config : HandConfig}
    {hand : Hand}
    (accepted : newHand config = .ok hand) :
    hand.Conserving (config.seats.map SeatConfig.stack).sum := by
  obtain ⟨deck, _, enough, outcome⟩ := newHand_ok accepted
  have posted := Hand.posted_dealt config deck
  have betting := Hand.betting_dealt config deck
  have started : (config.dealt deck).startStacks = (config.seats.map SeatConfig.stack).sum := by
    rw [posted.startStacks]
    simp only [Hand.startStacks, HandConfig.table, List.map_map]
    rfl
  have live : 2 ≤ (config.dealt deck).liveSeats.length := by
    rw [Hand.length_liveSeats, posted.live, ← length_dealtIn]
    exact enough
  rcases outcome with ⟨noActors, ranOut⟩ | ⟨_, isDealt⟩
  · rw [← started, ranOut]
    exact (betting.closing (by omega) (.inr (Hand.settled_of_no_actors noActors))).runOut
  · rw [isDealt]
    exact .playing posted.phase betting live started

/-- An accepted action keeps the table. -/
theorem sameTable_act
    {hand next : Hand}
    {action : Action}
    (accepted : act hand action = .ok next) :
    Hand.SameTable next hand := by
  obtain ⟨_, _, allowed, applied, result, rfl⟩ := act_ok accepted
  exact (Hand.sameTable_advance _).trans
    ((applied.sameTable_markActed action.seat).trans
      (sameTable_applied (applied_of_applyAction allowed result)))

/-- A dealt hand has the seats of its configuration. -/
theorem length_seats_newHand
    {config : HandConfig}
    {hand : Hand}
    (accepted : newHand config = .ok hand) :
    hand.seats.length = config.seats.length := by
  obtain ⟨deck, _, _, outcome⟩ := newHand_ok accepted
  have dealt : (config.dealt deck).seats.length = config.seats.length := by
    rw [(Hand.posted_dealt config deck).length]
    exact List.length_map _
  rcases outcome with ⟨_, rfl⟩ | ⟨_, rfl⟩
  · rw [(Hand.sameTable_runOut _).length_seats, dealt]
  · exact dealt

/-- A hand that is over has a result. -/
theorem Hand.Conserving.result_of_over
    {total : Nat}
    {hand : Hand}
    (conserving : hand.Conserving total)
    (isOver : hand.inPlay = false) :
    ∃ result, hand.result = some result := by
  cases conserving with
  | playing phase _ _ _ => simp [Hand.inPlay, phase] at isOver
  | finished closing isClosing finished _ =>
      obtain ⟨result, paidOut⟩ := Hand.finish_paidOut isClosing
      rw [finished]
      exact ⟨result, paidOut.result_eq⟩

/-- What conservation says of one state of a hand dealt with `total` chips. -/
structure Hand.ChipsConserved (total : Nat) (hand : Hand) : Prop where
  inPlay : hand.phase = .act → hand.chipsBehind + hand.committed = total
  paidOut : hand.phase = .done → hand.chipsBehind = total
  pots : hand.phase = .done → ∃ (closing : Hand) (result : HandResult), hand = closing.finish ∧
    closing.chipsBehind + closing.committed = total ∧ hand.result = some result ∧
    (result.pots.map Pot.amount).sum + closing.refunded = closing.committed ∧
    (result.pots.map Pot.amount).sum = hand.committed ∧
    ∀ pot ∈ result.pots, ((potShares hand pot).map Winner.amount).sum = pot.amount
  refused : ∀ action refusal, act hand action = .error refusal → step hand action = hand

theorem Hand.Conserving.chipsConserved
    {total : Nat}
    {hand : Hand}
    (conserving : hand.Conserving total) :
    hand.ChipsConserved total := by
  have refused : ∀ action refusal, act hand action = .error refusal →
      step hand action = hand := by
    intro action refusal isRefused
    simp [step, isRefused]
  cases conserving with
  | playing phase betting live started =>
      have balanced : hand.Balanced := fun seat member => (betting.sound seat member).balanced
      have playing : hand.phase ≠ .done := by simp [phase]
      exact ⟨fun _ => (chips_of_balanced balanced).trans started,
        fun done => absurd done playing, fun done => absurd done playing, refused⟩
  | finished closing isClosing finished started =>
      obtain ⟨result, paidOut⟩ := Hand.finish_paidOut isClosing
      rw [← finished] at paidOut
      have ended : hand.phase ≠ .act := by simp [paidOut.phase]
      refine ⟨fun playing => absurd playing ended, fun _ => paidOut.chipsBehind.trans started,
        fun _ => ?_, refused⟩
      exact ⟨closing, result, finished,
        (chips_of_balanced isClosing.balanced).trans started, paidOut.result_eq,
        paidOut.refunded, paidOut.committed, paidOut.shares⟩

/-- Chips are conserved in every state that a dealt hand reaches. -/
theorem chips_conserved
    (config : HandConfig)
    (dealt : Hand)
    (accepted : newHand config = .ok dealt)
    (actions : List Action) :
    (Lib.run step dealt actions).ChipsConserved (config.seats.map SeatConfig.stack).sum :=
  (Lib.invariant_run conserving_step (conserving_newHand accepted) actions).chipsConserved

/-- A heads-up limit table. -/
def headsUpTable : HandConfig where
  seats := [⟨"You", 2000⟩, ⟨"Bot", 2000⟩]
  button := 0
  sb := 10
  bb := 20
  ante := 0
  seedHex := "cdcdcdcdcdcdcdcdcdcdcdcdcdcdcdcdcdcdcdcdcdcdcdcdcdcdcdcdcdcdcdcd"
  limit := true

theorem headsUpTable_deals : ∃ dealt, newHand headsUpTable = .ok dealt := by
  cases outcome : newHand headsUpTable with
  | ok dealt => exact ⟨dealt, rfl⟩
  | error refusal =>
      have deals : (newHand headsUpTable).isOk = true := by decide
      rw [outcome] at deals
      cases deals

theorem chips_conserved_heads_up :
    ∃ dealt, newHand headsUpTable = .ok dealt ∧
      (Lib.run step dealt [⟨0, .raise, some 40⟩, ⟨1, .fold, none⟩]).ChipsConserved 4000 := by
  obtain ⟨dealt, accepted⟩ := headsUpTable_deals
  exact ⟨dealt, accepted, chips_conserved headsUpTable dealt accepted _⟩

end Poker
end NostrBbs
