import NostrBbs.HouseSeat.Table

/-!
# The door

What a request to sit, or an acceptance of a challenge, has passed when it is
dealt a hand.
-/

namespace NostrBbs
namespace HouseSeat

/-! ## Stakes -/

theorem stakesOf_pos
    {bb buyinBb : Nat}
    {stakes : Stakes}
    (offered : stakesOf bb buyinBb = some stakes) :
    0 < stakes.sb ∧ stakes.bb = 2 * stakes.sb ∧ stakes.buyin = buyinBb * stakes.bb ∧
      0 < stakes.buyin := by
  unfold stakesOf at offered
  split at offered
  · cases offered
  · rename_i sound
    split at offered
    · cases offered
    · obtain rfl := Option.some.inj offered
      have positive : 0 < buyinBb * bb :=
        Nat.mul_pos (by omega) (by omega)
      exact ⟨by dsimp only; omega, by dsimp only; omega, rfl, positive⟩

/-- Every table on offer comes from a big blind and the buy-in in big blinds. -/
theorem mem_stakesTable
    {stakesBb : List Nat}
    {buyinBb : Nat}
    {stakes : Stakes}
    (member : stakes ∈ stakesTable stakesBb buyinBb) :
    ∃ bb, stakesOf bb buyinBb = some stakes := by
  refine List.foldlRecOn stakesBb _
    (motive := fun table => ∀ stakes ∈ table, ∃ bb, stakesOf bb buyinBb = some stakes)
    ?start ?add stakes member
  case start =>
    intro stakes absent
    cases absent
  case add =>
    intro table sound bb _ stakes added
    split at added
    · exact sound stakes added
    · split at added
      · rename_i offered isOffered
        rcases List.mem_append.mp added with old | new
        · exact sound stakes old
        · obtain rfl := List.mem_singleton.mp new
          exact ⟨bb, isOffered⟩
      · exact sound stakes added

theorem Setting.stakeFor_pos
    {setting : Setting}
    {bb : Nat}
    {stake : Stakes}
    (offered : setting.stakeFor bb = some stake) :
    0 < stake.buyin := by
  obtain ⟨bb, isOffered⟩ := mem_stakesTable (List.mem_of_find?_eq_some offered)
  exact (stakesOf_pos isOffered).2.2.2

namespace Citizen

variable {setting : Setting} {citizen next : Citizen} {deal : Deal}
  {member commit nonce : String} {v bb now : Nat} {balances : Balances}

/-! ## Sitting -/

/-- What a request to sit has passed. -/
structure SitPassed (setting : Setting) (citizen : Citizen) (member commit : String) (bb now : Nat)
    (balances : Balances) (next : Citizen) (deal : Deal) : Prop where
  stake : setting.stakeFor bb = some deal.stake
  named : deal.commit = commit
  seats : deal.seats = (member, setting.house.pubkey)
  house : deal.house = true
  free : citizen.inHand member = false
  unrefused : citizen.refusal setting member deal.stake.buyin balances.heroAsset now = none
  covered : deal.stake.buyin ≤ balances.houseAsset - citizen.ledger.owingTotal
  capped : deal.stake.buyin ≤ citizen.capLeft setting now
  sameLedger : next.ledger = citizen.ledger
  sameHands : next.hands = citizen.hands
  sameChallenges : next.challenges = citizen.challenges

theorem sitDeal_ok
    (accepted : citizen.sitDeal setting member v commit bb nonce now balances =
      .ok (next, deal)) :
    SitPassed setting citizen member commit bb now balances next deal := by
  unfold sitDeal at accepted
  dsimp only at accepted
  split at accepted
  · cases accepted
  · split at accepted
    · cases accepted
    · split at accepted
      · cases accepted
      · rename_i stake offered
        split at accepted
        · cases accepted
        · rename_i notInHand
          split at accepted
          · cases accepted
          · rename_i secret offeredCommit _
            split at accepted
            · cases accepted
            · split at accepted
              · cases accepted
              · rename_i unrefused
                split at accepted
                · cases accepted
                · rename_i covered
                  split at accepted
                  · cases accepted
                  · rename_i capped
                    obtain ⟨rfl, rfl⟩ := Prod.mk.inj (Except.ok.inj accepted)
                    exact
                      { stake := offered
                        named := rfl
                        seats := rfl
                        house := rfl
                        free := by simpa using notInHand
                        unrefused := unrefused
                        covered := Nat.le_of_not_lt covered
                        capped := Nat.le_of_not_lt capped
                        sameLedger := rfl
                        sameHands := rfl
                        sameChallenges := rfl }

/-! ## Accepting -/

/-- What an acceptance of a challenge has passed. -/
structure AcceptPassed (setting : Setting) (citizen : Citizen) (member commit : String) (now : Nat)
    (balances : Balances) (next : Citizen) (deal : Deal) : Prop where
  challenge : ∃ challenge, citizen.challenges.find? commit = some (commit, challenge) ∧
    challenge.opponent = member ∧ now ≤ challenge.expires ∧
    setting.stakeFor challenge.bb = some deal.stake ∧
    deal.seats = (challenge.challenger, member) ∧
    citizen.inHand challenge.challenger = false
  named : deal.commit = commit
  house : deal.house = false
  free : citizen.inHand member = false
  unrefused : citizen.refusal setting member deal.stake.buyin balances.heroAsset now = none
  sameLedger : next.ledger = citizen.ledger
  sameHands : next.hands = citizen.hands
  sameChallenges : next.challenges = citizen.challenges.erase commit

theorem acceptDeal_ok
    (accepted : citizen.acceptDeal setting member commit nonce now balances = .ok (next, deal)) :
    AcceptPassed setting citizen member commit now balances next deal := by
  unfold acceptDeal at accepted
  dsimp only at accepted
  cases found : citizen.challenges.find? commit with
  | none =>
      rw [found] at accepted
      cases accepted
  | some entry =>
      have isCommit : entry.1 = commit := (Lib.Table.find?_eq_some_iff.mp found).2
      rw [found] at accepted
      dsimp only [Option.map_some] at accepted
      split at accepted
      · cases accepted
      · rename_i addressed
        split at accepted
        · cases accepted
        · rename_i notLapsed
          split at accepted
          · cases accepted
          · split at accepted
            · cases accepted
            · rename_i stake offered
              split at accepted
              · cases accepted
              · rename_i notInHand
                split at accepted
                · cases accepted
                · rename_i unrefused
                  obtain ⟨rfl, rfl⟩ := Prod.mk.inj (Except.ok.inj accepted)
                  rw [Bool.or_eq_true, not_or, Bool.not_eq_true, Bool.not_eq_true] at notInHand
                  rw [not_not] at addressed
                  exact
                    { challenge := ⟨entry.2, by rw [found, ← isCommit], addressed,
                        Nat.le_of_not_lt notLapsed, offered, rfl, notInHand.2⟩
                      named := rfl
                      house := rfl
                      free := notInHand.1
                      unrefused := unrefused
                      sameLedger := rfl
                      sameHands := rfl
                      sameChallenges := rfl }

/-! ## Debts at the door -/

/-- A member who is not refused has no overdue debt and covers the buy-in. -/
theorem refusal_eq_none_iff
    {buyin held : Nat} :
    citizen.refusal setting member buyin held now = none ↔
      (∀ owed ∈ citizen.ledger.owed, owed.hero = member → overdue setting owed now = false) ∧
        buyin ≤ held := by
  unfold refusal
  dsimp only
  cases found : citizen.ledger.owed.find? fun owed =>
      owed.hero == member && overdue setting owed now with
  | some owed =>
      have named := List.find?_some found
      simp only [Bool.and_eq_true, beq_iff_eq] at named
      refine iff_of_false (by simp) ?_
      rintro ⟨noneOverdue, _⟩
      have fine := noneOverdue owed (List.mem_of_find?_eq_some found) named.1
      rw [named.2] at fine
      cases fine
  | none =>
      rw [List.find?_eq_none] at found
      have noneOverdue : ∀ owed ∈ citizen.ledger.owed, owed.hero = member →
          overdue setting owed now = false := by
        intro owed held isMember
        have unnamed := found owed held
        simpa [isMember] using unnamed
      by_cases short : held < buyin
      · rw [if_pos short]
        exact iff_of_false (by simp) fun passed => absurd passed.2 (Nat.not_le_of_lt short)
      · rw [if_neg short]
        exact iff_of_true rfl ⟨noneOverdue, Nat.le_of_not_lt short⟩

/-! ## Deals -/

/-- A hand that an input has dealt. -/
structure Dealt where
  deal : Deal
  balances : Balances
  now : Nat

/-- A hand that passed the door is dealt when the engine deals it. -/
def dealtOf (passed : Except Outcome (Citizen × Deal)) (balances : Balances) (now : Nat) :
    Option Dealt :=
  match passed with
  | .error _ => none
  | .ok (_, deal) => if (Poker.newHand deal.config).isOk then some ⟨deal, balances, now⟩ else none

/-- The hand that an input has dealt, if any. -/
def dealBy (setting : Setting) (citizen : Citizen) (input : Input) : Option Dealt :=
  match input with
  | .message member (.sit v commit _ bb nonce) now balances =>
      dealtOf (citizen.sitDeal setting member v commit bb nonce now balances) balances now
  | .message member (.accept commit nonce) now balances =>
      dealtOf (citizen.acceptDeal setting member commit nonce now balances) balances now
  | _ => none

theorem dealtOf_eq_some
    {passed : Except Outcome (Citizen × Deal)}
    {dealt : Dealt}
    (isDealt : dealtOf passed balances now = some dealt) :
    (∃ next, passed = .ok (next, dealt.deal)) ∧ dealt.balances = balances ∧ dealt.now = now := by
  unfold dealtOf at isDealt
  split at isDealt
  · cases isDealt
  · rename_i next deal
    split at isDealt
    · obtain rfl := Option.some.inj isDealt
      exact ⟨⟨next, rfl⟩, rfl, rfl⟩
    · cases isDealt

/-- A message deals a hand to its sender who sits, or to its sender who accepts a
challenge and the challenger. -/
theorem dealBy_message_cases
    {message : ToCitizen}
    {dealt : Dealt}
    (isDealt : citizen.dealBy setting (.message member message now balances) = some dealt) :
    (dealt.balances = balances ∧ dealt.now = now) ∧
      ((∃ commit bb next, SitPassed setting citizen member commit bb now balances next
          dealt.deal) ∨
        ∃ commit next, AcceptPassed setting citizen member commit now balances next
          dealt.deal) := by
  unfold dealBy at isDealt
  split at isDealt
  · rename_i isSit
    cases isSit
    obtain ⟨⟨next, passed⟩, sameBalances, sameTime⟩ := dealtOf_eq_some isDealt
    exact ⟨⟨sameBalances, sameTime⟩, .inl ⟨_, _, next, sitDeal_ok passed⟩⟩
  · rename_i isAccept
    cases isAccept
    obtain ⟨⟨next, passed⟩, sameBalances, sameTime⟩ := dealtOf_eq_some isDealt
    exact ⟨⟨sameBalances, sameTime⟩, .inr ⟨_, next, acceptDeal_ok passed⟩⟩
  · cases isDealt

/-- A hand is dealt to a member who sits, or to the two members of a challenge that is
accepted. -/
theorem dealBy_cases
    {input : Input}
    {dealt : Dealt}
    (isDealt : citizen.dealBy setting input = some dealt) :
    (∃ member commit bb next, SitPassed setting citizen member commit bb dealt.now
        dealt.balances next dealt.deal) ∨
      ∃ member commit next, AcceptPassed setting citizen member commit dealt.now
        dealt.balances next dealt.deal := by
  cases input with
  | message member message now balances =>
      obtain ⟨⟨rfl, rfl⟩, ⟨commit, bb, next, passed⟩ | ⟨commit, next, passed⟩⟩ :=
        dealBy_message_cases isDealt
      · exact .inl ⟨member, commit, bb, next, passed⟩
      · exact .inr ⟨member, commit, next, passed⟩
  | _ => cases isDealt

/-- The members of a hand against the house are the one who sat, if it is not the
house. -/
theorem SitPassed.mem_members
    (passed : SitPassed setting citizen member commit bb now balances next deal)
    {other : String}
    (isMember : other ∈ deal.members setting) :
    other = member := by
  unfold Deal.members at isMember
  rw [passed.seats, passed.house, List.mem_filter] at isMember
  simp only [List.mem_cons, List.not_mem_nil, or_false, Bool.not_true, Bool.false_or,
    bne_iff_ne] at isMember
  exact isMember.1.resolve_right isMember.2

/-- The members of a hand between members are the one who accepted and the challenger. -/
theorem AcceptPassed.mem_members
    (passed : AcceptPassed setting citizen member commit now balances next deal)
    {other : String}
    (isMember : other ∈ deal.members setting) :
    other = member ∨ deal.seats.1 = other := by
  obtain ⟨challenge, _, _, _, _, seats, _⟩ := passed.challenge
  unfold Deal.members at isMember
  rw [List.mem_filter, seats] at isMember
  simp only [List.mem_cons, List.not_mem_nil, or_false] at isMember
  rw [seats]
  exact isMember.1.symm.imp_right Eq.symm

end Citizen

end HouseSeat
end NostrBbs
