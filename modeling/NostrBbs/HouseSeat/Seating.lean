import NostrBbs.HouseSeat.Door
import Mathlib.Logic.Function.Basic
import NostrBbs.Poker.Chips

/-!
# Who sits where

A member's session names the hand that the member plays, and the hands on the table name
their players.  Commitments name offers, challenges and hands, each at most one of them.
-/

namespace NostrBbs
namespace HouseSeat

open Poker (Hand)

/-! ## Sound hands -/

/-- A hand on the table was dealt to two players with the buy-in each, the house in the
second seat when it plays, and its chips are accounted for. -/
structure Live.Sound (setting : Setting) (live : Live) : Prop where
  house : live.house = true → live.seats.2 = setting.house.pubkey
  buyin : 0 < live.buyin
  twoSeats : live.hand.seats.length = 2
  chips : live.hand.Conserving (2 * live.buyin)

namespace Citizen

variable (setting : Setting) (citizen : Citizen)

/-! ## Reading -/

/-- The hand that a member's session names. -/
def liveOf (member : String) : Option String :=
  (citizen.session member).bind Session.live

/-- The commitment that a member was offered. -/
def offerOf (member : String) : Option String :=
  ((citizen.session member).bind Session.offer).map Prod.snd

/-! ## The invariant -/

variable {setting citizen} {next : Citizen} {member commit : String}

/-! ## Sessions, hands and challenges after a change -/

theorem session_withSession
    (citizen : Citizen)
    (member : String)
    (change : Session → Session)
    (other : String) :
    (citizen.withSession member change).session other =
      if other = member then some (change ((citizen.session member).getD Session.new))
      else citizen.session other := by
  unfold withSession session
  dsimp only
  rw [Lib.Table.find?_put]
  split <;> rfl

theorem liveOf_withSession
    (citizen : Citizen)
    (member : String)
    (change : Session → Session)
    (other : String) :
    (citizen.withSession member change).liveOf other =
      if other = member then (change ((citizen.session member).getD Session.new)).live
      else citizen.liveOf other := by
  unfold liveOf
  rw [session_withSession]
  split <;> rfl

theorem offerOf_withSession
    (citizen : Citizen)
    (member : String)
    (change : Session → Session)
    (other : String) :
    (citizen.withSession member change).offerOf other =
      if other = member then
        ((change ((citizen.session member).getD Session.new)).offer).map Prod.snd
      else citizen.offerOf other := by
  unfold offerOf
  rw [session_withSession]
  split <;> rfl

/-- A change of a session that keeps its offer keeps everyone's. -/
theorem offerOf_withSession_of_keeps
    (citizen : Citizen)
    (member : String)
    {change : Session → Session}
    (keeps : ∀ session, (change session).offer = session.offer) :
    (citizen.withSession member change).offerOf = citizen.offerOf := by
  funext other
  rw [offerOf_withSession]
  split
  · rename_i same
    rw [keeps, same]
    unfold offerOf
    cases citizen.session member <;> rfl
  · rfl

/-! ## Hands -/

theorem hand_put
    (citizen : Citizen)
    (commit : String)
    (live : Live) :
    ({ citizen with hands := citizen.hands.put (commit, live) } : Citizen).hand =
      Function.update citizen.hand commit (some live) := by
  funext other
  unfold hand
  dsimp only
  rw [Lib.Table.find?_put]
  by_cases same : other = commit
  · rw [if_pos same, same, Function.update_self]
    rfl
  · rw [if_neg same, Function.update_of_ne same]

theorem hand_erase
    (citizen : Citizen)
    (commit : String) :
    ({ citizen with hands := citizen.hands.erase commit } : Citizen).hand =
      Function.update citizen.hand commit none := by
  funext other
  unfold hand
  dsimp only
  rw [Lib.Table.find?_erase]
  by_cases same : other = commit
  · rw [if_pos same, same, Function.update_self]
    rfl
  · rw [if_neg same, Function.update_of_ne same]

/-- A dealt hand as it is put on the table. -/
def Deal.live (deal : Deal) (hand : Hand) : Live where
  seats := deal.seats
  house := deal.house
  secret := deal.secret
  nonces := deal.nonces
  seed := deal.seed
  buyin := deal.stake.buyin
  hand := hand

/-- The sessions of some members made to name a hand. -/
theorem seatMembers
    (members : List String)
    (citizen : Citizen)
    (commit : String) :
    let seated := members.foldl (fun citizen member => citizen.withSession member fun session =>
      { session with live := some commit }) citizen
    (∀ member, seated.liveOf member =
        if member ∈ members then some commit else citizen.liveOf member) ∧
      seated.offerOf = citizen.offerOf ∧ seated.challenges = citizen.challenges ∧
      seated.hands = citizen.hands ∧ seated.drawn = citizen.drawn := by
  induction members generalizing citizen with
  | nil => exact ⟨fun _ => rfl, rfl, rfl, rfl, rfl⟩
  | cons first members inductionHypothesis =>
      obtain ⟨live, offers, challenges, hands, drawn⟩ := inductionHypothesis
        (citizen.withSession first fun session => { session with live := some commit })
      refine ⟨fun member => ?_, ?_, challenges, hands, drawn⟩
      · refine (live member).trans ?_
        rw [liveOf_withSession]
        by_cases isFirst : member = first
        · simp [isFirst]
        · simp [isFirst]
      · refine offers.trans ?_
        exact offerOf_withSession_of_keeps citizen first fun _ => rfl

theorem hand_seatHand
    (setting : Setting)
    (citizen : Citizen)
    (deal : Deal)
    (hand : Hand) :
    (citizen.seatHand setting deal hand).hand =
      Function.update citizen.hand deal.commit (some (deal.live hand)) := by
  obtain ⟨_, _, _, sameHands, _⟩ := seatMembers (deal.members setting) citizen deal.commit
  rw [← show _ = citizen.hand from
    funext fun commit => congrArg (fun hands => (hands.find? commit).map Prod.snd) sameHands]
  exact hand_put _ deal.commit (deal.live hand)

/-! ## Releasing -/

theorem hand_changeSession
    (citizen : Citizen)
    (member : String)
    (change : Session → Session) :
    (citizen.changeSession member change).hand = citizen.hand := by
  unfold changeSession
  split <;> rfl

theorem hand_release
    (citizen : Citizen)
    (commit : String)
    (live : Live) :
    (citizen.release commit live).hand = Function.update citizen.hand commit none := by
  unfold release releaseSeat
  dsimp only
  rw [hand_changeSession, hand_changeSession, hand_erase]

end Citizen

end HouseSeat
end NostrBbs
