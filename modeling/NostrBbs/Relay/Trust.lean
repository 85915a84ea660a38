import NostrBbs.Lib.Table
import NostrBbs.Relay.Admission

/-!
# Trust levels and their policy

What the activity of a member earns, and when a level is taken back.
-/

namespace NostrBbs
namespace Relay

/-- A level by its number; numbers outside the ladder go to its ends. -/
def TrustLevel.fromI32 (number : Int) : TrustLevel :=
  if number ≤ 0 then
    .newcomer
  else if number = 1 then
    .member
  else if number = 2 then
    .regular
  else
    .trusted

/-- Thresholds for automatic changes; the settings can replace each of them. -/
structure TrustThresholds where
  tl1DaysActive : Int := 3
  tl1PostsRead : Int := 10
  tl1PostsCreated : Int := 1
  tl2DaysActive : Int := 14
  tl2PostsRead : Int := 50
  tl2PostsCreated : Int := 10
  demotionHysteresisPct : Int := 90

/-- About six months; no setting replaces it. -/
def inactivityDemotionSecs : Nat := 6 * 30 * 24 * 60 * 60

/-- What a whitelist row holds about trust. -/
structure WhitelistTrustRow where
  pubkey : String
  trustLevel : Int
  daysActive : Int := 0
  postsRead : Int := 0
  postsCreated : Int := 0
  modActionsAgainst : Int := 0
  lastActiveAt : Option Nat := none
  trustLevelUpdatedAt : Option Nat := none
  isAdmin : Option Int := none
deriving DecidableEq

abbrev TrustTable := Lib.Table WhitelistTrustRow WhitelistTrustRow.pubkey

/-- The level that activity qualifies for. -/
def computeTrustLevel
    (daysActive postsRead postsCreated modActionsAgainst : Int)
    (thresholds : TrustThresholds) : TrustLevel :=
  if thresholds.tl2DaysActive ≤ daysActive ∧ thresholds.tl2PostsRead ≤ postsRead ∧
      thresholds.tl2PostsCreated ≤ postsCreated ∧ modActionsAgainst = 0 then
    .regular
  else if thresholds.tl1DaysActive ≤ daysActive ∧ thresholds.tl1PostsRead ≤ postsRead ∧
      thresholds.tl1PostsCreated ≤ postsCreated then
    .member
  else
    .newcomer

def WhitelistTrustRow.computed
    (row : WhitelistTrustRow)
    (thresholds : TrustThresholds) : TrustLevel :=
  computeTrustLevel row.daysActive row.postsRead row.postsCreated row.modActionsAgainst thresholds

/-- Why the demotion policy leaves a level alone. -/
inductive HoldReason where
  | adminGrantedLevel | exemptAdminRow | atFloor | withinActivityWindow | clearsHysteresis
deriving DecidableEq

inductive DemotionDecision where
  | hold (reason : HoldReason)
  | demote (current target : TrustLevel)
deriving DecidableEq

/-- Whether a count is below its threshold times the hysteresis, in floating point. -/
abbrev BelowBand := (count threshold hysteresisPct : Int) → Bool

/-- Whether a row is demoted. -/
def decideDemotion
    (belowBand : BelowBand)
    (thresholds : TrustThresholds)
    (now : Nat)
    (row : WhitelistTrustRow) : DemotionDecision :=
  let current := TrustLevel.fromI32 row.trustLevel
  if current = .trusted then
    .hold .adminGrantedLevel
  else if current = .newcomer then
    .hold .atFloor
  else if row.isAdmin.getD 0 = 1 then
    .hold .exemptAdminRow
  else if (now : Int) - row.lastActiveAt.getD 0 < inactivityDemotionSecs then
    .hold .withinActivityWindow
  else
    let pct := thresholds.demotionHysteresisPct
    match current with
    | .regular =>
        if belowBand row.daysActive thresholds.tl2DaysActive pct ||
            belowBand row.postsRead thresholds.tl2PostsRead pct ||
            belowBand row.postsCreated thresholds.tl2PostsCreated pct ||
            0 < row.modActionsAgainst then
          if TrustLevel.member.asI32 ≤ (row.computed thresholds).asI32 then
            .demote current .member
          else
            .demote current .newcomer
        else
          .hold .clearsHysteresis
    | .member =>
        if belowBand row.daysActive thresholds.tl1DaysActive pct ||
            belowBand row.postsRead thresholds.tl1PostsRead pct ||
            belowBand row.postsCreated thresholds.tl1PostsCreated pct then
          .demote current .newcomer
        else
          .hold .clearsHysteresis
    | _ => .hold .atFloor

/-! ## Facts of the policy -/

variable {belowBand : BelowBand} {thresholds : TrustThresholds} {now : Nat}
  {row : WhitelistTrustRow}

@[simp] theorem fromI32_asI32
    (level : TrustLevel) :
    TrustLevel.fromI32 level.asI32 = level := by
  cases level <;> decide

/-- A demotion starts at the level of the row, lowers it, and takes nothing from a
trusted or an exempt row. -/
theorem decideDemotion_lowers
    {current target : TrustLevel}
    (demotes : decideDemotion belowBand thresholds now row = .demote current target) :
    current = .fromI32 row.trustLevel ∧ target.asI32 < current.asI32 ∧ current ≠ .trusted ∧
      row.isAdmin.getD 0 ≠ 1 := by
  unfold decideDemotion at demotes
  simp only at demotes
  split at demotes
  · cases demotes
  · next notTrusted =>
    split at demotes
    · cases demotes
    · split at demotes
      · cases demotes
      · next notAdmin =>
        split at demotes
        · cases demotes
        · split at demotes
          · next isRegular =>
            split at demotes
            · split at demotes <;> cases demotes <;>
                exact ⟨rfl, by rw [isRegular]; decide, notTrusted, notAdmin⟩
            · cases demotes
          · next isMember =>
            split at demotes
            · cases demotes
              exact ⟨rfl, by rw [isMember]; decide, notTrusted, notAdmin⟩
            · cases demotes
          · cases demotes

end Relay
end NostrBbs
