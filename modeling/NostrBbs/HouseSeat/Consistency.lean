import NostrBbs.HouseSeat.Settling
import NostrBbs.HouseSeat.Solvency

/-!
# One table

Sessions, hands and the book change together: a member is in one hand at most, a session
names a hand exactly when the hand seats its member, every hand on the table is in play,
and a hand that ends is put in the book once.
-/

namespace NostrBbs
namespace HouseSeat
namespace Citizen

open Poker (Hand)

/-! ## The invariant -/

variable {setting : Setting} {floor : Nat} {citizen next : Citizen} {input : Input}
  {commit : String} {live : Live} {now : Nat}

end Citizen

/-! ## A hand without a root -/

namespace Sample

/-- A table at a big blind of 2 ^ 53, which no canonical record can state. -/
def highStakes : Setting :=
  { setting with
    cfg :=
      { setting.cfg with
        stakesBb := [2 ^ 53]
        buyinBb := 1
        dailyCap := 2 ^ 54 }
    root := fun record =>
      if 2 ^ 53 ≤ record.bb then
        .error "cannot canonicalise the hand record: 9007199254740992 is beyond 2^53 - 1"
      else setting.root record }

end Sample

end HouseSeat
end NostrBbs
