import Mathlib.Data.List.Sort
import NostrBbs.Lib.Best
import NostrBbs.Relay.Admission

/-!
# Bans and mutes

Administrators ban, mute, unban and unmute keys with events that are mirrored into rows,
one for each event.  What is in force against a key is resolved from its rows by the times
that the events were signed with.
-/

namespace NostrBbs
namespace Relay

/-! ## Rows -/

inductive ModerationAction where
  | ban | mute | unban | unmute
deriving DecidableEq, Repr

structure ActionRow where
  id : String
  action : ModerationAction
  targetPubkey : String
  performedBy : String
  reason : Option String
  expiresAt : Option Int
  eventId : String
  createdAt : Nat
deriving DecidableEq, Repr

/-- A signed number of 64 bits as the source reads it from a text. -/
def parseSigned (text : String) : Option Int :=
  match text.toList with
  | '-' :: digits =>
      if digits.head? = some '+' then none
      else ((parseUnsigned 64 (String.ofList digits)).filter (· ≤ 2 ^ 63)).map fun value =>
        -(value : Int)
  | _ => (parseUnsigned 63 text).map Int.ofNat

/-! ## The rows of a key -/

/-- `ORDER BY created_at DESC`, which leaves the order within a second open. -/
structure ActionOrder where
  order : List ActionRow → List ActionRow
  perm : ∀ rows, (order rows).Perm rows
  newestFirst : ∀ rows,
    (order rows).Pairwise fun first second => second.createdAt ≤ first.createdAt

/-- The most rows that are read of a key. -/
def maxActionRows : Nat := 40

/-- The rows of a key. -/
def actionsOn (rows : List ActionRow) (target : String) : List ActionRow :=
  rows.filter fun row => row.targetPubkey == target

/-- The rows that are read of a key. -/
def newestActions (order : ActionOrder) (rows : List ActionRow) (target : String) :
    List ActionRow :=
  (order.order (actionsOn rows target)).take maxActionRows

/-! ## What is in force -/

/-- The strongest moderation state of a key. -/
inductive Block where
  | none
  | banned
  | mutedUntil (last : Int)
  | unknown
deriving DecidableEq, Repr

/-- What the rows of a key come to. -/
structure ActionSummary where
  lastBan : Option Nat
  lastUnban : Option Nat
  lastMute : Option Nat
  lastUnmute : Option Nat
  mutePerm : Bool
  muteBestUntil : Option Int
deriving DecidableEq, Repr

namespace ActionSummary

def empty : ActionSummary :=
  ⟨none, none, none, none, false, none⟩

/-- The next row of the key. -/
def add (now : Nat) (summary : ActionSummary) (row : ActionRow) : ActionSummary :=
  match row.action with
  | .ban => { summary with lastBan := Lib.larger summary.lastBan row.createdAt }
  | .unban => { summary with lastUnban := Lib.larger summary.lastUnban row.createdAt }
  | .mute =>
      let muted := { summary with lastMute := Lib.larger summary.lastMute row.createdAt }
      match row.expiresAt with
      | none => { muted with mutePerm := true }
      | some last =>
          if (now : Int) < last then
            { muted with muteBestUntil := Lib.larger summary.muteBestUntil last }
          else muted
  | .unmute => { summary with lastUnmute := Lib.larger summary.lastUnmute row.createdAt }

def ofRows (now : Nat) (rows : List ActionRow) : ActionSummary :=
  rows.foldl (add now) empty

def banActive (summary : ActionSummary) : Bool :=
  match summary.lastBan, summary.lastUnban with
  | some ban, some unban => unban < ban
  | some _, none => true
  | none, _ => false

def muteCancelled (summary : ActionSummary) : Bool :=
  match summary.lastMute, summary.lastUnmute with
  | some mute, some unmute => mute ≤ unmute
  | _, _ => false

end ActionSummary

/-- The state that the rows of a key come to. -/
def resolveBlock (rows : List ActionRow) (now : Nat) : Block :=
  let summary := ActionSummary.ofRows now rows
  if summary.banActive then .banned
  else if summary.muteCancelled then .none
  else if summary.mutePerm then .banned
  else
    match summary.muteBestUntil with
    | some last => .mutedUntil last
    | none => .none

/-- The state of a key by the rows that were read of it, if they could be read. -/
def loadState (read : Option (List ActionRow)) (now : Nat) : Block :=
  match read with
  | none => .unknown
  | some rows => resolveBlock rows now

namespace ActionRow

/-- A ban, or a mute that has not expired. -/
def Sanctions (row : ActionRow) (now : Nat) : Prop :=
  row.action = .ban ∨ row.action = .mute ∧ ∀ last ∈ row.expiresAt, (now : Int) < last

/-- A row that lifts another: of the opposite action, and signed no earlier. -/
def Lifts (lift row : ActionRow) : Prop :=
  (lift.action = .unban ∧ row.action = .ban ∨ lift.action = .unmute ∧ row.action = .mute) ∧
    row.createdAt ≤ lift.createdAt

instance Lifts.decidable (lift row : ActionRow) : Decidable (lift.Lifts row) :=
  inferInstanceAs (Decidable (_ ∧ _))

end ActionRow

/-! ## The rule -/

/-- The newest of the bans and unbans is a ban. -/
def newestIsBan (rows : List ActionRow) : Bool :=
  rows.any fun row => row.action == .ban &&
    rows.all fun lift => lift.action != .unban || lift.createdAt < row.createdAt

/-- The mutes that were issued strictly after the newest unmute. -/
def standingMutes (rows : List ActionRow) : List ActionRow :=
  rows.filter fun row => row.action == .mute &&
    rows.all fun lift => lift.action != .unmute || lift.createdAt < row.createdAt

/-- What a key's rows should come to: the newest of the bans and unbans decides on the ban,
and only the mutes after the newest unmute count, of which a permanent one blocks for ever
and otherwise the one that expires last. -/
def referenceBlock (rows : List ActionRow) (now : Nat) : Block :=
  if newestIsBan rows then .banned
  else
    let mutes := standingMutes rows
    if mutes.any fun mute => mute.expiresAt.isNone then .banned
    else
      match ((mutes.filterMap ActionRow.expiresAt).filter fun last => (now : Int) < last).max? with
      | some last => .mutedUntil last
      | none => .none

end Relay
end NostrBbs
