import NostrBbs.Auth.Invites
import NostrBbs.Lib.Update

/-!
# Uses and redeemers

An invite's uses against the redeemers that are recorded for it: what is counted, the
order in which a request performs its statements, and what each statement does to the
counts.
-/

namespace NostrBbs
namespace Auth

open Lib.Program (call)
open Whitelist (ZoneMeta)

/-! ## Charges -/

/-- The invite that an event took a use of. -/
def chargeOf : InviteEvent → Option String
  | ⟨.incrementUses inviteId _, _, .ok 1⟩ => some inviteId
  | _ => none

/-! ## What the tables keep -/

/-- Two rows of one invite: its id, its code and its issuer never change. -/
def SameInvite (first second : InviteRow) : Prop :=
  first.id = second.id ∧ first.code = second.code ∧ first.issuedBy = second.issuedBy

theorem SameInvite.trans
    {first second third : InviteRow}
    (one : SameInvite first second)
    (two : SameInvite second third) :
    SameInvite first third :=
  ⟨one.1.trans two.1, one.2.1.trans two.2.1, one.2.2.trans two.2.2⟩

namespace Invitations

variable {invitations : Invitations}

theorem mem_incrementUses
    {inviteId : String}
    {now : Int}
    {row : InviteRow} :
    row ∈ (invitations.incrementUses inviteId now).table.rows ↔
      ∃ old ∈ invitations.table.rows,
        (if takesUse inviteId now old then { old with uses := old.uses + 1 } else old) = row := by
  simp [incrementUses, update, Lib.Table.updateWhere]

theorem mem_revoke
    {now : Int}
    {caller inviteId : String}
    {row : InviteRow} :
    row ∈ (invitations.revoke now caller inviteId).table.rows ↔
      ∃ old ∈ invitations.table.rows,
        (if old.id.text = inviteId then
          { old with revokedAt := some now, revokedBy := some caller } else old) = row := by
  simp [revoke, update, Lib.Table.updateWhere]

theorem insert_eq_some
    {row : InviteRow}
    {after : Invitations}
    (inserted : invitations.insert row = some after) :
    row.key ∉ invitations.table.rows.map InviteRow.key ∧
      after.table.rows = row :: invitations.table.rows := by
  unfold insert at inserted
  split at inserted
  · rename_i fresh
    cases inserted
    exact ⟨fresh.1, rfl⟩
  · cases inserted

end Invitations

section Tables

variable (db : InviteDb) (choice : InviteChoice)

/-! The tables after each write. -/

theorem db_insertInvite
    (row : InviteRow) :
    (answerInvite db choice (.insertInvite row)).1 = db ∨
      ∃ invitations, db.invitations.insert row = some invitations ∧
        (answerInvite db choice (.insertInvite row)).1 = { db with invitations := invitations } := by
  cases failed : choice.failure with
  | some reason => exact .inl (by simp only [answerInvite, failed])
  | none =>
      cases inserted : db.invitations.insert row with
      | none => exact .inl (by simp only [answerInvite, failed, inserted])
      | some invitations =>
          exact .inr ⟨invitations, rfl, by simp only [answerInvite, failed, inserted]⟩

theorem db_incrementUses
    (inviteId : String)
    (now : Int) :
    (answerInvite db choice (.incrementUses inviteId now)).1 = db ∨
      choice.failure = none ∧ (answerInvite db choice (.incrementUses inviteId now)).1 =
        { db with invitations := db.invitations.incrementUses inviteId now } := by
  cases failed : choice.failure with
  | some reason => exact .inl (by simp only [answerInvite, failed])
  | none => exact .inr ⟨rfl, by simp only [answerInvite, failed]⟩

theorem db_revokeInvite
    (now : Int)
    (caller inviteId : String) :
    (answerInvite db choice (.revokeInvite now caller inviteId)).1 = db ∨
      (answerInvite db choice (.revokeInvite now caller inviteId)).1 =
        { db with invitations := db.invitations.revoke now caller inviteId } := by
  cases failed : choice.failure with
  | some reason => exact .inl (by simp only [answerInvite, failed])
  | none => exact .inr (by simp only [answerInvite, failed])

theorem db_insertRedemption
    (row : RedemptionRow) :
    (answerInvite db choice (.insertRedemption row)).1 = db ∨
      ∃ redemptions, db.redemptions.insert row = some redemptions ∧
        (answerInvite db choice (.insertRedemption row)).1 =
          { db with redemptions := redemptions } := by
  cases failed : choice.failure with
  | some reason => exact .inl (by simp only [answerInvite, failed])
  | none =>
      cases inserted : db.redemptions.insert row with
      | none => exact .inl (by simp only [answerInvite, failed, inserted])
      | some redemptions =>
          exact .inr ⟨redemptions, rfl, by simp only [answerInvite, failed, inserted]⟩

theorem db_upsertMember
    (pubkey inviteId : String)
    (now : Int) :
    (answerInvite db choice (.upsertMember pubkey inviteId now)).1 = db ∨
      (answerInvite db choice (.upsertMember pubkey inviteId now)).1 =
        { db with members := upsertMember db.members pubkey inviteId now } := by
  cases failed : choice.failure with
  | some reason => exact .inl (by simp only [answerInvite, failed])
  | none => exact .inr (by simp only [answerInvite, failed])

variable {db choice}

/-- An invite stays held, and revoked once it is. -/
theorem kept_answerInvite
    (op : InviteOp)
    {old : InviteRow}
    (held : old ∈ db.invitations.table.rows) :
    ∃ row ∈ (answerInvite db choice op).1.invitations.table.rows, SameInvite old row ∧
      (old.revokedAt.isSome → row.revokedAt.isSome) := by
  have kept : (answerInvite db choice op).1.invitations = db.invitations →
      ∃ row ∈ (answerInvite db choice op).1.invitations.table.rows, SameInvite old row ∧
        (old.revokedAt.isSome → row.revokedAt.isSome) := by
    intro unchanged
    rw [unchanged]
    exact ⟨old, held, ⟨rfl, rfl, rfl⟩, id⟩
  cases op with
  | insertInvite fresh =>
      rcases db_insertInvite db choice fresh with isDb | ⟨invitations, inserted, isAfter⟩
      · exact kept (by rw [isDb])
      · rw [isAfter]
        dsimp only
        rw [(Invitations.insert_eq_some inserted).2]
        exact ⟨old, List.mem_cons_of_mem _ held, ⟨rfl, rfl, rfl⟩, id⟩
  | incrementUses inviteId now =>
      rcases db_incrementUses db choice inviteId now with isDb | ⟨-, isAfter⟩
      · exact kept (by rw [isDb])
      · rw [isAfter]
        refine ⟨_, Invitations.mem_incrementUses.mpr ⟨old, held, rfl⟩, ?_, ?_⟩
        · split <;> exact ⟨rfl, rfl, rfl⟩
        · split <;> exact id
  | revokeInvite now caller inviteId =>
      rcases db_revokeInvite db choice now caller inviteId with isDb | isAfter
      · exact kept (by rw [isDb])
      · rw [isAfter]
        refine ⟨_, Invitations.mem_revoke.mpr ⟨old, held, rfl⟩, ?_, ?_⟩
        · split <;> exact ⟨rfl, rfl, rfl⟩
        · split
          · exact fun _ => rfl
          · exact id
  | insertRedemption redemption =>
      rcases db_insertRedemption db choice redemption with isDb | ⟨_, -, isAfter⟩
      · exact kept (by rw [isDb])
      · exact kept (by rw [isAfter])
  | upsertMember pubkey inviteId now =>
      rcases db_upsertMember db choice pubkey inviteId now with isDb | isAfter
      · exact kept (by rw [isDb])
      · exact kept (by rw [isAfter])
  | _ => exact kept rfl

end Tables

/-! ## Tasks -/

section Tasks

variable {task : InviteTask} {event : InviteEvent} {rest : InviteProgram InviteReply}
  {inviteId : String}

/-- A charge is an increment that changed one row. -/
theorem chargeOf_eq_some_iff :
    chargeOf event = some inviteId ↔
      ∃ now choice, event = ⟨.incrementUses inviteId now, choice, .ok 1⟩ := by
  constructor
  · intro isCharge
    obtain ⟨op, choice, answer⟩ := event
    cases op with
    | incrementUses id now =>
        unfold chargeOf at isCharge
        split at isCharge
        · rename_i isEvent
          cases isCharge
          exact ⟨_, _, isEvent⟩
        · cases isCharge
    | _ => cases isCharge
  · rintro ⟨now, choice, rfl⟩
    rfl

end Tasks

/-! ## Accounts -/

section Performing

variable {pool : InvitePool} {index : Nat} {choice : InviteChoice} {task : InviteTask}
  {op : InviteOp} {next : op.Answer → InviteProgram InviteReply}

/-! ## One operation -/

/-- A row that takes a use is the one that is counted. -/
theorem incremented_eq_one
    {db : InviteDb}
    {inviteId : String}
    {now : Int}
    {row : InviteRow}
    (held : row ∈ db.invitations.table.rows)
    (takes : Invitations.takesUse inviteId now row) :
    db.invitations.incremented inviteId now = 1 := by
  have isKey : ∀ other, Invitations.takesUse inviteId now other → other.key = inviteId := by
    intro other takesOther
    unfold Invitations.takesUse at takesOther
    simp only [Bool.and_eq_true, decide_eq_true_eq] at takesOther
    exact takesOther.1.1.1
  have found : db.invitations.table.find? inviteId = some row :=
    Lib.Table.find?_eq_some_iff.mpr ⟨held, isKey row takes⟩
  exact Lib.Table.countWhere_eq_one found takes isKey

/-- An increment charges exactly when some row takes the use. -/
theorem chargeOf_incrementUses
    {db : InviteDb}
    {inviteId : String}
    {now : Int} :
    chargeOf ⟨.incrementUses inviteId now, choice,
        (answerInvite db choice (.incrementUses inviteId now)).2⟩ = some inviteId ↔
      choice.failure = none ∧ ∃ row ∈ db.invitations.table.rows,
        Invitations.takesUse inviteId now row := by
  cases failed : choice.failure with
  | some reason =>
      have answered : (answerInvite db choice (.incrementUses inviteId now)).2 = .error reason := by
        simp only [answerInvite, failed]
      rw [answered]
      simp [chargeOf]
  | none =>
      have answered : (answerInvite db choice (.incrementUses inviteId now)).2 =
          .ok (db.invitations.incremented inviteId now) := by
        simp only [answerInvite, failed]
      rw [answered]
      constructor
      · intro isCharge
        obtain ⟨_, _, isEvent⟩ := chargeOf_eq_some_iff.mp isCharge
        injection isEvent with _ _ isOne
        injection isOne with isOne
        have positive : 0 < db.invitations.incremented inviteId now := by omega
        exact ⟨rfl, List.countP_pos_iff.mp positive⟩
      · rintro ⟨-, row, held, takes⟩
        rw [incremented_eq_one held takes]
        rfl

end Performing

end Auth
end NostrBbs
