import NostrBbs.Auth.Redemptions

/-!
# Revoked invites

A revocation looks its invite up by id or by code, and writes it back by id.  No use is
taken of an invite whose revocation was answered ok, exactly in the runs in which none is
taken of an invite that was named by its code.
-/

namespace NostrBbs
namespace Auth

open Lib.Program (call)
open Whitelist (ZoneMeta)

/-! ## What is claimed, and when it holds -/

/-- The invite that a revocation was answered ok for. -/
def revokedId : InviteReply → Option String
  | .revoked inviteId _ _ => some inviteId
  | .alreadyRevoked inviteId => some inviteId
  | _ => none

/-- A revocation that named an invite in some way was answered ok. -/
def AnsweredOk (pool : InvitePool) (name inviteId : String) : Prop :=
  ∃ task ∈ pool.tasks, ∃ caller reply, task.request = .revoke name caller ∧
    task.rest = .done reply ∧ revokedId reply = some inviteId

/-- This move takes no use of an invite whose revocation was answered ok. -/
def StaysDead (pool : InvitePool) : InviteMove → Prop
  | .start _ => True
  | .advance index choice =>
      ∀ task ∈ pool.tasks[index]?, ∀ op next, task.rest = .perform op next → ∀ inviteId,
        chargeOf ⟨op, choice, (answerInvite pool.state choice op).2⟩ = some inviteId →
          ∀ name, ¬AnsweredOk pool name inviteId

/-- When this move increments the uses of an invite that meets the guard, no revocation that
named it by its code was answered ok. -/
def NotNamedByCode (pool : InvitePool) : InviteMove → Prop
  | .start _ => True
  | .advance index choice =>
      ∀ task ∈ pool.tasks[index]?, ∀ inviteId now next,
        task.rest = .perform (.incrementUses inviteId now) next → choice.failure = none →
          ∀ row ∈ pool.state.invitations.table.rows, Invitations.takesUse inviteId now row →
            ¬AnsweredOk pool row.code.text inviteId

/-! ## What a revocation knows -/

/-- The invite that was read is held, under a name of its own, and revoked if it was. -/
def ReadOf (db : InviteDb) (name : String) (row : InviteRow) : Prop :=
  ∃ held ∈ db.invitations.table.rows, SameInvite row held ∧
    (row.key = name ∨ row.code.text = name) ∧ (row.revokedAt.isSome → held.revokedAt.isSome)

/-- The invite that was read is revoked if it was named by its id. -/
def RevokedBy (db : InviteDb) (name : String) (row : InviteRow) : Prop :=
  ∃ held ∈ db.invitations.table.rows, SameInvite row held ∧
    (row.key = name → held.revokedAt.isSome)

/-- What the statements that were performed tell of the tables. -/
structure Told (db : InviteDb) (past : List InviteEvent) : Prop where
  read : ∀ name choice row,
    (⟨.selectInviteByIdOrCode name, choice, some row⟩ : InviteEvent) ∈ past → ReadOf db name row
  written : ∀ before now caller name choice after readChoice row,
    past = before ++ (⟨.revokeInvite now caller name, choice, .ok ()⟩ : InviteEvent) :: after →
      (⟨.selectInviteByIdOrCode name, readChoice, some row⟩ : InviteEvent) ∈ before →
        RevokedBy db name row

/-- A revocation that is answered ok read the invite, revoked already or to be revoked with
its last statement. -/
def okAfter (request : InviteRequest) (past : List InviteEvent) (reply : InviteReply) : Prop :=
  ∀ name caller inviteId, request = .revoke name caller → revokedId reply = some inviteId →
    ∃ row choice before, row.key = inviteId ∧
      (⟨.selectInviteByIdOrCode name, choice, some row⟩ : InviteEvent) ∈ before ∧
        ((row.revokedAt.isSome ∧ past = before) ∨
          ∃ now writeChoice, past =
            before ++ [(⟨.revokeInvite now caller name, writeChoice, .ok ()⟩ : InviteEvent)])

section Told

variable {db : InviteDb} {choice : InviteChoice} {name : String} {row : InviteRow}

theorem ReadOf.stable
    (op : InviteOp)
    (read : ReadOf db name row) :
    ReadOf (answerInvite db choice op).1 name row := by
  obtain ⟨old, held, same, named, revoked⟩ := read
  obtain ⟨later, isLater, sameLater, revokedLater⟩ := kept_answerInvite op held
  exact ⟨later, isLater, same.trans sameLater, named, fun isRevoked =>
    revokedLater (revoked isRevoked)⟩

theorem RevokedBy.stable
    (op : InviteOp)
    (written : RevokedBy db name row) :
    RevokedBy (answerInvite db choice op).1 name row := by
  obtain ⟨old, held, same, revoked⟩ := written
  obtain ⟨later, isLater, sameLater, revokedLater⟩ := kept_answerInvite op held
  exact ⟨later, isLater, same.trans sameLater, fun isNamed => revokedLater (revoked isNamed)⟩

theorem Told.stable
    (op : InviteOp)
    {past : List InviteEvent}
    (told : Told db past) :
    Told (answerInvite db choice op).1 past where
  read name choice row isPast := (told.read name choice row isPast).stable op
  written before now caller name choice after readChoice row isSplit isRead :=
    (told.written before now caller name choice after readChoice row isSplit isRead).stable op

/-- A read invite is the one of its name. -/
theorem readOf_selected
    (selected : (answerInvite db choice (.selectInviteByIdOrCode name)).2 = some row) :
    ReadOf db name row := by
  unfold answerInvite at selected
  dsimp only at selected
  split at selected
  · cases selected
  · have named := List.find?_some selected
    rw [Bool.or_eq_true, decide_eq_true_eq, decide_eq_true_eq] at named
    exact ⟨row, List.mem_of_find?_eq_some selected, ⟨rfl, rfl, rfl⟩, named, id⟩

/-- The update of a revocation revokes the invite that it names by its id. -/
theorem revokedBy_revokeInvite
    {now : Int}
    {caller : String}
    (answered : (answerInvite db choice (.revokeInvite now caller name)).2 = .ok ())
    (read : ReadOf db name row) :
    RevokedBy (answerInvite db choice (.revokeInvite now caller name)).1 name row := by
  obtain ⟨old, held, same, -⟩ := read
  cases failed : choice.failure with
  | some reason =>
      simp only [answerInvite, failed] at answered
      cases answered
  | none =>
      have isAfter : (answerInvite db choice (.revokeInvite now caller name)).1 =
          { db with invitations := db.invitations.revoke now caller name } := by
        simp only [answerInvite, failed]
      rw [isAfter]
      refine ⟨_, Invitations.mem_revoke.mpr ⟨old, held, rfl⟩, same.trans ?_, ?_⟩
      · split <;> exact ⟨rfl, rfl, rfl⟩
      · intro isNamed
        have oldNamed : old.id.text = name := by
          rw [← isNamed]
          exact (congrArg Code.text same.1).symm
        rw [if_pos oldNamed]
        rfl

/-- What was performed tells the truth of the tables after one more statement. -/
theorem Told.next
    (op : InviteOp)
    {past : List InviteEvent}
    (told : Told db past) :
    Told (answerInvite db choice op).1
      (past ++ [⟨op, choice, (answerInvite db choice op).2⟩]) := by
  have stable : Told (answerInvite db choice op).1 past := told.stable op
  refine ⟨?_, ?_⟩
  · intro name readChoice row isPast
    rcases List.mem_append.mp isPast with earlier | last
    · exact stable.read name readChoice row earlier
    · have isEvent := List.mem_singleton.mp last
      cases op with
      | selectInviteByIdOrCode asked =>
          injection isEvent with sameOp sameChoice sameAnswer
          cases sameOp
          exact (readOf_selected sameAnswer.symm).stable _
      | _ =>
          injection isEvent with sameOp
          cases sameOp
  · intro before now caller name writeChoice after readChoice row isSplit isRead
    rcases List.eq_nil_or_concat after with rfl | ⟨earlier, last, rfl⟩
    · obtain ⟨rfl, isLast⟩ := List.append_inj' isSplit rfl
      obtain isEvent := (List.cons.inj isLast).1
      cases op with
      | revokeInvite asked who named =>
          injection isEvent with sameOp sameChoice sameAnswer
          cases sameOp
          exact revokedBy_revokeInvite sameAnswer (told.read name readChoice row isRead)
      | _ =>
          injection isEvent with sameOp
          cases sameOp
    · rw [List.concat_eq_append, ← List.cons_append, ← List.append_assoc] at isSplit
      obtain ⟨isEarlier, -⟩ := List.append_inj' isSplit rfl
      exact stable.written before now caller name writeChoice earlier readChoice row isEarlier
        isRead

end Told

/-! ## The replies of revocations -/

section Replies

variable (isStaticAdmin : String → Bool) (zones : List ZoneMeta)

/-- Other requests answer no revocation ok. -/
theorem okAfter_of_ne
    {request : InviteRequest}
    (other : ∀ name caller, request ≠ .revoke name caller)
    (program : InviteProgram InviteReply)
    (past : List InviteEvent) :
    program.Yields (okAfter request) past :=
  (Lib.Program.yields_past program).mono fun _ _ _ name caller _ isRevoke =>
    absurd isRevoke (other name caller)

theorem yields_error
    {request : InviteRequest}
    {past : List InviteEvent}
    (message : String)
    (status : Nat) :
    (pure (.error message status) : InviteProgram InviteReply).Yields (okAfter request) past :=
  fun _ _ _ _ isOk => by cases isOk

theorem yields_handleRevoke
    (name caller : String) :
    (handleRevoke isStaticAdmin name caller).Yields (okAfter (.revoke name caller)) [] := by
  unfold handleRevoke
  split
  · exact yields_error _ _
  · intro choice selected
    cases selected with
    | none => exact yields_error _ _
    | some row =>
        change (isAdmin isStaticAdmin caller >>= fun callerIsAdmin => _).Yields _ _
        refine Lib.Program.Yields.bind (Lib.Program.yields_past _) ?_
        intro more callerIsAdmin isPrefix
        have isRead : (⟨.selectInviteByIdOrCode name, choice, some row⟩ : InviteEvent) ∈
            [] ++ [⟨.selectInviteByIdOrCode name, choice, some row⟩] ++ more :=
          isPrefix.subset (by simp)
        generalize [] ++ [(⟨.selectInviteByIdOrCode name, choice, some row⟩ : InviteEvent)] ++
          more = past at isRead ⊢
        split
        · exact yields_error _ _
        · split
          · rename_i isRevoked
            intro name' caller' inviteId isRevoke isOk
            cases isRevoke
            exact ⟨row, choice, past, Option.some.inj isOk, isRead, .inl ⟨isRevoked, rfl⟩⟩
          · intro clockChoice now writeChoice updated
            cases updated with
            | error reason => exact yields_error _ _
            | ok done =>
                intro name' caller' inviteId isRevoke isOk
                cases isRevoke
                exact ⟨row, choice, _, Option.some.inj isOk, List.mem_append_left _ isRead,
                  .inr ⟨now, writeChoice, rfl⟩⟩

theorem yields_handleInvite
    (request : InviteRequest) :
    (handleInvite isStaticAdmin zones request).Yields (okAfter request) [] := by
  cases request with
  | revoke name caller => exact yields_handleRevoke isStaticAdmin name caller
  | create pubkey body random => exact okAfter_of_ne (fun _ _ same => by cases same) _ _
  | redeem code redeemer => exact okAfter_of_ne (fun _ _ same => by cases same) _ _
  | consumeForRegistration code redeemer =>
      exact okAfter_of_ne (fun _ _ same => by cases same) _ _

/-! ## Runs -/

/-- What each request knows of the tables, and how it will be answered. -/
def knows (db : InviteDb) (request : InviteRequest) (past : List InviteEvent)
    (rest : InviteProgram InviteReply) : Prop :=
  Told db past ∧ rest.Yields (okAfter request) past

theorem knows_step
    (pool : InvitePool)
    (move : InviteMove)
    (asserts : pool.Asserts knows) :
    (stepInvites isStaticAdmin zones pool move).Asserts knows := by
  apply Lib.Pool.asserts_step
  case begins =>
    intro db request
    refine ⟨⟨by rintro name choice row ⟨⟩, ?_⟩, yields_handleInvite isStaticAdmin zones request⟩
    intro before now caller name choice after readChoice row isSplit
    simp at isSplit
  case leads =>
    rintro db request past op next choice ⟨told, yields⟩
    exact ⟨told.next op, yields choice _⟩
  case stable =>
    rintro db request past rest choice op ⟨told, yields⟩
    exact ⟨told.stable op, yields⟩
  case asserts => exact asserts

/-- An invite whose revocation was answered ok is revoked, or was named by its code. -/
theorem revoked_of_answeredOk
    {pool : InvitePool}
    (asserts : pool.Asserts knows)
    {name inviteId : String}
    (answered : AnsweredOk pool name inviteId)
    {row : InviteRow}
    (held : row ∈ pool.state.invitations.table.rows)
    (isInvite : row.key = inviteId) :
    row.revokedAt.isSome ∨ row.code.text = name := by
  obtain ⟨task, member, caller, reply, isRevoke, isDone, isOk⟩ := answered
  obtain ⟨told, yields⟩ := asserts task member
  rw [isDone] at yields
  obtain ⟨read, choice, before, isKey, isRead, rest⟩ := yields name caller inviteId isRevoke isOk
  have sameRow : ∀ other ∈ pool.state.invitations.table.rows, SameInvite read other →
      other = row := by
    intro other otherHeld same
    apply pool.state.invitations.table.eq_of_key otherHeld held
    rw [isInvite, ← isKey]
    exact (congrArg Code.text same.1).symm
  rcases rest with ⟨isRevoked, rfl⟩ | ⟨now, writeChoice, isPast⟩
  · obtain ⟨other, otherHeld, same, -, revoked⟩ := told.read name choice read isRead
    rw [← sameRow other otherHeld same]
    exact .inl (revoked isRevoked)
  · obtain ⟨other, otherHeld, same, named, -⟩ :=
      told.read name choice read (isPast ▸ List.mem_append_left _ isRead)
    rcases named with byId | byCode
    · obtain ⟨wrote, wroteHeld, sameWrote, revoked⟩ :=
        told.written before now caller name writeChoice [] choice read isPast isRead
      rw [← sameRow wrote wroteHeld sameWrote]
      exact .inl (revoked byId)
    · rw [← sameRow other otherHeld same, ← same.2.1]
      exact .inr byCode

/-- A move takes no use of an invite that was revoked exactly when it takes none of one that
was named by its code. -/
theorem staysDead_iff_notNamedByCode
    (pool : InvitePool)
    (move : InviteMove)
    (asserts : pool.Asserts knows) :
    StaysDead pool move ↔ NotNamedByCode pool move := by
  cases move with
  | start request => exact Iff.rfl
  | advance index choice =>
      constructor
      · intro dead task found inviteId now next isRest succeeds row held takes
        exact dead task found _ next isRest inviteId
          (chargeOf_incrementUses.mpr ⟨succeeds, row, held, takes⟩) row.code.text
      · intro notNamed task found op next isRest inviteId isCharge name answered
        obtain ⟨now, _, isEvent⟩ := chargeOf_eq_some_iff.mp isCharge
        injection isEvent with isOp
        subst isOp
        obtain ⟨succeeds, row, held, takes⟩ := chargeOf_incrementUses.mp isCharge
        have guarded := takes
        unfold Invitations.takesUse at guarded
        simp only [Bool.and_eq_true, decide_eq_true_eq] at guarded
        rcases revoked_of_answeredOk asserts answered held guarded.1.1.1 with revoked | byCode
        · rw [Option.isNone_iff_eq_none.mp guarded.1.2] at revoked
          cases revoked
        · exact notNamed task found inviteId now next isRest succeeds row held takes
            (byCode ▸ answered)

/-- In a run of requests that mint, redeem, consume and revoke invites, from any tables: no
use is taken of an invite after its revocation was answered ok, exactly if none is taken of
an invite after a revocation that named it by its code was. -/
theorem stays_dead_iff
    (db : InviteDb)
    (moves : List InviteMove) :
    Lib.Along (stepInvites isStaticAdmin zones) StaysDead (Lib.Pool.idle db) moves ↔
      Lib.Along (stepInvites isStaticAdmin zones) NotNamedByCode (Lib.Pool.idle db) moves := by
  have initially : (Lib.Pool.idle db : InvitePool).Asserts knows := by
    rintro task ⟨⟩
  exact Lib.along_iff_along (fun pool move asserts _ => knows_step isStaticAdmin zones pool move
    asserts) staysDead_iff_notNamedByCode initially moves

end Replies

/-- A statement that succeeds. -/
def succeeding : InviteChoice :=
  ⟨none, 0⟩

/-- An admin's invite that is revoked by its code and then redeemed. -/
def revokeByCode : List InviteMove :=
  [.start (.create "ad" ⟨none, none⟩ (some plainDraw)),
    .advance 0 succeeding, .advance 0 succeeding, .advance 0 succeeding, .advance 0 succeeding,
    .start (.revoke "BBBBBBBBBBBBBBBB" "ad"),
    .advance 1 succeeding, .advance 1 succeeding, .advance 1 succeeding,
    .start (.redeem "BBBBBBBBBBBBBBBB" "cafe"),
    .advance 2 succeeding, .advance 2 succeeding]

/-- The revocation is answered ok, and the increment that follows takes a use. -/
theorem revoked_by_code_redeemed :
    let pool := Lib.run (stepInvites (fun pubkey => pubkey == "ad") [])
      (Lib.Pool.idle ⟨Invitations.empty, Lib.Table.empty, Lib.Table.empty, none, Lib.Table.empty⟩)
      revokeByCode
    AnsweredOk pool "BBBBBBBBBBBBBBBB" "AAAAAAAA" ∧ ¬StaysDead pool (.advance 2 succeeding) := by
  refine ⟨⟨_, List.mem_of_getElem? (i := 1) rfl, "ad", .revoked "AAAAAAAA" 0 "ad", rfl, rfl, rfl⟩,
    ?_⟩
  intro dead
  exact dead _ rfl _ _ rfl "AAAAAAAA" (by decide +kernel) "BBBBBBBBBBBBBBBB"
    ⟨_, List.mem_of_getElem? (i := 1) rfl, "ad", .revoked "AAAAAAAA" 0 "ad", rfl, rfl, rfl⟩

end Auth
end NostrBbs
