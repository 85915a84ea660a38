import NostrBbs.Shared.Texts
import NostrBbs.Whitelist.Cohorts

/-!
# Invites

The tables of the auth worker's invites and the requests that mint, redeem and revoke
them.  A redemption checks, charges and records with one statement each, and other
requests may come between any two.  The same steps are taken when an invite is consumed
by a registration.
-/

namespace NostrBbs
namespace Auth

open Lib.Program (call)
open Shared (toAsciiLowercase trimChars)
open Whitelist (ZoneMeta resolveZone CohortOp Circumstance)

/-! ## Codes -/

/-- A character of the alphabet of codes. -/
def isCodeChar (char : Char) : Bool :=
  char.isAlphanum || char == '_' || char == '-'

def isValidCode (text : String) : Bool :=
  text != "" && text.utf8ByteSize ≤ 32 && text.toList.all isCodeChar

/-- A random text of some length over the alphabet. -/
structure Code (length : Nat) where
  text : String
  hasLength : text.length = length
  inAlphabet : text.toList.all isCodeChar
deriving DecidableEq

/-- The id and the code of an invite, as a draw may give them. -/
def plainDraw : Code 8 × Code 16 :=
  (⟨"AAAAAAAA", by decide, by decide⟩, ⟨"BBBBBBBBBBBBBBBB", by decide, by decide⟩)

/-! ## Rows -/

structure InviteRow where
  id : Code 8
  code : Code 16
  issuedBy : String
  maxUses : Nat
  uses : Nat
  expiresAt : Int
  revokedAt : Option Int
  revokedBy : Option String
  createdAt : Int
  zoneId : Option String
deriving DecidableEq

def InviteRow.key (row : InviteRow) : String :=
  row.id.text

structure RedemptionRow where
  invitationId : String
  pubkey : String
  redeemedAt : Int
deriving DecidableEq

def RedemptionRow.key (row : RedemptionRow) : String × String :=
  (row.invitationId, row.pubkey)

structure MemberRow where
  pubkey : String
  isAdmin : Int
  joinedViaInviteId : Option String
  firstSeenAt : Option Int
  createdAt : Int
deriving DecidableEq

structure SettingsRow where
  minDaysActive : Int
  invitesPerUser : Int
  inviteExpiryHours : Int
deriving DecidableEq

/-- The `invitations` table: ids are its primary key, and codes are unique. -/
structure Invitations where
  table : Lib.Table InviteRow InviteRow.key
  distinctCodes : (table.rows.map fun row => row.code.text).Nodup

namespace Invitations

variable (invitations : Invitations)

def empty : Invitations :=
  ⟨Lib.Table.empty, List.nodup_nil⟩

/-- Inserting an invite, which fails when its id or its code is held. -/
def insert (row : InviteRow) : Option Invitations :=
  if fresh : row.key ∉ invitations.table.rows.map InviteRow.key ∧
      row.code.text ∉ invitations.table.rows.map fun row => row.code.text then
    some
      { table :=
          { rows := row :: invitations.table.rows
            distinct := List.nodup_cons.mpr ⟨fresh.1, invitations.table.distinct⟩ }
        distinctCodes := List.nodup_cons.mpr ⟨fresh.2, invitations.distinctCodes⟩ }
  else none

/-- Changing the invites that a condition names, and of them neither id nor code. -/
def update (condition : InviteRow → Bool) (change : InviteRow → InviteRow)
    (keepsId : ∀ row, (change row).key = row.key)
    (keepsCode : ∀ row, (change row).code = row.code) : Invitations where
  table := invitations.table.updateWhere condition change keepsId
  distinctCodes := by
    have sameCodes : ((invitations.table.updateWhere condition change keepsId).rows.map
        fun row => row.code.text) = invitations.table.rows.map fun row => row.code.text := by
      unfold Lib.Table.updateWhere
      rw [List.map_map]
      apply List.map_congr_left
      intro row _
      rw [Function.comp_apply]
      split
      · rw [keepsCode row]
      · rfl
    rw [sameCodes]
    exact invitations.distinctCodes

def selectByCode (code : String) : Option InviteRow :=
  invitations.table.rows.find? fun row => row.code.text = code

def selectByIdOrCode (text : String) : Option InviteRow :=
  invitations.table.rows.find? fun row => row.id.text = text || row.code.text = text

/-- `SELECT COUNT(*) … WHERE issued_by = ?1 AND revoked_at IS NULL AND expires_at > ?2 AND
uses < max_uses` -/
def activeCount (pubkey : String) (now : Int) : Nat :=
  invitations.table.countWhere fun row =>
    row.issuedBy = pubkey && row.revokedAt.isNone && now < row.expiresAt && row.uses < row.maxUses

/-- The guard of the increment. -/
def takesUse (inviteId : String) (now : Int) (row : InviteRow) : Bool :=
  row.id.text = inviteId && row.uses < row.maxUses && row.revokedAt.isNone && now < row.expiresAt

/-- `UPDATE invitations SET uses = uses + 1 WHERE id = ?1 AND uses < max_uses AND
revoked_at IS NULL AND expires_at > ?2` -/
def incrementUses (inviteId : String) (now : Int) : Invitations :=
  invitations.update (takesUse inviteId now) (fun row => { row with uses := row.uses + 1 })
    (fun _ => rfl) fun _ => rfl

/-- The rows that the increment changes. -/
def incremented (inviteId : String) (now : Int) : Nat :=
  invitations.table.countWhere (takesUse inviteId now)

/-- `UPDATE invitations SET revoked_at = ?1, revoked_by = ?2 WHERE id = ?3` -/
def revoke (now : Int) (caller inviteId : String) : Invitations :=
  invitations.update (fun row => row.id.text = inviteId)
    (fun row => { row with revokedAt := some now, revokedBy := some caller })
    (fun _ => rfl) fun _ => rfl

end Invitations

/-- What the invite routes read and write, of both databases. -/
structure InviteDb where
  invitations : Invitations
  redemptions : Lib.Table RedemptionRow RedemptionRow.key
  members : Lib.Table MemberRow MemberRow.pubkey
  settings : Option SettingsRow
  whitelist : Whitelist

/-! ## Statements -/

inductive InviteOp where
  | now
  | selectSettings
  | selectMember (pubkey : String)
  | activeInviteCount (pubkey : String) (now : Int)
  | insertInvite (row : InviteRow)
  /-- The row of a code, and the clock as it is read right after. -/
  | selectInviteByCode (code : String)
  | selectInviteByIdOrCode (text : String)
  | countRedemptions (inviteId pubkey : String)
  | incrementUses (inviteId : String) (now : Int)
  | insertRedemption (row : RedemptionRow)
  | upsertMember (pubkey inviteId : String) (now : Int)
  | revokeInvite (now : Int) (caller inviteId : String)
  | relay (op : CohortOp)

/-- A read that fails answers as if there were nothing; an insert or update that fails
answers with the database's reason. -/
abbrev InviteOp.Answer : InviteOp → Type
  | .now => Int
  | .selectSettings => Option SettingsRow
  | .selectMember _ => Option MemberRow
  | .activeInviteCount _ _ => Nat
  | .insertInvite _ => Except String Unit
  | .selectInviteByCode _ => Option InviteRow × Int
  | .selectInviteByIdOrCode _ => Option InviteRow
  | .countRedemptions _ _ => Nat
  | .incrementUses _ _ => Except String Nat
  | .insertRedemption _ => Bool
  | .upsertMember _ _ _ => Bool
  | .revokeInvite _ _ _ => Except String Unit
  | .relay op => op.Answer

/-- How a statement goes: why it fails, if it does, and what the clock tells. -/
structure InviteChoice where
  failure : Option String
  now : Int

def InviteChoice.circumstance (choice : InviteChoice) : Circumstance :=
  ⟨choice.failure.isSome, choice.now⟩

/-- `INSERT INTO members … ON CONFLICT (pubkey) DO UPDATE SET joined_via_invite_id` -/
def upsertMember (members : Lib.Table MemberRow MemberRow.pubkey) (pubkey inviteId : String)
    (now : Int) : Lib.Table MemberRow MemberRow.pubkey :=
  (members.insert ⟨pubkey, 0, some inviteId, some now, now⟩).getD
    (members.updateWhere (fun row => row.pubkey = pubkey)
      (fun row => { row with joinedViaInviteId := some inviteId }) fun _ => rfl)

def answerInvite (db : InviteDb) (choice : InviteChoice) :
    (op : InviteOp) → InviteDb × op.Answer
  | .now => (db, choice.now)
  | .selectSettings => (db, if choice.failure.isSome then none else db.settings)
  | .selectMember pubkey => (db, if choice.failure.isSome then none else db.members.find? pubkey)
  | .activeInviteCount pubkey now =>
      (db, if choice.failure.isSome then 0 else db.invitations.activeCount pubkey now)
  | .insertInvite row =>
      match choice.failure with
      | some reason => (db, .error reason)
      | none =>
          match db.invitations.insert row with
          | some invitations => ({ db with invitations := invitations }, .ok ())
          | none => (db, .error "UNIQUE constraint failed")
  | .selectInviteByCode code =>
      (db, if choice.failure.isSome then none else db.invitations.selectByCode code, choice.now)
  | .selectInviteByIdOrCode text =>
      (db, if choice.failure.isSome then none else db.invitations.selectByIdOrCode text)
  | .countRedemptions inviteId pubkey =>
      (db, if choice.failure.isSome then 0 else
        db.redemptions.countWhere fun row => row.key = (inviteId, pubkey))
  | .incrementUses inviteId now =>
      match choice.failure with
      | some reason => (db, .error reason)
      | none =>
          ({ db with invitations := db.invitations.incrementUses inviteId now },
            .ok (db.invitations.incremented inviteId now))
  | .insertRedemption row =>
      match choice.failure with
      | some _ => (db, false)
      | none =>
          match db.redemptions.insert row with
          | some redemptions => ({ db with redemptions := redemptions }, true)
          | none => (db, false)
  | .upsertMember pubkey inviteId now =>
      match choice.failure with
      | some _ => (db, false)
      | none => ({ db with members := upsertMember db.members pubkey inviteId now }, true)
  | .revokeInvite now caller inviteId =>
      match choice.failure with
      | some reason => (db, .error reason)
      | none =>
          ({ db with invitations := db.invitations.revoke now caller inviteId }, .ok ())
  | .relay op =>
      let answered := Whitelist.answerCohort db.whitelist choice.circumstance op
      ({ db with whitelist := answered.1 }, answered.2)

/-! ## Requests -/

structure CreateBody where
  maxUses : Option Nat
  zoneId : Option String

/-- A request with the public key of its verified token, or the registration of a key. -/
inductive InviteRequest where
  | create (pubkey : String) (body : CreateBody) (random : Option (Code 8 × Code 16))
  | redeem (code redeemer : String)
  | consumeForRegistration (code redeemer : String)
  | revoke (inviteId caller : String)

inductive InviteReply where
  | created (row : InviteRow)
  | redeemed (invitationId issuer : String) (joinedAt : Int) (zoneId : Option String)
      (grantedCohorts : List String)
  | idempotent (invitationId : String)
  | consumed
  | revoked (id : String) (revokedAt : Int) (revokedBy : String)
  | alreadyRevoked (id : String)
  | error (message : String) (status : Nat)
  | refused (reason : String)
deriving DecidableEq

abbrev InviteProgram := Lib.Program InviteOp InviteOp.Answer

inductive InviteState where
  | revoked
  | expired
  | used
  | active
deriving DecidableEq, Repr

def classify (row : InviteRow) (now : Int) : InviteState :=
  if row.revokedAt.isSome then .revoked
  else if row.expiresAt ≤ now then .expired
  else if row.maxUses ≤ row.uses then .used
  else .active

section Handlers

variable (isStaticAdmin : String → Bool) (zones : List ZoneMeta)

def isAdmin (pubkey : String) : InviteProgram Bool :=
  let pubkey := toAsciiLowercase pubkey
  if isStaticAdmin pubkey then
    pure true
  else do
    let row : Option Int ← call (InviteOp.relay (.admin (.selectIsAdmin pubkey)))
    pure (row == some 1)

/-- The settings when there is no row of them. -/
def defaultSettings : SettingsRow :=
  ⟨7, 3, 168⟩

/-- The zone that an invite is bound to: an admin's, if at all, and a known one. -/
def boundZone (callerIsAdmin : Bool) (body : CreateBody) : Except InviteReply (Option String) :=
  let zone := body.zoneId.map fun zone => String.ofList (trimChars zone.toList)
  match zone.filter (· ≠ "") with
  | none => .ok none
  | some zone =>
      if !callerIsAdmin then .error (.error "Only admins can mint zone-bound invites" 403)
      else if (resolveZone zones zone).isNone then .error (.error s!"Unknown zone: {zone}" 400)
      else .ok (some zone)

/-- Who is no admin mints once it is a member for long enough and has few active
invites. -/
def mintingGate (pubkey : String) (settings : SettingsRow) (member : Option MemberRow) :
    InviteProgram (Option InviteReply) :=
  match member with
  | none => pure (some (.error "Only registered members can create invites" 403))
  | some member => do
      let now : Int ← call InviteOp.now
      let daysActive := (now - member.firstSeenAt.getD 0).tdiv 86400
      if daysActive < settings.minDaysActive then
        pure (some (.error
          s!"Account too new: {daysActive}/{settings.minDaysActive} days active required" 403))
      else do
        let count : Nat ← call (InviteOp.activeInviteCount pubkey now)
        if settings.invitesPerUser ≤ (count : Int) then
          pure (some (.error
            s!"Invite cap reached: {count}/{settings.invitesPerUser} active" 403))
        else pure none

/-- The row of a new invite. -/
def mint (pubkey : String) (settings : SettingsRow) (maxUses : Nat) (zoneId : Option String)
    (codes : Code 8 × Code 16) : InviteProgram InviteReply := do
  let now : Int ← call InviteOp.now
  let row : InviteRow :=
    { id := codes.1
      code := codes.2
      issuedBy := pubkey
      maxUses := maxUses
      uses := 0
      expiresAt := now + settings.inviteExpiryHours * 3600
      revokedAt := none
      revokedBy := none
      createdAt := now
      zoneId := zoneId }
  let inserted : Except String Unit ← call (InviteOp.insertInvite row)
  match inserted with
  | .error reason => pure (.error s!"Insert failed: {reason}" 500)
  | .ok _ => pure (.created row)

/-- Admins choose how often their invites are used; those of others are used once. -/
def maxUsesOf (callerIsAdmin : Bool) (body : CreateBody) : Nat :=
  min (max (if callerIsAdmin then body.maxUses.getD 1 else 1) 1) 100

def handleCreate (pubkey : String) (body : CreateBody) (random : Option (Code 8 × Code 16)) :
    InviteProgram InviteReply := do
  let row : Option SettingsRow ← call InviteOp.selectSettings
  let settings := row.getD defaultSettings
  let member : Option MemberRow ← call (InviteOp.selectMember pubkey)
  let callerIsAdmin ← isAdmin isStaticAdmin pubkey
  match boundZone zones callerIsAdmin body with
  | .error reply => pure reply
  | .ok zoneId => do
      let gate := if callerIsAdmin then pure none else mintingGate pubkey settings member
      let refused ← gate
      match refused with
      | some reply => pure reply
      | none =>
          match random with
          | none => pure (.error "CSPRNG unavailable: cannot generate secure invite code" 500)
          | some codes => mint pubkey settings (maxUsesOf callerIsAdmin body) zoneId codes

/-- How a route that takes a use reports. -/
structure Route where
  invalidCode : InviteReply
  refuse : String → Nat → InviteReply
  incrementFailed : String → InviteReply
  already : String → InviteReply
  done : InviteRow → Int → List String → InviteReply

def redeemRoute : Route where
  invalidCode := .error "Invalid code" 400
  refuse := .error
  incrementFailed reason := .error s!"Increment failed: {reason}" 500
  already := .idempotent
  done row now granted := .redeemed row.id.text row.issuedBy now row.zoneId granted

def consumeRoute : Route where
  invalidCode := .refused "Invalid invite code"
  refuse reason _ := .refused reason
  incrementFailed _ := .refused "Increment failed"
  already _ := .consumed
  done _ _ _ := .consumed

/-- What an invite to a zone grants besides membership. -/
def grantZone (redeemer : String) (zoneId : Option String) : InviteProgram (List String) :=
  match zoneId.bind (resolveZone zones) with
  | none => pure []
  | some zone => do
      (Whitelist.grantZoneCohorts redeemer zone.requiredCohorts).embed InviteOp.relay
        fun _ answer => answer
      pure zone.requiredCohorts

/-- What follows a use that was taken. -/
def admitRedeemer (route : Route) (row : InviteRow) (redeemer : String) (now : Int) :
    InviteProgram InviteReply := do
  let _ ← call (InviteOp.insertRedemption ⟨row.id.text, redeemer, now⟩)
  let _ ← call (InviteOp.upsertMember redeemer row.id.text now)
  let granted ← grantZone zones redeemer row.zoneId
  pure (route.done row now granted)

/-- Taking a use of an invite that was read as active. -/
def takeUse (route : Route) (row : InviteRow) (redeemer : String) (now : Int) :
    InviteProgram InviteReply := do
  let already : Nat ← call (InviteOp.countRedemptions row.id.text redeemer)
  if 0 < already then pure (route.already row.id.text)
  else do
    let changed : Except String Nat ← call (InviteOp.incrementUses row.id.text now)
    match changed with
    | .error reason => pure (route.incrementFailed reason)
    | .ok changed =>
        if changed ≠ 1 then pure (route.refuse "Invite is fully used" 409)
        else admitRedeemer zones route row redeemer now

/-- What is done once an invite is read. -/
def onInvite (route : Route) (redeemer : String) (now : Int) :
    Option InviteRow → InviteProgram InviteReply
  | none => pure (route.refuse "Invite not found" 404)
  | some row =>
      match classify row now with
      | .revoked => pure (route.refuse "Invite has been revoked" 410)
      | .expired => pure (route.refuse "Invite expired" 410)
      | .used => pure (route.refuse "Invite is fully used" 409)
      | .active =>
          if row.issuedBy = redeemer then
            pure (route.refuse "Cannot redeem your own invite" 400)
          else takeUse zones route row redeemer now

/-- The two routes that take a use. -/
def consume (route : Route) (code redeemer : String) : InviteProgram InviteReply :=
  if !isValidCode code then pure route.invalidCode
  else do
    let selected : Option InviteRow × Int ← call (InviteOp.selectInviteByCode code)
    onInvite zones route redeemer selected.2 selected.1

def handleRedeem (code redeemer : String) : InviteProgram InviteReply :=
  consume zones redeemRoute code redeemer

def consumeForRegistration (code redeemer : String) : InviteProgram InviteReply :=
  consume zones consumeRoute code redeemer

def handleRevoke (inviteId caller : String) : InviteProgram InviteReply :=
  if !isValidCode inviteId then pure (.error "Invalid invite id" 400)
  else do
    let selected : Option InviteRow ← call (InviteOp.selectInviteByIdOrCode inviteId)
    match selected with
    | none => pure (.error "Invite not found" 404)
    | some row => do
        let callerIsAdmin ← isAdmin isStaticAdmin caller
        if row.issuedBy ≠ caller && !callerIsAdmin then
          pure (.error "Not authorised to revoke this invite" 403)
        else if row.revokedAt.isSome then pure (.alreadyRevoked row.id.text)
        else do
          let now : Int ← call InviteOp.now
          let updated : Except String Unit ← call (InviteOp.revokeInvite now caller inviteId)
          match updated with
          | .error reason => pure (.error s!"Revoke failed: {reason}" 500)
          | .ok _ => pure (.revoked row.id.text now caller)

def handleInvite : InviteRequest → InviteProgram InviteReply
  | .create pubkey body random => handleCreate isStaticAdmin zones pubkey body random
  | .redeem code redeemer => handleRedeem zones code redeemer
  | .consumeForRegistration code redeemer => consumeForRegistration zones code redeemer
  | .revoke inviteId caller => handleRevoke isStaticAdmin inviteId caller

end Handlers

/-- The invites' tables and the requests that are being answered. -/
abbrev InvitePool :=
  Lib.Pool InviteDb InviteRequest InviteOp InviteChoice InviteOp.Answer InviteReply

abbrev InviteMove := Lib.Move InviteRequest InviteChoice

abbrev InviteEvent := Lib.Event InviteOp InviteChoice InviteOp.Answer

def stepInvites (isStaticAdmin : String → Bool) (zones : List ZoneMeta) :
    InvitePool → InviteMove → InvitePool :=
  Lib.Pool.step (handleInvite isStaticAdmin zones) answerInvite

end Auth
end NostrBbs
