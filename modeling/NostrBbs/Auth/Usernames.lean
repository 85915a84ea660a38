import NostrBbs.Shared.Texts
import NostrBbs.Whitelist.Cohorts

/-!
# Usernames

The reservations of usernames, one for a username and one for a member, and the mirror of
them that a key-value store keeps for lookups by name.  A claim writes the reservation and
then the mirror, a release takes both away in this order, and a dismissal only writes the
reservation.
-/

namespace NostrBbs
namespace Auth

open Lib.Program (call)
open Relay (isAsciiHexdigit)
open Shared (toAsciiLowercase trimChars)
open Whitelist (ZoneMeta CohortOp Circumstance)

/-! ## Names -/

inductive UsernameError where
  | invalidLength
  | invalidCharset
  | reserved
  | backend (reason : String)
  | usernameTaken
  | pubkeyHasUsername
deriving DecidableEq, Repr

namespace UsernameError

def httpStatus : UsernameError → Nat
  | invalidLength => 400
  | invalidCharset => 400
  | reserved => 400
  | usernameTaken => 409
  | pubkeyHasUsername => 409
  | backend _ => 500

def message : UsernameError → String
  | invalidLength => "Username must be 3-30 characters"
  | invalidCharset => "Username may only contain a-z, 0-9, _ or -, and may not start with - or _"
  | reserved => "Username is reserved"
  | usernameTaken => "Username already taken"
  | pubkeyHasUsername => "This account already owns a username"
  | backend reason => s!"Backend error: {reason}"

end UsernameError

def reservedNames : List String :=
  ["admin", "anon", "help", "mod", "null", "official", "root", "support", "system", "undefined"]

/-- The characters that a username may begin with. -/
def isNameStart (char : Char) : Bool :=
  char.isLower || char.isDigit

def isNameChar (char : Char) : Bool :=
  isNameStart char || char = '_' || char = '-'

def validateUsername (username : String) : Except UsernameError Unit :=
  if username.utf8ByteSize < 3 || 30 < username.utf8ByteSize then .error .invalidLength
  else if !(username.toList.take 1).all isNameStart then .error .invalidCharset
  else if !(username.toList.drop 1).all isNameChar then .error .invalidCharset
  else if username ∈ reservedNames then .error .reserved
  else .ok ()

def realNameMaxLen : Nat := 200

/-- The real name without the white space around it; the empty one clears it. -/
def normaliseRealName (raw : String) : Except UsernameError (Option String) :=
  let trimmed := String.ofList (trimChars raw.toList)
  if trimmed = "" then .ok none
  else if realNameMaxLen < trimmed.utf8ByteSize then .error .invalidLength
  else .ok (some trimmed)

/-! ## Rows -/

inductive ReservationStatus where
  | active
  | dismissed
deriving DecidableEq, Repr

structure ReservationRow where
  username : String
  pubkey : String
  createdAt : Int
  status : ReservationStatus
  realName : Option String
deriving DecidableEq, Repr

/-- Whether a row holds its username for its public key. -/
def ReservationRow.isActive (row : ReservationRow) : Bool :=
  row.status = .active

/-- The `username_reservations` table: usernames are its primary key, and public keys are
unique. -/
structure Reservations where
  table : Lib.Table ReservationRow ReservationRow.username
  distinctPubkeys : (table.rows.map ReservationRow.pubkey).Nodup

namespace Reservations

variable (reservations : Reservations)

def empty : Reservations :=
  ⟨Lib.Table.empty, List.nodup_nil⟩

/-- Inserting a row, which fails when its username or its public key is held, and when the
username has no proper length. -/
def insert (row : ReservationRow) : Option Reservations :=
  if fresh : row.username ∉ reservations.table.rows.map ReservationRow.username ∧
      row.pubkey ∉ reservations.table.rows.map ReservationRow.pubkey then
    if 3 ≤ row.username.length ∧ row.username.length ≤ 30 then
      some
        { table :=
            { rows := row :: reservations.table.rows
              distinct := List.nodup_cons.mpr ⟨fresh.1, reservations.table.distinct⟩ }
          distinctPubkeys := List.nodup_cons.mpr ⟨fresh.2, reservations.distinctPubkeys⟩ }
    else none
  else none

/-- Changing the rows that a condition names, and of them neither username nor public
key. -/
def update (condition : ReservationRow → Bool) (change : ReservationRow → ReservationRow)
    (keepsUsername : ∀ row, (change row).username = row.username)
    (keepsPubkey : ∀ row, (change row).pubkey = row.pubkey) : Reservations where
  table := reservations.table.updateWhere condition change keepsUsername
  distinctPubkeys := by
    have samePubkeys : ((reservations.table.updateWhere condition change keepsUsername).rows.map
        ReservationRow.pubkey) = reservations.table.rows.map ReservationRow.pubkey := by
      unfold Lib.Table.updateWhere
      rw [List.map_map]
      apply List.map_congr_left
      intro row _
      rw [Function.comp_apply]
      split
      · exact keepsPubkey row
      · rfl
    rw [samePubkeys]
    exact reservations.distinctPubkeys

/-- `SELECT pubkey … WHERE username = ?1 AND status = 'active'` -/
def check (username : String) : Option String :=
  (reservations.table.rows.find? fun row => row.username = username && row.isActive).map
    ReservationRow.pubkey

/-- `SELECT username … WHERE pubkey = ?1 AND status = 'active'` -/
def lookupByPubkey (pubkey : String) : Option String :=
  (reservations.table.rows.find? fun row => row.pubkey = pubkey && row.isActive).map
    ReservationRow.username

/-- `UPDATE … SET real_name = ?1 WHERE pubkey = ?2` -/
def setRealName (realName : Option String) (pubkey : String) : Reservations :=
  reservations.update (fun row => row.pubkey = pubkey) (fun row => { row with realName := realName })
    (fun _ => rfl) fun _ => rfl

/-- `DELETE … WHERE pubkey = ?1` -/
def delete (pubkey : String) : Reservations where
  table := reservations.table.retain fun row => row.pubkey ≠ pubkey
  distinctPubkeys := reservations.distinctPubkeys.sublist (List.filter_sublist.map _)

/-- `UPDATE … SET status = 'dismissed' WHERE pubkey = ?1 AND status = 'active'` -/
def dismiss (pubkey : String) : Reservations :=
  reservations.update (fun row => row.pubkey = pubkey && row.isActive)
    (fun row => { row with status := .dismissed }) (fun _ => rfl) fun _ => rfl

/-- The rows that a dismissal changes. -/
def dismissed (pubkey : String) : Nat :=
  reservations.table.countWhere fun row => row.pubkey = pubkey && row.isActive

end Reservations

/-- An entry of the key-value store. -/
structure PodMetaEntry where
  key : String
  value : String
deriving DecidableEq, Repr

def nip05Key (username : String) : String :=
  "nip05:" ++ username

structure UsernameDb where
  reservations : Reservations
  podMeta : Lib.Table PodMetaEntry PodMetaEntry.key
  whitelist : Whitelist

/-! ## Statements -/

inductive UsernameOp where
  | now
  | insertReservation (row : ReservationRow)
  | check (username : String)
  | lookupByPubkey (pubkey : String)
  | setRealName (realName : Option String) (pubkey : String)
  | deleteReservation (pubkey : String)
  | dismissReservation (pubkey : String)
  | putMeta (key value : String)
  | deleteMeta (key : String)
  | relay (op : CohortOp)

abbrev UsernameOp.Answer : UsernameOp → Type
  | .now => Int
  | .insertReservation _ => Except String Unit
  | .check _ => Except String (Option String)
  | .lookupByPubkey _ => Except String (Option String)
  | .setRealName _ _ => Except String Unit
  | .deleteReservation _ => Except String Unit
  | .dismissReservation _ => Except String Nat
  | .putMeta _ _ => Except String Unit
  | .deleteMeta _ => Except String Unit
  | .relay op => op.Answer

/-- How a statement goes: why it fails, if it does, and what the clock tells. -/
structure UsernameChoice where
  failure : Option String
  now : Int

def UsernameChoice.circumstance (choice : UsernameChoice) : Circumstance :=
  ⟨choice.failure.isSome, choice.now⟩

/-- What a statement answers that leaves the tables as they are. -/
def readAs {Value : Type} (choice : UsernameChoice) (value : Value) : Except String Value :=
  choice.failure.elim (.ok value) .error

def answerUsername (db : UsernameDb) (choice : UsernameChoice) :
    (op : UsernameOp) → UsernameDb × op.Answer
  | .now => (db, choice.now)
  | .insertReservation row =>
      match choice.failure with
      | some reason => (db, .error reason)
      | none =>
          match db.reservations.insert row with
          | some reservations => ({ db with reservations := reservations }, .ok ())
          | none => (db, .error "UNIQUE constraint failed")
  | .check username => (db, readAs choice (db.reservations.check username))
  | .lookupByPubkey pubkey => (db, readAs choice (db.reservations.lookupByPubkey pubkey))
  | .setRealName realName pubkey =>
      match choice.failure with
      | some reason => (db, .error reason)
      | none =>
          ({ db with reservations := db.reservations.setRealName realName pubkey }, .ok ())
  | .deleteReservation pubkey =>
      match choice.failure with
      | some reason => (db, .error reason)
      | none => ({ db with reservations := db.reservations.delete pubkey }, .ok ())
  | .dismissReservation pubkey =>
      match choice.failure with
      | some reason => (db, .error reason)
      | none =>
          ({ db with reservations := db.reservations.dismiss pubkey },
            .ok (db.reservations.dismissed pubkey))
  | .putMeta key value =>
      match choice.failure with
      | some reason => (db, .error reason)
      | none => ({ db with podMeta := db.podMeta.put ⟨key, value⟩ }, .ok ())
  | .deleteMeta key =>
      match choice.failure with
      | some reason => (db, .error reason)
      | none => ({ db with podMeta := db.podMeta.erase key }, .ok ())
  | .relay op =>
      let answered := Whitelist.answerCohort db.whitelist choice.circumstance op
      ({ db with whitelist := answered.1 }, answered.2)

/-! ## Requests -/

structure ClaimBody where
  username : String
  realName : Option String

/-- A request with the public key of its verified token; the body is missing when it does
not parse. -/
inductive UsernameRequest where
  | claim (pubkey : String) (body : Option ClaimBody)
  | release (pubkey : String)
  | setOwnRealName (pubkey : String) (body : Option (Option String))
  | dismiss (caller : String) (body : Option String)

structure UsernameClaim where
  username : String
  pubkey : String
  createdAt : Int
deriving DecidableEq, Repr

inductive UsernameReply where
  | claimed (claim : UsernameClaim)
  | released (username : Option String)
  | realName (stored : Option String)
  | dismissed (changed : Bool)
  | error (message : String) (status : Nat)
deriving DecidableEq, Repr

abbrev UsernameProgram := Lib.Program UsernameOp UsernameOp.Answer

/-- The reply to a failed request. -/
def UsernameReply.ofError (failure : UsernameError) : UsernameReply :=
  .error failure.message failure.httpStatus

section Handlers

variable (isStaticAdmin : String → Bool) (toLowercase : String → String)
  (zones : List ZoneMeta)

/-- What follows when the reservation could not be inserted: the caller's own one is claimed
again, and any other is in the way. -/
def onConflict (claim : UsernameClaim) (realName : Option String) :
    UsernameProgram (Except UsernameError UsernameClaim) := do
  let existing : Except String (Option String) ← call (UsernameOp.check claim.username)
  match existing with
  | .ok (some holder) =>
      if holder = claim.pubkey then
        match realName with
        | none => pure (.ok claim)
        | some name => do
            let _ ← call (UsernameOp.setRealName (some name) claim.pubkey)
            pure (.ok claim)
      else pure (.error .usernameTaken)
  | _ => do
      let held : Except String (Option String) ← call (UsernameOp.lookupByPubkey claim.pubkey)
      match held with
      | .ok (some _) => pure (.error .pubkeyHasUsername)
      | _ => pure (.error (.backend "insert failed"))

/-- What follows once the reservation is inserted: the mirror and the whitelist are written
if they can be. -/
def onReserved (claim : UsernameClaim) :
    UsernameProgram (Except UsernameError UsernameClaim) := do
  let _ ← call (UsernameOp.putMeta (nip05Key claim.username) claim.pubkey)
  (Whitelist.whitelistJoiner zones claim.pubkey claim.createdAt).embed UsernameOp.relay
    fun _ answer => answer
  pure (.ok claim)

def claim (pubkey username : String) (realName : Option String) :
    UsernameProgram (Except UsernameError UsernameClaim) :=
  match validateUsername username with
  | .error failure => pure (.error failure)
  | .ok _ =>
      match (realName.elim (.ok none) normaliseRealName : Except UsernameError _) with
      | .error failure => pure (.error failure)
      | .ok realName => do
          let now : Int ← call UsernameOp.now
          let inserted : Except String Unit ←
            call (UsernameOp.insertReservation ⟨username, pubkey, now, .active, realName⟩)
          match inserted with
          | .error _ => onConflict ⟨username, pubkey, now⟩ realName
          | .ok _ => onReserved zones ⟨username, pubkey, now⟩

/-- What follows once the username of the caller is read. -/
def onHeld (pubkey : String) : Except String (Option String) →
    UsernameProgram (Except UsernameError (Option String))
  | .error reason => pure (.error (.backend s!"query failed: {reason}"))
  | .ok none => pure (.ok none)
  | .ok (some username) => do
      let _ ← call (UsernameOp.deleteReservation pubkey)
      let _ ← call (UsernameOp.deleteMeta (nip05Key username))
      pure (.ok (some username))

def release (pubkey : String) : UsernameProgram (Except UsernameError (Option String)) := do
  let existing : Except String (Option String) ← call (UsernameOp.lookupByPubkey pubkey)
  onHeld pubkey existing

def setRealName (pubkey : String) (raw : Option String) :
    UsernameProgram (Except UsernameError (Option String)) :=
  match (raw.elim (.ok none) normaliseRealName : Except UsernameError _) with
  | .error failure => pure (.error failure)
  | .ok clean => do
      let updated : Except String Unit ← call (UsernameOp.setRealName clean pubkey)
      match updated with
      | .error reason => pure (.error (.backend s!"update failed: {reason}"))
      | .ok _ => pure (.ok clean)

def handleClaim (pubkey : String) : Option ClaimBody → UsernameProgram UsernameReply
  | none => pure (.error "Invalid JSON body" 400)
  | some body => do
      let claimed ← claim zones pubkey (toLowercase body.username) body.realName
      match claimed with
      | .error failure => pure (.ofError failure)
      | .ok claim => pure (.claimed claim)

def handleRelease (pubkey : String) : UsernameProgram UsernameReply := do
  let released ← release pubkey
  match released with
  | .error failure => pure (.ofError failure)
  | .ok username => pure (.released username)

def handleSetOwnRealName (pubkey : String) :
    Option (Option String) → UsernameProgram UsernameReply
  | none => pure (.error "Invalid JSON body" 400)
  | some realName => do
      let stored ← setRealName pubkey realName
      match stored with
      | .error failure => pure (.ofError failure)
      | .ok stored => pure (.realName stored)

/-- A lowered public key of a dismissal. -/
def isDismissable (pubkey : String) : Bool :=
  pubkey.utf8ByteSize = 64 && pubkey.toList.all isAsciiHexdigit

/-- The dismissal of a parsed body. -/
def dismissRegistration : Option String → UsernameProgram UsernameReply
  | none => pure (.error "invalid JSON body" 400)
  | some pubkey =>
      if !isDismissable (toLowercase pubkey) then pure (.error "invalid pubkey" 400)
      else do
        let changed : Except String Nat ←
          call (UsernameOp.dismissReservation (toLowercase pubkey))
        match changed with
        | .error reason => pure (.error s!"update failed: {reason}" 500)
        | .ok changed => pure (.dismissed (0 < changed))

def handleAdminDismissRegistration (caller : String) (body : Option String) :
    UsernameProgram UsernameReply := do
  let callerIsAdmin ← (Whitelist.queryIsAdmin isStaticAdmin (toAsciiLowercase caller)).embed
    (fun op => UsernameOp.relay (.admin op)) fun _ answer => answer
  if !callerIsAdmin then pure (.error "Admin required" 403)
  else dismissRegistration toLowercase body

def handleUsername : UsernameRequest → UsernameProgram UsernameReply
  | .claim pubkey body => handleClaim toLowercase zones pubkey body
  | .release pubkey => handleRelease pubkey
  | .setOwnRealName pubkey body => handleSetOwnRealName pubkey body
  | .dismiss caller body => handleAdminDismissRegistration isStaticAdmin toLowercase caller body

end Handlers

/-- The tables and the requests that are being answered. -/
abbrev UsernamePool :=
  Lib.Pool UsernameDb UsernameRequest UsernameOp UsernameChoice UsernameOp.Answer UsernameReply

abbrev UsernameMove := Lib.Move UsernameRequest UsernameChoice

abbrev UsernameTask :=
  Lib.Task UsernameRequest UsernameOp UsernameChoice UsernameOp.Answer UsernameReply

abbrev UsernameEvent := Lib.Event UsernameOp UsernameChoice UsernameOp.Answer

def stepUsernames (isStaticAdmin : String → Bool) (toLowercase : String → String)
    (zones : List ZoneMeta) : UsernamePool → UsernameMove → UsernamePool :=
  Lib.Pool.step (handleUsername isStaticAdmin toLowercase zones) answerUsername

end Auth
end NostrBbs
