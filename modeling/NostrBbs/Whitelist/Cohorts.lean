import NostrBbs.Whitelist.Admins

/-!
# Cohorts

The statements that write the cohorts column of the whitelist, and the requests that
perform them: two of the relay's admins, the grant of an invite to a zone, and the insert
of a claimed username.  Requests of both workers interleave statement by statement.
-/

namespace NostrBbs
namespace Whitelist

open Lib.Program (call)

/-! ## What the statements do to a stored list -/

/-- The values that `json_each` yields; what is not JSON is read as an empty array. -/
def StoredCohorts.elements : StoredCohorts → List String
  | array values => values
  | nonArray values => values
  | invalid _ => []

/-- The rows of a `UNION`: each value once, in order. -/
def unionRows (first second : List String) : List String :=
  (first ++ second).dedup.insertionSort (· ≤ ·)

/-- What `WHITELIST_GRANT_COHORTS_SQL` stores in a row that exists. -/
def StoredCohorts.grant (granted : List String) : StoredCohorts → StoredCohorts
  | array held => array (held ++ granted.filter (· ∉ held))
  | _ => array granted

/-- What `WHITELIST_REVOKE_COHORTS_SQL` stores. -/
def StoredCohorts.revoke (named : List String) : StoredCohorts → StoredCohorts
  | array held => array (held.filter (· ∉ named))
  | other => other

/-- What `SQL_MERGE_COHORTS` stores. -/
def StoredCohorts.merge (granted : List String) (stored : StoredCohorts) : StoredCohorts :=
  .array (unionRows stored.elements granted)

/-! ## The statements -/

section Statements

variable (whitelist : Whitelist)

def grantCohorts (pubkey : String) (cohorts : List String) (addedAt : Int) (addedBy : String) :
    Whitelist :=
  (whitelist.insert ⟨pubkey, .array cohorts, addedAt, addedBy, 0, none⟩).getD
    (whitelist.updateWhere (fun row => row.pubkey = pubkey)
      (fun row => { row with cohorts := row.cohorts.grant cohorts, addedBy := addedBy })
      fun _ => rfl)

def revokeCohorts (pubkey : String) (cohorts : List String) : Whitelist :=
  whitelist.updateWhere (fun row => row.pubkey = pubkey)
    (fun row => { row with cohorts := row.cohorts.revoke cohorts }) fun _ => rfl

/-- `SQL_MERGE_COHORTS` -/
def mergeCohorts (cohorts : List String) (pubkey : String) : Whitelist :=
  whitelist.updateWhere (fun row => row.pubkey = pubkey)
    (fun row => { row with cohorts := row.cohorts.merge cohorts }) fun _ => rfl

/-- `INSERT … ON CONFLICT (pubkey) DO NOTHING` -/
def insertOrIgnore (row : WhitelistRow) : Whitelist :=
  (whitelist.insert row).getD whitelist

/-- The batch of an update: what is granted, then what is revoked. -/
def updateCohorts (pubkey : String) (add remove : List String) (addedAt : Int)
    (addedBy : String) : Whitelist :=
  let granted := if add = [] then whitelist else whitelist.grantCohorts pubkey add addedAt addedBy
  if remove = [] then granted else granted.revokeCohorts pubkey remove

end Statements

inductive CohortOp where
  | admin (op : Op)
  | now
  | grantCohorts (pubkey : String) (cohorts : List String) (addedAt : Int) (addedBy : String)
  | updateCohorts (pubkey : String) (add remove : List String) (addedAt : Int)
      (addedBy : String)
  | insertOrIgnore (row : WhitelistRow)
  | mergeCohorts (cohorts : List String) (pubkey : String)

/-- The time, and whether a write succeeded. -/
abbrev CohortOp.Answer : CohortOp → Type
  | .admin op => op.Answer
  | .now => Int
  | _ => Bool

/-- How a statement goes: whether it fails, and what the clock tells. -/
structure Circumstance where
  failed : Bool
  now : Int

/-- A write that changes nothing when it fails. -/
def written (whitelist after : Whitelist) (failed : Bool) : Whitelist × Bool :=
  if failed then (whitelist, false) else (after, true)

def answerCohort (whitelist : Whitelist) (choice : Circumstance) :
    (op : CohortOp) → Whitelist × op.Answer
  | .admin op => answer whitelist choice.failed op
  | .now => (whitelist, choice.now)
  | .grantCohorts pubkey cohorts addedAt addedBy =>
      written whitelist (whitelist.grantCohorts pubkey cohorts addedAt addedBy) choice.failed
  | .updateCohorts pubkey add remove addedAt addedBy =>
      written whitelist (whitelist.updateCohorts pubkey add remove addedAt addedBy) choice.failed
  | .insertOrIgnore row => written whitelist (whitelist.insertOrIgnore row) choice.failed
  | .mergeCohorts cohorts pubkey =>
      written whitelist (whitelist.mergeCohorts cohorts pubkey) choice.failed

/-! ## The requests -/

/-- A list with what it lacks of another appended. -/
def pushNew (cohorts added : List String) : List String :=
  added.foldl (fun cohorts cohort =>
    if cohorts.contains cohort then cohorts else cohorts ++ [cohort]) cohorts

/-- An entry of `ZONE_CONFIG`. -/
structure ZoneMeta where
  id : String
  requiredCohorts : List String
  autoApprove : Bool

/-- The zone of an id in the configuration, which has none when it is not well formed. -/
def resolveZone (zones : List ZoneMeta) (zoneId : String) : Option ZoneMeta :=
  zones.find? fun zone => zone.id = zoneId

/-- The cohorts of a new joiner. -/
def newJoinerCohorts (zones : List ZoneMeta) : List String :=
  pushNew ["members"] ((zones.filter ZoneMeta.autoApprove).flatMap ZoneMeta.requiredCohorts)

/-- Ensures that there is a row, and then merges into whatever it holds. -/
def grantZoneCohorts (pubkey : String) (zoneCohorts : List String) :
    Lib.Program CohortOp CohortOp.Answer Unit := do
  if zoneCohorts = [] then
    pure ()
  else
    let now : Int ← call CohortOp.now
    let seeded := pushNew ["members"] zoneCohorts
    let _ ← call (CohortOp.insertOrIgnore
      ⟨pubkey, .array seeded, now, "invite-zone-grant", 0, none⟩)
    let _ ← call (CohortOp.mergeCohorts seeded pubkey)
    pure ()

/-- The whitelisting of who claims a username. -/
def whitelistJoiner (zones : List ZoneMeta) (pubkey : String) (now : Int) :
    Lib.Program CohortOp CohortOp.Answer Unit := do
  let _ ← call (CohortOp.insertOrIgnore
    ⟨pubkey, .array (newJoinerCohorts zones), now, "auto-registration", 0, none⟩)
  pure ()

structure WhitelistAddBody where
  pubkey : Option String
  cohorts : Option (List String)

structure WhitelistUpdateCohortsBody where
  pubkey : Option String
  add : Option (List String)
  remove : Option (List String)
  cohorts : Option (List String)

structure CohortChange where
  add : List String
  remove : List String

def cohortChange (add remove legacyCohorts : Option (List String)) :
    Except String CohortChange :=
  let grant := pushNew [] (add.getD [] ++ legacyCohorts.getD [])
  let revoke := pushNew [] (remove.getD [])
  if grant = [] ∧ revoke = [] then .error "Name at least one cohort in `add` or `remove`"
  else if grant.any fun cohort => revoke.contains cohort then
    .error "A cohort cannot be in both `add` and `remove`"
  else .ok ⟨grant, revoke⟩

/-- A request that writes cohorts: an admin's, with the public key of its verified token,
or a part of an invite's redemption or of a username's claim. -/
inductive CohortRequest where
  | whitelistAdd (tokenPubkey : String) (body : WhitelistAddBody)
  | updateCohorts (tokenPubkey : String) (body : WhitelistUpdateCohortsBody)
  | zoneInvite (pubkey : String) (zoneCohorts : List String)
  | usernameClaim (pubkey : String) (now : Int)

section Handlers

variable (isStaticAdmin : String → Bool) (zones : List ZoneMeta)

/-- The gate of the relay's admin routes. -/
def requireAdmin (tokenPubkey : String) :
    Lib.Program CohortOp CohortOp.Answer (Option Reply) :=
  (requireNip98Admin isStaticAdmin tokenPubkey).embed CohortOp.admin fun _ answer => answer

def handleWhitelistAdd (adminPubkey : String) (body : WhitelistAddBody) :
    Lib.Program CohortOp CohortOp.Answer Reply := do
  let denied ← requireAdmin isStaticAdmin adminPubkey
  match denied with
  | some reply => pure reply
  | none =>
      match validTarget body.pubkey with
      | none => pure (.error "Invalid or missing pubkey" 400)
      | some pubkey => do
          let cohorts := body.cohorts.getD ["home"]
          let now : Int ← call CohortOp.now
          let written : Bool ← call (CohortOp.grantCohorts pubkey cohorts now adminPubkey)
          pure (if written then Reply.success else .workerError)

def handleWhitelistUpdateCohorts (adminPubkey : String) (body : WhitelistUpdateCohortsBody) :
    Lib.Program CohortOp CohortOp.Answer Reply := do
  let denied ← requireAdmin isStaticAdmin adminPubkey
  match denied with
  | some reply => pure reply
  | none =>
      match validTarget body.pubkey with
      | none => pure (.error "Missing or invalid pubkey (64 hex chars required)" 400)
      | some pubkey =>
          match cohortChange body.add body.remove body.cohorts with
          | .error message => pure (.error message 400)
          | .ok change => do
              let now : Int ← call CohortOp.now
              let written : Bool ← call
                (CohortOp.updateCohorts pubkey change.add change.remove now adminPubkey)
              pure (if written then Reply.success else .workerError)

def handleCohorts : CohortRequest → Lib.Program CohortOp CohortOp.Answer Reply
  | .whitelistAdd tokenPubkey body => handleWhitelistAdd isStaticAdmin tokenPubkey body
  | .updateCohorts tokenPubkey body => handleWhitelistUpdateCohorts isStaticAdmin tokenPubkey body
  | .zoneInvite pubkey zoneCohorts => do
      grantZoneCohorts pubkey zoneCohorts
      pure .success
  | .usernameClaim pubkey now => do
      whitelistJoiner zones pubkey now
      pure .success

end Handlers

end Whitelist
end NostrBbs
