import NostrBbs.Lib.Pool
import NostrBbs.Lib.Table
import NostrBbs.Relay.Sealed

/-!
# The whitelist and its last admin

The table that says who may write, who is an admin and which cohorts a member holds; the
relay worker and the auth worker write the same rows.  An admin may take the admin flag
from a member and may delete one.  Both handlers count the admins before they write, the
first only when an admin demotes itself, and the write that follows depends on nothing.
-/

namespace NostrBbs
namespace Whitelist

/-! ## The relay's whitelist -/

/-- What the cohorts column stores: a JSON array, any other JSON value by the values that
it yields one by one, or a text that is not JSON. -/
inductive StoredCohorts where
  | array (values : List String)
  | nonArray (values : List String)
  | invalid (text : String)
deriving DecidableEq, Repr

structure WhitelistRow where
  pubkey : String
  cohorts : StoredCohorts
  addedAt : Int
  addedBy : String
  isAdmin : Int
  expiresAt : Option Int
deriving DecidableEq, Repr

end Whitelist

/-- The rows of the whitelist by their public keys. -/
abbrev Whitelist := Lib.Table Whitelist.WhitelistRow Whitelist.WhitelistRow.pubkey

namespace Whitelist

/-- `SELECT is_admin FROM whitelist WHERE pubkey = ?1` -/
def selectIsAdmin (whitelist : Whitelist) (pubkey : String) : Option Int :=
  (whitelist.find? pubkey).map WhitelistRow.isAdmin

/-- The row of a public key has the admin flag. -/
def isAdminRow (whitelist : Whitelist) (pubkey : String) : Bool :=
  whitelist.selectIsAdmin pubkey == some 1

/-- `SELECT COUNT(*) FROM whitelist WHERE is_admin = 1` -/
def countAdmins (whitelist : Whitelist) : Nat :=
  whitelist.countWhere fun row => row.isAdmin = 1

/-- `SELECT COUNT(*) FROM whitelist WHERE pubkey = ?1 AND is_admin = 1` -/
def countAdminRow (whitelist : Whitelist) (pubkey : String) : Nat :=
  whitelist.countWhere fun row => row.pubkey = pubkey && row.isAdmin = 1

/-- `UPDATE whitelist SET is_admin = ?1 WHERE pubkey = ?2` -/
def updateIsAdmin (whitelist : Whitelist) (value : Int) (pubkey : String) : Whitelist :=
  whitelist.updateWhere (fun row => row.pubkey = pubkey) (fun row => { row with isAdmin := value })
    fun _ => rfl

/-- `DELETE FROM whitelist WHERE pubkey = ?1` -/
def deleteRow (whitelist : Whitelist) (pubkey : String) : Whitelist :=
  whitelist.erase pubkey

/-! ## The last admin -/

section

open Lib.Program (call)
open Relay (isHex64)

/-! ## The handlers -/

/-- The statements of the two handlers. -/
inductive Op where
  | selectIsAdmin (pubkey : String)
  | countAdminRow (pubkey : String)
  | countAdmins
  | updateIsAdmin (value : Int) (pubkey : String)
  | deleteRow (pubkey : String)

/-- A read that fails answers as if there were no row. -/
abbrev Op.Answer : Op → Type
  | .selectIsAdmin _ => Option Int
  | .countAdminRow _ => Option Nat
  | .countAdmins => Option Nat
  | .updateIsAdmin _ _ => Bool
  | .deleteRow _ => Bool

/-- A statement, performed unless it fails. -/
def answer (whitelist : Whitelist) (failed : Bool) : (op : Op) → Whitelist × op.Answer
  | .selectIsAdmin pubkey =>
      (whitelist, if failed then none else whitelist.selectIsAdmin pubkey)
  | .countAdminRow pubkey =>
      (whitelist, if failed then none else some (whitelist.countAdminRow pubkey))
  | .countAdmins => (whitelist, if failed then none else some whitelist.countAdmins)
  | .updateIsAdmin value pubkey =>
      if failed then (whitelist, false) else (whitelist.updateIsAdmin value pubkey, true)
  | .deleteRow pubkey =>
      if failed then (whitelist, false) else (whitelist.deleteRow pubkey, true)

inductive Reply where
  | success
  | error (message : String) (status : Nat)
  | workerError
deriving DecidableEq, Repr

structure SetAdminBody where
  pubkey : Option String
  isAdmin : Option Bool

structure DeleteUserBody where
  pubkey : Option String

/-- A request with the public key of its verified token. -/
inductive Request where
  | setAdmin (tokenPubkey : String) (body : SetAdminBody)
  | deleteUser (tokenPubkey : String) (body : DeleteUserBody)

section Handlers

variable (isStaticAdmin : String → Bool)

/-- The admins that are deployed with the worker come before the rows. -/
def queryIsAdmin (pubkey : String) : Lib.Program Op Op.Answer Bool :=
  if isStaticAdmin pubkey then
    pure true
  else do
    let row : Option Int ← call (Op.selectIsAdmin pubkey)
    pure (row == some 1)

def requireNip98Admin (tokenPubkey : String) : Lib.Program Op Op.Answer (Option Reply) := do
  let isAdmin ← queryIsAdmin isStaticAdmin tokenPubkey
  pure (if isAdmin then none else some (.error "Not authorized" 403))

/-- The target of a request. -/
def validTarget (pubkey : Option String) : Option String :=
  pubkey.filter isHex64

def handleSetAdmin (adminPubkey : String) (body : SetAdminBody) :
    Lib.Program Op Op.Answer Reply := do
  let denied ← requireNip98Admin isStaticAdmin adminPubkey
  match denied with
  | some reply => pure reply
  | none =>
      match validTarget body.pubkey with
      | none => pure (.error "Invalid or missing pubkey" 400)
      | some targetPubkey =>
          let newAdminStatus := body.isAdmin.getD false
          let adminVal : Int := if newAdminStatus then 1 else 0
          let write : Lib.Program Op Op.Answer Reply := do
            let written : Bool ← call (Op.updateIsAdmin adminVal targetPubkey)
            pure (if written then Reply.success else .workerError)
          -- the guard is for an admin that demotes itself
          if !newAdminStatus && targetPubkey == adminPubkey then do
            let count : Option Nat ← call Op.countAdmins
            if count.any (· ≤ 1) then
              pure (.error "Cannot remove the last admin" 400)
            else write
          else write

def handleDeleteUser (adminPubkey : String) (body : DeleteUserBody) :
    Lib.Program Op Op.Answer Reply := do
  let denied ← requireNip98Admin isStaticAdmin adminPubkey
  match denied with
  | some reply => pure reply
  | none =>
      match validTarget body.pubkey with
      | none => pure (.error "Invalid or missing pubkey" 400)
      | some target =>
          let write : Lib.Program Op Op.Answer Reply := do
            let written : Bool ← call (Op.deleteRow target)
            pure (if written then Reply.success else .workerError)
          let held : Option Nat ← call (Op.countAdminRow target)
          let targetIsAdmin := held.any (0 < ·)
          if targetIsAdmin then do
            let count : Option Nat ← call Op.countAdmins
            if count.any (· ≤ 1) then
              pure (.error "Cannot delete the last admin" 400)
            else write
          else write

def handle : Request → Lib.Program Op Op.Answer Reply
  | .setAdmin tokenPubkey body => handleSetAdmin isStaticAdmin tokenPubkey body
  | .deleteUser tokenPubkey body => handleDeleteUser isStaticAdmin tokenPubkey body

end Handlers

/-! ## What is claimed, and when it holds -/

/-- The whitelist and the requests that are being answered. -/
abbrev Requests := Lib.Pool Whitelist Request Op Bool Op.Answer Reply

abbrev Move := Lib.Move Request Bool

def step (isStaticAdmin : String → Bool) : Requests → Move → Requests :=
  Lib.Pool.step (handle isStaticAdmin) answer

def HasAdmin (whitelist : Whitelist) : Prop :=
  ∃ row ∈ whitelist.rows, row.isAdmin = 1

instance (whitelist : Whitelist) : Decidable whitelist.HasAdmin :=
  inferInstanceAs (Decidable (∃ row ∈ whitelist.rows, row.isAdmin = 1))

/-- The guard that the handlers have before they write, asked when the write is
performed: an admin row is demoted or deleted only while more than one is counted. -/
def LeavesAdmin (whitelist : Whitelist) (failed : Bool) : Op → Prop
  | .updateIsAdmin value pubkey =>
      failed = false → value ≠ 1 → whitelist.isAdminRow pubkey → 1 < whitelist.countAdmins
  | .deleteRow pubkey =>
      failed = false → whitelist.isAdminRow pubkey → 1 < whitelist.countAdmins
  | _ => True

/-! ## One write -/

section Writes

variable {whitelist : Whitelist}

theorem isAdminRow_iff
    {pubkey : String} :
    whitelist.isAdminRow pubkey ↔
      ∃ row ∈ whitelist.rows, row.pubkey = pubkey ∧ row.isAdmin = 1 := by
  unfold isAdminRow selectIsAdmin
  cases found : whitelist.find? pubkey with
  | none =>
      refine iff_of_false (by simp) ?_
      rintro ⟨row, held, rfl, -⟩
      exact Lib.Table.find?_eq_none_iff.mp found (List.mem_map_of_mem held)
  | some row =>
      obtain ⟨held, isRow⟩ := Lib.Table.find?_eq_some_iff.mp found
      rw [Option.map_some, beq_iff_eq, Option.some_inj]
      constructor
      · exact fun isAdmin => ⟨row, held, isRow, isAdmin⟩
      · rintro ⟨other, otherHeld, sameKey, isAdmin⟩
        rw [← whitelist.eq_of_key otherHeld held (sameKey.trans isRow.symm)]
        exact isAdmin

/-- Beside an admin row there is an admin row of another key exactly when more than one
is counted. -/
theorem one_lt_countAdmins_iff
    {pubkey : String}
    (isAdmin : whitelist.isAdminRow pubkey) :
    1 < whitelist.countAdmins ↔
      ∃ other ∈ whitelist.rows, other.pubkey ≠ pubkey ∧ other.isAdmin = 1 := by
  obtain ⟨row, held, rfl, rowIsAdmin⟩ := isAdminRow_iff.mp isAdmin
  unfold countAdmins
  rw [Lib.Table.one_lt_countWhere_iff held (by simpa using rowIsAdmin)]
  simp only [decide_eq_true_eq]

theorem hasAdmin_updateIsAdmin
    (hasAdmin : whitelist.HasAdmin)
    (value : Int)
    (pubkey : String) :
    (whitelist.updateIsAdmin value pubkey).HasAdmin ↔
      (value ≠ 1 → whitelist.isAdminRow pubkey → 1 < whitelist.countAdmins) := by
  constructor
  · rintro ⟨row, held, isAdmin⟩ demotes wasAdmin
    obtain ⟨old, oldHeld, rfl⟩ := Lib.Table.mem_updateWhere.mp held
    rw [one_lt_countAdmins_iff wasAdmin]
    by_cases isTarget : old.pubkey = pubkey
    · simp only [isTarget, decide_true, if_true] at isAdmin
      exact absurd isAdmin demotes
    · simp only [isTarget, decide_false, Bool.false_eq_true, if_false] at isAdmin
      exact ⟨old, oldHeld, isTarget, isAdmin⟩
  · intro others
    have kept : ∀ old ∈ whitelist.rows, old.isAdmin = 1 → (old.pubkey = pubkey → value = 1) →
        (whitelist.updateIsAdmin value pubkey).HasAdmin := by
      intro old held isAdmin promotes
      refine ⟨_, Lib.Table.mem_updateWhere.mpr ⟨old, held, rfl⟩, ?_⟩
      by_cases isTarget : old.pubkey = pubkey
      · simp [isTarget, promotes isTarget]
      · simp [isTarget, isAdmin]
    obtain ⟨row, held, isAdmin⟩ := hasAdmin
    by_cases promotes : value = 1
    · exact kept row held isAdmin fun _ => promotes
    · by_cases isTarget : row.pubkey = pubkey
      · have wasAdmin := isAdminRow_iff.mpr ⟨row, held, isTarget, isAdmin⟩
        obtain ⟨other, otherHeld, different, otherIsAdmin⟩ :=
          (one_lt_countAdmins_iff wasAdmin).mp (others promotes wasAdmin)
        exact kept other otherHeld otherIsAdmin fun same => absurd same different
      · exact kept row held isAdmin fun same => absurd same isTarget

theorem hasAdmin_deleteRow
    (hasAdmin : whitelist.HasAdmin)
    (pubkey : String) :
    (whitelist.deleteRow pubkey).HasAdmin ↔
      (whitelist.isAdminRow pubkey → 1 < whitelist.countAdmins) := by
  have mem_deleteRow : ∀ row, row ∈ (whitelist.deleteRow pubkey).rows ↔
      row ∈ whitelist.rows ∧ row.pubkey ≠ pubkey := by
    intro row
    unfold deleteRow Lib.Table.erase
    rw [Lib.Table.mem_retain, decide_eq_true_eq]
  constructor
  · rintro ⟨row, held, isAdmin⟩ wasAdmin
    obtain ⟨wasHeld, isOther⟩ := (mem_deleteRow row).mp held
    exact (one_lt_countAdmins_iff wasAdmin).mpr ⟨row, wasHeld, isOther, isAdmin⟩
  · intro others
    obtain ⟨row, held, isAdmin⟩ := hasAdmin
    by_cases isTarget : row.pubkey = pubkey
    · have wasAdmin := isAdminRow_iff.mpr ⟨row, held, isTarget, isAdmin⟩
      obtain ⟨other, otherHeld, different, otherIsAdmin⟩ :=
        (one_lt_countAdmins_iff wasAdmin).mp (others wasAdmin)
      exact ⟨other, (mem_deleteRow other).mpr ⟨otherHeld, different⟩, otherIsAdmin⟩
    · exact ⟨row, (mem_deleteRow row).mpr ⟨held, isTarget⟩, isAdmin⟩

/-- A statement leaves an admin exactly when it meets the guard. -/
theorem hasAdmin_answer
    (hasAdmin : whitelist.HasAdmin)
    (failed : Bool)
    (op : Op) :
    (answer whitelist failed op).1.HasAdmin ↔ whitelist.LeavesAdmin failed op := by
  cases op with
  | selectIsAdmin pubkey => exact iff_of_true hasAdmin trivial
  | countAdminRow pubkey => exact iff_of_true hasAdmin trivial
  | countAdmins => exact iff_of_true hasAdmin trivial
  | updateIsAdmin value pubkey =>
      cases failed with
      | true => exact iff_of_true hasAdmin fun succeeds => absurd succeeds (by decide)
      | false =>
          exact (hasAdmin_updateIsAdmin hasAdmin value pubkey).trans
            ⟨fun others _ => others, fun others => others rfl⟩
  | deleteRow pubkey =>
      cases failed with
      | true => exact iff_of_true hasAdmin fun succeeds => absurd succeeds (by decide)
      | false =>
          exact (hasAdmin_deleteRow hasAdmin pubkey).trans
            ⟨fun others _ => others, fun others => others rfl⟩

end Writes

/-! ## Runs -/

/-- Two admins, both of whom demote themselves. -/
def twoAdmins : Whitelist where
  rows :=
    [⟨String.ofList (List.replicate 64 'a'), .array ["members"], 0, "setup", 1, none⟩,
      ⟨String.ofList (List.replicate 64 'b'), .array ["members"], 0, "setup", 1, none⟩]
  distinct := by decide

/-- Each counts two admins before the other has written. -/
def demotions : List Move :=
  let demote (pubkey : String) : Move := .start (.setAdmin pubkey ⟨some pubkey, some false⟩)
  [demote (String.ofList (List.replicate 64 'a')), demote (String.ofList (List.replicate 64 'b')),
    .advance 0 false, .advance 1 false, .advance 0 false, .advance 1 false,
    .advance 0 false, .advance 1 false]

end

end Whitelist
end NostrBbs
