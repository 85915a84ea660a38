import NostrBbs.Lib.Program
import NostrBbs.Lib.Table
import NostrBbs.Relay.Filter

/-!
# Paths of a pod and what it is stored in

The routes to a pod's resources, the names that a container gives to what is posted to it,
and the sidecars that are looked up for a resource.  The bucket with the objects, the
key-value store with older policies, and the table of quota accounts are reached by
operations, of which each may fail; the answer of one that was carried out may be lost.
-/

namespace NostrBbs
namespace Pod

/-! ## Paths of a pod -/

section

open Relay (containsText)

def startsWith (start text : String) : Bool :=
  start.toList.isPrefixOf text.toList

def endsWith (ending text : String) : Bool :=
  ending.toList.isSuffixOf text.toList

def contains (part text : String) : Bool :=
  containsText part.toList text.toList

/-! ## Routes -/

/-- No parent directory, no encoded dot, separator or NUL, and no backslash. -/
def isSafeResourcePath (resourcePath : String) : Bool :=
  if contains "\\" resourcePath || contains "\x00" resourcePath then false
  else if contains ".." resourcePath then false
  else
    let lower := String.ofList (resourcePath.toList.map Char.toLower)
    !(contains "%2e" lower || contains "%2f" lower || contains "%5c" lower ||
      contains "%00" lower)

def isHexDigit (char : Char) : Bool :=
  char.isDigit || ('a'.toNat ≤ char.toNat && char.toNat ≤ 'f'.toNat) ||
    ('A'.toNat ≤ char.toNat && char.toNat ≤ 'F'.toNat)

/-- The owner and the resource of a pod route. -/
def parsePodRoute (path : String) : Option (String × String) :=
  if !startsWith "/pods/" path then none
  else
    let rest := path.toList.drop 6
    let pubkey := rest.take 64
    let remainder := rest.drop 64
    if rest.length < 64 then none
    else if !pubkey.all isHexDigit then none
    else if !remainder.isEmpty && remainder.head? != some '/' then none
    else
      let resourcePath := if remainder.isEmpty then "/" else String.ofList remainder
      if !isSafeResourcePath resourcePath then none
      else some (String.ofList pubkey, resourcePath)

/-- A sidecar with the policy of another resource. -/
def isAclPath (path : String) : Bool :=
  endsWith ".acl" path

def isProvisionPath (path : String) : Bool :=
  path == "/.provision"

def isDeprovisionPath (path : String) : Bool :=
  path == "/.deprovision"

def isValidWorkerPodName (name : String) : Bool :=
  name.toList.length == 64 && name.toList.all isHexDigit

def isDotGitPath (resourcePath : String) : Bool :=
  startsWith "/.git/" resourcePath || resourcePath == "/.git"

def isGitRequest (resourcePath : String) : Bool :=
  contains "/info/refs" resourcePath || contains "/git-upload-pack" resourcePath ||
    contains "/git-receive-pack" resourcePath

/-! ## Containers -/

def isContainer (path : String) : Bool :=
  path == "/" || endsWith "/" path

def hexDigit (value : Nat) : Char :=
  Nat.digitChar (value % 16)

def hexByte (byte : Nat) : List Char :=
  [hexDigit (byte / 16), hexDigit byte]

/-- The bytes of a name that is made at a time. -/
def idByte (now index : Nat) : Nat :=
  ((now >>> (index * 7 % 64)) ^^^ (index * 0x9e3779b9)) % 256

/-- A name made of the time alone. -/
def generateId (now : Nat) : String :=
  let byte := idByte now
  String.ofList (hexByte (byte 0) ++ hexByte (byte 1) ++ hexByte (byte 2) ++ hexByte (byte 3) ++
    ['-'] ++ hexByte (byte 4) ++ hexByte (byte 5) ++
    ['-'] ++ hexByte (byte 6 % 16 ||| 0x40) ++ hexByte (byte 7) ++
    ['-'] ++ hexByte (byte 8 % 64 ||| 0x80) ++ hexByte (byte 9) ++
    ['-'] ++ hexByte (byte 10) ++ hexByte (byte 11) ++ hexByte (byte 12) ++ hexByte (byte 13) ++
    hexByte (byte 14) ++ hexByte (byte 15))

/-- The slugs that are taken for names. -/
def slugAccepted (slug : String) : Bool :=
  slug != "" && !contains "/" slug && !contains ".." slug

/-- The path of what is posted to a container. -/
def resolveSlug (containerPath : String) (slug : Option String) (now : Nat) : String :=
  let name := (slug.filter slugAccepted).getD (generateId now)
  containerPath ++ name

/-! ## Sidecars of a resource -/

/-- The characters before the slashes at the end. -/
def trimEndSlashes (path : List Char) : List Char :=
  (path.reverse.dropWhile (· == '/')).reverse

/-- The characters before the last slash, if there is one. -/
def beforeLastSlash (path : List Char) : Option (List Char) :=
  match path.reverse.dropWhile (· != '/') with
  | [] => none
  | _ :: rest => some rest.reverse

/-- The container that encloses a path. -/
def parentDir (path : List Char) : List Char :=
  if path == ['/'] || path.isEmpty then ['/']
  else
    match beforeLastSlash (trimEndSlashes path) with
    | none => ['/']
    | some [] => ['/']
    | some start => start ++ ['/']

/-- The sidecars of the enclosing containers, from a container upwards.  Each level
takes a character at least, so that the length of the path bounds their number. -/
def enclosingProbes : Nat → List Char → List (String × Bool)
  | 0, _ => []
  | levels + 1, dir =>
      (String.ofList (dir ++ ".acl".toList), true) ::
        if dir == ['/'] then []
        else
          let flat := trimEndSlashes dir
          (if flat.isEmpty then [] else [(String.ofList (flat ++ ".acl".toList), true)]) ++
            enclosingProbes levels (parentDir flat)

/-- The sidecars that are looked up for a resource, the most specific first, with
whether they are inherited. -/
def aclProbeSequence (resourcePath : String) : List (String × Bool) :=
  let resource := if resourcePath == "" then "/" else resourcePath
  (resource ++ ".acl", false) ::
    enclosingProbes (resource.toList.length + 1) (parentDir resource.toList)

end

/-! ## What a pod is stored in -/

abbrev Bytes := List UInt8

/-- The key `pods/{owner}{path}`.  An owner has 64 characters and a path starts with a
slash, so that the text of the key tells both. -/
structure ObjectKey where
  owner : String
  path : String
deriving DecidableEq

structure StoredObject where
  key : ObjectKey
  bytes : Bytes
  contentType : String
deriving DecidableEq

def StoredObject.size (object : StoredObject) : Nat :=
  object.bytes.length

/-- A row of the table `quota_usage`. -/
structure QuotaRow where
  pubkey : String
  limitBytes : Nat
  usedBytes : Nat
  updatedAt : Nat
deriving DecidableEq

/-- Default per-pod quota: 50 MB. -/
def defaultQuota : Nat :=
  50 * 1024 * 1024

/-- The capacity of a pod's inbox. -/
def inboxQuota : Nat :=
  5 * 1024 * 1024

structure Storage where
  bucket : Lib.Table StoredObject StoredObject.key
  kv : String → Option Bytes
  quotaUsage : Lib.Table QuotaRow QuotaRow.pubkey
  admins : List String

namespace Storage

def empty : Storage :=
  ⟨Lib.Table.empty, fun _ => none, Lib.Table.empty, []⟩

/-- The bytes that are stored under a key. -/
def stored (storage : Storage) (key : ObjectKey) : Option Bytes :=
  (storage.bucket.find? key).map StoredObject.bytes

/-- The paths under an owner, with the sizes of what is stored there. -/
def listing (storage : Storage) (owner : String) : List (String × Nat) :=
  (storage.bucket.rows.filter fun object => object.key.owner = owner).map fun object =>
    (object.key.path, object.size)

/-! ## Quota accounts -/

/-- The row of an account, with nothing used when it is new. -/
def ensureQuota (storage : Storage) (account : String) (limit now : Nat) : Storage :=
  { storage with
    quotaUsage := (storage.quotaUsage.insert ⟨account, limit, 0, now⟩).getD storage.quotaUsage }

/-- The account has room for more bytes. -/
def QuotaRow.fits (account : String) (bytes : Nat) (row : QuotaRow) : Bool :=
  row.pubkey = account && row.usedBytes + bytes ≤ row.limitBytes

/-- Bytes added to the account that has room for them, with the number of rows
written. -/
def reserveQuota (storage : Storage) (account : String) (bytes now : Nat) : Storage × Nat :=
  ({ storage with
      quotaUsage := storage.quotaUsage.updateWhere (QuotaRow.fits account bytes)
        (fun row => { row with usedBytes := row.usedBytes + bytes, updatedAt := now })
        (fun _ => rfl) },
    storage.quotaUsage.countWhere (QuotaRow.fits account bytes))

/-- Bytes added to an account, which is made when it is new, or given back by it, down to
nothing used. -/
def updateUsage (storage : Storage) (account : String) (delta : Int) (now : Nat) : Storage :=
  if 0 ≤ delta then
    match storage.quotaUsage.insert ⟨account, defaultQuota, delta.toNat, now⟩ with
    | some quotaUsage => { storage with quotaUsage := quotaUsage }
    | none =>
        { storage with
          quotaUsage := storage.quotaUsage.updateWhere (fun row => row.pubkey = account)
            (fun row => { row with usedBytes := row.usedBytes + delta.toNat, updatedAt := now })
            (fun _ => rfl) }
  else
    { storage with
      quotaUsage := storage.quotaUsage.updateWhere (fun row => row.pubkey = account)
        (fun row => { row with usedBytes := row.usedBytes - delta.natAbs, updatedAt := now })
        (fun _ => rfl) }

end Storage

/-! ## Operations -/

inductive Op where
  | get (key : ObjectKey)
  | put (object : StoredObject)
  | delete (key : ObjectKey)
  | list (owner : String)
  | kvGet (key : String)
  | isAdmin (pubkey : String)
  | ensureQuota (account : String) (limit now : Nat)
  | reserveQuota (account : String) (bytes now : Nat)
  | quotaInfo (account : String)
  | updateUsage (account : String) (delta : Int) (now : Nat)

/-- What an operation answers; it is none, or not true, when it failed. -/
@[reducible] def Op.Answer : Op → Type
  | get _ => Option (Option StoredObject)
  | put _ => Bool
  | delete _ => Bool
  | list _ => Option (List (String × Nat))
  | kvGet _ => Option (Option Bytes)
  | isAdmin _ => Bool
  | ensureQuota _ _ _ => Bool
  | reserveQuota _ _ _ => Option Nat
  | quotaInfo _ => Option (Option QuotaRow)
  | updateUsage _ _ _ => Bool

/-- How an operation goes. -/
inductive Outcome where
  | answered
  | fails
  | answerLost
deriving DecidableEq

/-- What the operation leaves when it is carried out. -/
def Storage.after (storage : Storage) : Op → Storage
  | .put object => { storage with bucket := storage.bucket.put object }
  | .delete key => { storage with bucket := storage.bucket.erase key }
  | .ensureQuota account limit now => storage.ensureQuota account limit now
  | .reserveQuota account bytes now => (storage.reserveQuota account bytes now).1
  | .updateUsage account delta now => storage.updateUsage account delta now
  | _ => storage

/-- What the operation answers when it is carried out. -/
def Storage.reply (storage : Storage) : (op : Op) → op.Answer
  | .get key => some (storage.bucket.find? key)
  | .put _ => true
  | .delete _ => true
  | .list owner => some (storage.listing owner)
  | .kvGet key => some (storage.kv key)
  | .isAdmin pubkey => storage.admins.contains pubkey
  | .ensureQuota _ _ _ => true
  | .reserveQuota account bytes now => some (storage.reserveQuota account bytes now).2
  | .quotaInfo account => some (storage.quotaUsage.find? account)
  | .updateUsage _ _ _ => true

def Op.failure : (op : Op) → op.Answer
  | .get _ => none
  | .put _ => false
  | .delete _ => false
  | .list _ => none
  | .kvGet _ => none
  | .isAdmin _ => false
  | .ensureQuota _ _ _ => false
  | .reserveQuota _ _ _ => none
  | .quotaInfo _ => none
  | .updateUsage _ _ _ => false

/-- The storage, with how the coming operations go; all that follow are answered. -/
structure World where
  storage : Storage
  outcomes : List Outcome

namespace World

def answer (world : World) (op : Op) : World × op.Answer :=
  match world.outcomes.head?.getD .answered with
  | .answered => (⟨world.storage.after op, world.outcomes.tail⟩, world.storage.reply op)
  | .fails => (⟨world.storage, world.outcomes.tail⟩, op.failure)
  | .answerLost => (⟨world.storage.after op, world.outcomes.tail⟩, op.failure)

/-- The operation was carried out, or nothing changed. -/
theorem answer_storage
    (world : World)
    (op : Op) :
    (world.answer op).1.storage = world.storage.after op ∨
      (world.answer op).1.storage = world.storage := by
  unfold answer
  split
  · exact Or.inl rfl
  · exact Or.inr rfl
  · exact Or.inl rfl

/-- The operation was answered, or it is not known how it went. -/
theorem answer_reply
    (world : World)
    (op : Op) :
    (world.answer op).1.storage = world.storage.after op ∧
        (world.answer op).2 = world.storage.reply op ∨
      (world.answer op).2 = op.failure := by
  unfold answer
  split
  · exact Or.inl ⟨rfl, rfl⟩
  · exact Or.inr rfl
  · exact Or.inr rfl

end World

/-- A program of the pod worker. -/
abbrev PodProgram := Lib.Program Op Op.Answer

/-- The operations that only read. -/
def Op.Reads (op : Op) : Prop :=
  ∀ storage : Storage, storage.after op = storage

theorem World.answer_of_reads
    {op : Op}
    (reads : op.Reads)
    (world : World) :
    (world.answer op).1.storage = world.storage := by
  rcases world.answer_storage op with carriedOut | unchanged
  · rw [carriedOut, reads world.storage]
  · exact unchanged

end Pod
end NostrBbs
