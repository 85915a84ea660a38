import NostrBbs.Pod.Policy

/-!
# Requests to the pod worker

What a request brings, what it is answered, and the parts that several of its methods
share: conditional headers, and bytes reserved on a quota account.
-/

namespace NostrBbs
namespace Pod

open Lib.Program (call)

inductive Method where
  | get
  | head
  | post
  | put
  | delete
  | options
  | patch
  | connect
  | trace
deriving DecidableEq

def Method.text : Method → String
  | get => "GET"
  | head => "HEAD"
  | post => "POST"
  | put => "PUT"
  | delete => "DELETE"
  | options => "OPTIONS"
  | patch => "PATCH"
  | connect => "CONNECT"
  | trace => "TRACE"

/-- What became of the authorization of a request: a signer, with whether a WebID that
the token names is the signer's own. -/
inductive Authorization where
  | absent
  | rejected (reason : String)
  | verified (pubkey : String) (webidMatches : Bool)
deriving DecidableEq

/-- The token names a WebID that is not its signer's. -/
def Authorization.mismatched : Authorization → Bool
  | verified _ webidMatches => !webidMatches
  | _ => false

structure Request where
  method : Method
  path : String
  authorization : Authorization
  slug : Option String
  contentType : Option String
  contentLength : Option Nat
  ifMatch : Option String
  ifNoneMatch : Option String
  body : Option Bytes
  now : Nat
deriving DecidableEq

namespace Request

variable (request : Request)

def requesterPubkey : Option String :=
  match request.authorization with
  | .verified pubkey _ => some pubkey
  | _ => none

def nip98Reason : Option String :=
  match request.authorization with
  | .rejected reason => some reason
  | _ => none

def mediaType : String :=
  request.contentType.getD "application/octet-stream"

/-- The body, which is read for the methods that write one. -/
def bodyBytes : Option Bytes :=
  match request.method with
  | .put => request.body
  | .post => request.body
  | .patch => request.body
  | _ => none

def data : Bytes :=
  request.bodyBytes.getD []

end Request

inductive Response where
  | error (status : Nat) (message : String) (reason : Option String)
  | success (status : Nat) (text : String)
  | created (path : String)
  | conditional (status : Nat) (etag : String)
  | content (etag : Option String) (contentType : String) (bytes : Bytes)
  | listing
  | internalError (message : String)
deriving DecidableEq

def jsonError (message : String) (status : Nat) : Response :=
  .error status message none

/-! ## Conditional requests -/

def trimSpaces (text : List Char) : List Char :=
  ((text.dropWhile Char.isWhitespace).reverse.dropWhile Char.isWhitespace).reverse

def trimQuotes (text : List Char) : List Char :=
  ((text.dropWhile (· == '"')).reverse.dropWhile (· == '"')).reverse

/-- The entity tags that a header lists. -/
def entityTags (header : String) : List String :=
  (header.toList.splitOn ',').map fun tag => String.ofList (trimQuotes (trimSpaces tag))

/-- A header lists a tag, or any. -/
def names (header resourceEtag : String) : Bool :=
  (entityTags header).any fun tag => tag == resourceEtag || tag == "*"

/-- The status to answer with when a condition of the request is not met. -/
def checkPreconditions (request : Request) (resourceEtag : String) : Option Nat :=
  if request.ifNoneMatch.any fun header => names header resourceEtag then some 304
  else if request.ifMatch.any fun header => !names header resourceEtag then some 412
  else none

/-! ## Quota -/

/-- The account that a write is charged to, and its limit. -/
def reservationAccount (ownerPubkey resourcePath : String) : String × Nat :=
  if startsWith "/inbox/" resourcePath then ("inbox:" ++ ownerPubkey, inboxQuota)
  else (ownerPubkey, defaultQuota)

def quotaExceeded (used limit bytes : Nat) : String :=
  s!"Storage quota exceeded: {used}/{limit} bytes (need {bytes} more)"

/-- Bytes reserved on an account; a message says why they were not. -/
def checkAndReserveWithLimit (account : String) (bytes limit now : Nat) :
    PodProgram (Option String) := do
  match ← call (Op.ensureQuota account limit now) with
  | false => pure (some "d1 run quota init")
  | true =>
      match ← call (Op.reserveQuota account bytes now) with
      | none => pure (some "d1 run reserve")
      | some 0 =>
          match ← call (Op.quotaInfo account) with
          | some (some row) => pure (some (quotaExceeded row.usedBytes row.limitBytes bytes))
          | _ => pure (some (quotaExceeded 0 defaultQuota bytes))
      | some _ => pure none

def checkAndReserve (account : String) (bytes now : Nat) : PodProgram (Option String) :=
  checkAndReserveWithLimit account bytes defaultQuota now

/-! ## Bodies -/

/-- Maximum request body size: 50 MB. -/
def maxBodySize : Nat :=
  50 * 1024 * 1024

def bodyTooLarge : Response :=
  jsonError s!"Body exceeds {maxBodySize} byte limit" 413

/-- The body is no larger than it may be, by its header and in fact. -/
def Request.bodyFits (request : Request) : Bool :=
  request.contentLength.getD 0 ≤ maxBodySize && request.data.length ≤ maxBodySize

end Pod
end NostrBbs
