import NostrBbs.Pay.Deposit

/-!
# The pay routes

Paid resources, and agent jobs from their creation to the release of what they hold.
-/

namespace NostrBbs
namespace Pay

open Relay (JsonValue)
open Pod (Bytes startsWith isHexDigit)
open Lib.Program (call)

/-! ## Estimates and times -/

/-- Per-endpoint cost table for agent job estimation. -/
def estimateEndpointCost (endpoint : String) (baseCost : Nat) : Nat :=
  if startsWith "/api/inference/" endpoint then wrap64 (baseCost * 10)
  else if startsWith "/api/image-gen/" endpoint then wrap64 (baseCost * 100)
  else if startsWith "/api/analytics/" endpoint then wrap64 (baseCost * 5)
  else baseCost

/-- A number with zeros before it, up to a width that counts the sign. -/
def padded (width : Nat) (value : Int) : String :=
  let digits := toString value.natAbs
  if value < 0 then
    "-" ++ String.ofList (List.replicate (width - 1 - digits.length) '0') ++ digits
  else String.ofList (List.replicate (width - digits.length) '0') ++ digits

/-- A time in UTC with milliseconds, which is compared as text. -/
def iso8601FromEpoch (epochSecs : Int) : String :=
  let days := epochSecs / 86400
  let sod := epochSecs % 86400
  -- the civil date, from the days since the epoch
  let z := days + 719468
  let era := z / 146097
  let doe := z - era * 146097
  let yoe := (doe - doe / 1460 + doe / 36524 - doe / 146096) / 365
  let doy := doe - (365 * yoe + yoe / 4 - yoe / 100)
  let mp := (5 * doy + 2) / 153
  let d := doy - (153 * mp + 2) / 5 + 1
  let m := if mp < 10 then mp + 3 else mp - 9
  let y := yoe + era * 400 + if m ≤ 2 then 1 else 0
  padded 4 y ++ "-" ++ padded 2 m ++ "-" ++ padded 2 d ++ "T" ++ padded 2 (sod / 3600) ++ ":" ++
    padded 2 (sod % 3600 / 60) ++ ":" ++ padded 2 (sod % 60) ++ ".000Z"

/-- An identifier of a job, from random bytes. -/
def generateJobId (now : Int) (random : Except String Bytes) : Except String String :=
  match random with
  | .error message => .error ("CSPRNG failure: " ++ message)
  | .ok bytes => .ok ("job_" ++ toString now ++ "_" ++ hexEncode bytes)

/-- An agent is named by a public key. -/
def agentDidError (agentDid : String) : Option PayReply :=
  if !startsWith "did:nostr:" agentDid then
    some (.err 400 "agent_did must start with did:nostr:")
  else
    let pubkey := agentDid.toList.drop 10
    if pubkey.length ≠ 64 ∨ !pubkey.all isHexDigit then
      some (.err 400 "agent_did pubkey must be exactly 64 hex characters after did:nostr:")
    else none

def optional {α : Type} (value : Option α) (json : α → JsonValue) : JsonValue :=
  (value.map json).getD .null

/-- The columns of a job that are read. -/
def Job.toJson (job : Job) : JsonValue :=
  .object [("job_id", .string job.jobId), ("requester_did", .string job.requesterDid),
    ("agent_did", .string job.agentDid), ("endpoint", .string job.endpoint),
    ("params_json", optional job.paramsJson .string), ("status", .string job.status.text),
    ("estimated_sats", num job.estimatedSats), ("held_sats", num job.heldSats),
    ("actual_sats", optional job.actualSats num), ("created_at", num job.createdAt),
    ("started_at", optional job.startedAt num), ("completed_at", optional job.completedAt num),
    ("error", optional job.error .string), ("expires_at", optional job.expiresAt .string)]

def parseError (message : String) : PayReply :=
  .err 400 ("parse: " ++ message)

section Routes

variable (upstream : Upstream)

/-! ## Agent jobs -/

def estimate (context : PayContext) (did : String) (body : Bytes) : PayReply :=
  match upstream.parseEndpoint body with
  | .error message => parseError message
  | .ok endpoint =>
      .ok (.object [("did", .string did), ("endpoint", .string endpoint),
        ("estimated_sats", num (estimateEndpointCost endpoint context.config.costSats)),
        ("unit", .string ledgerUnit),
        ("note", .string
          "Pre-execution estimate. Final cost may differ for GPU-metered endpoints.")])

def jobsList (did : String) : PayProgram PayReply := do
  match ← call (Op.jobsList did) with
  | .error message => pure (.store message)
  | .ok jobs =>
      pure (.ok (.object [("count", num jobs.length), ("jobs", .array (jobs.map Job.toJson))]))

/-- A job inserted and its hold debited, both or neither. -/
def createBatch (jobId requesterDid agentDid endpoint : String) (paramsJson : Option String)
    (estimated held : Nat) (now : Int) (expiresAt : String) : List Stmt :=
  [.jobInsertIfFunded jobId requesterDid agentDid endpoint paramsJson (sats estimated) (sats held)
      now expiresAt,
    .jobDebitHold (sats held) now requesterDid jobId]

def jobCreate (context : PayContext) (random : Except String Bytes) (requesterDid : String)
    (body : Bytes) : PayProgram PayReply := do
  match upstream.parseJobCreate body with
  | .error message => pure (parseError message)
  | .ok req =>
      match agentDidError req.agentDid with
      | some reply => pure reply
      | none =>
          let estimated := estimateEndpointCost req.endpoint context.config.costSats
          if estimated = 0 then pure (.err 400 "Estimated cost is zero; check endpoint")
          else
            let held := upstream.holdFor estimated
            match generateJobId context.now random with
            | .error message => pure (.err 500 message)
            | .ok jobId =>
                let expiresAt := iso8601FromEpoch (context.now + context.jobExpirySecs)
                match ← call (Op.batch (createBatch jobId requesterDid req.agentDid req.endpoint
                    (req.params.map upstream.toText) estimated held context.now expiresAt)) with
                | .error message => pure (.store message)
                | .ok changed =>
                    if changed.head? = some 1 ∧ changed[1]? = some 1 then
                      pure (.ok (.object [("job_id", .string jobId),
                        ("requester_did", .string requesterDid),
                        ("agent_did", .string req.agentDid), ("endpoint", .string req.endpoint),
                        ("status", .string "held"), ("estimated_sats", num estimated),
                        ("held_sats", num held), ("created_at", num context.now),
                        ("expires_at", .string expiresAt)]))
                    else do
                      let read ← readBalance requesterDid
                      let balance := (read.toOption).getD 0
                      pure ⟨402, .object [("error", .string "Insufficient balance for job hold"),
                        ("balance", num balance), ("required", num held),
                        ("unit", .string ledgerUnit)]⟩

/-- A held job started, by its agent only. -/
def jobStart (context : PayContext) (agentDid : String) (body : Bytes) : PayProgram PayReply := do
  match upstream.parseJobAction body with
  | .error message => pure (parseError message)
  | .ok jobId =>
      match ← call (Op.batch [.jobStart context.now jobId agentDid]) with
      | .error message => pure (.store message)
      | .ok changed =>
          if changed.head? = some 1 then
            pure (.ok (.object [("job_id", .string jobId), ("status", .string "running"),
              ("started_at", num context.now)]))
          else
            pure (.err 404 "Job not found, not in 'held' status, or caller is not the agent")

/-- A transition of a job, and the release of what it no longer holds. -/
def releaseBatch (transition : Stmt) (jobId requestId : String) (now : Int) : List Stmt :=
  [transition, .journalRelease jobId (releaseRef jobId) requestId now,
    .applyCredit (releaseRef jobId) now, .markApplied (releaseRef jobId)]

/-- Whether the job changed, and whether the release was applied. -/
def transitionAndRelease (transition : Stmt) (jobId requestId : String) (now : Int) :
    PayProgram (Except String (Bool × Bool)) := do
  match ← call (Op.batch (releaseBatch transition jobId requestId now)) with
  | .error message => pure (.error message)
  | .ok changed => pure (.ok (changed.headD 0 == 1, changed.getD 3 0 == 1))

/-- A running job settled, by its agent only. -/
def jobSettle (context : PayContext) (agentDid requestId : String) (body : Bytes) :
    PayProgram PayReply := do
  match upstream.parseJobSettle body with
  | .error message => pure (parseError message)
  | .ok req =>
      match ← transitionAndRelease (.jobSettle (sats req.actualSats) context.now req.jobId agentDid
          (releaseRef req.jobId)) req.jobId requestId context.now with
      | .error message => pure (.store message)
      | .ok (settled, _) =>
          match ← call (Op.jobGet req.jobId) with
          | .error message => pure (.store message)
          | .ok none => pure (.err 404 "Job not found")
          | .ok (some job) =>
              let held := job.heldSats.toNat
              if settled then
                pure (.ok (.object [("job_id", .string req.jobId), ("status", .string "settled"),
                  ("actual_sats", num req.actualSats), ("held_sats", num held),
                  ("refund", num (held - req.actualSats : Nat)),
                  ("completed_at", num context.now)]))
              else if job.agentDid ≠ agentDid then
                pure (.err 403 "Only the agent can settle this job")
              else if job.status ≠ .running then
                pure (.err 409 ("Job is '" ++ job.status.text ++ "', expected 'running'"))
              else
                pure (.err 400 ("actual_sats (" ++ toString req.actualSats ++
                  ") exceeds held_sats (" ++ toString held ++ ")"))

/-- A job that is held or running cancelled, by its requester or its agent. -/
def jobCancel (context : PayContext) (callerDid requestId : String) (body : Bytes) :
    PayProgram PayReply := do
  match upstream.parseJobAction body with
  | .error message => pure (parseError message)
  | .ok jobId =>
      match ← transitionAndRelease (.jobCancel context.now jobId callerDid (releaseRef jobId)) jobId
          requestId context.now with
      | .error message => pure (.store message)
      | .ok (cancelled, _) =>
          match ← call (Op.jobGet jobId) with
          | .error message => pure (.store message)
          | .ok none => pure (.err 404 "Job not found")
          | .ok (some job) =>
              if cancelled then
                pure (.ok (.object [("job_id", .string jobId), ("status", .string "failed"),
                  ("error", .string "cancelled"), ("refund", num job.heldSats.toNat),
                  ("completed_at", num context.now)]))
              else if callerDid ≠ job.requesterDid ∧ callerDid ≠ job.agentDid then
                pure (.err 403 "Only the requester or agent can cancel this job")
              else
                pure (.err 409 ("Cannot cancel job in '" ++ job.status.text ++ "' status"))

/-- One job, to its requester or agent. -/
def jobGet (callerDid : String) (body : Bytes) : PayProgram PayReply := do
  match upstream.parseJobAction body with
  | .error message => pure (parseError message)
  | .ok jobId =>
      match ← call (Op.jobGet jobId) with
      | .error message => pure (.store message)
      | .ok none => pure (.err 404 "Job not found")
      | .ok (some job) =>
          if callerDid ≠ job.requesterDid ∧ callerDid ≠ job.agentDid then
            pure (.err 403 "Only the requester or agent can view this job")
          else pure (.ok job.toJson)

/-- Jobs expired one after another, until a transaction fails, with the number of those
that changed. -/
def expireAll (requestId : String) (now : Int) : List String → Nat →
    PayProgram (Except String Nat)
  | [], recovered => pure (.ok recovered)
  | jobId :: jobIds, recovered =>
      if jobId = "" then expireAll requestId now jobIds recovered
      else do
        match ← transitionAndRelease (.jobExpire now jobId (releaseRef jobId)) jobId requestId
            now with
        | .error message => pure (.error message)
        | .ok (expired, _) =>
            expireAll requestId now jobIds (if expired then recovered + 1 else recovered)

/-- The jobs that are past their time expired. -/
def recoverOrphanedJobs (requestId : String) (now : Int) : PayProgram (Except String Nat) := do
  match ← call (Op.jobsExpired (iso8601FromEpoch now)) with
  | .error message => pure (.error message)
  | .ok jobIds => expireAll requestId now jobIds 0

def cleanup (context : PayContext) (caller : Caller) : PayProgram PayReply := do
  match ← call (Op.isAdmin caller.pubkey) with
  | .error _ => pure (.err 403 "Admin access required")
  | .ok false => pure (.err 403 "Admin access required")
  | .ok true =>
      match ← recoverOrphanedJobs caller.requestId context.now with
      | .error message => pure (.store message)
      | .ok recovered =>
          pure (.ok (.object [("status", .string "ok"), ("recovered_jobs", num recovered)]))

/-! ## Routes -/

/-- The routes that are served, less those that this pod does not serve. -/
def infoBody (config : PayConfig) : JsonValue :=
  let without (names : List String) (fields : List (String × JsonValue)) :=
    fields.filter fun entry => !names.contains entry.1
  match upstream.payInfo config with
  | .object fields =>
      .object ((without ["pool"] fields).map fun entry =>
        match entry with
        | ("token", .object token) => ("token", .object (without ["buy", "withdraw"] token))
        | entry => entry)
  | info => info

def address (context : PayContext) (pubkey : String) : PayReply :=
  match context.masterSecret with
  | none => .err 503 "MASTER_SECRET not configured"
  | some secret =>
      match upstream.deriveDepositAddress secret pubkey with
      | .ok address => .ok (.object [("address", .string address), ("chain", .string defaultChain)])
      | .error message => .err 400 ("address derivation failed: " ++ message)

/-- Nothing is read or written for a token that the ledger does not keep. -/
def tokenExchangeGone (payPath : String) : PayReply :=
  .err 410 (payPath ++ " is withdrawn: this pod keeps no token balance, so it can neither sell " ++
    "tokens for sats nor redeem them; token state lives on its trail, read-only here")

def paidResource (context : PayContext) (did resource : String) : PayProgram PayReply := do
  match ← debit did context.config.costSats context.now with
  | .error message => pure (.store message)
  | .ok (.insufficient balance cost) => pure ⟨402, upstream.paymentRequiredBody balance cost⟩
  | .ok (.done remaining) =>
      pure (.ok (.object [("resource", .string resource),
        ("charged", num context.config.costSats), ("balance", num remaining),
        ("unit", .string ledgerUnit)]))

def balance (context : PayContext) (did : String) : PayProgram PayReply := do
  match ← readBalance did with
  | .error message => pure (.store message)
  | .ok balance => pure (.ok (upstream.balanceResponse did balance context.config.costSats))

/-- A deposit to the address that is derived for the caller. -/
def depositRoute (context : PayContext) (caller : Caller) (did : String) (body : Bytes) :
    PayProgram PayReply :=
  match context.masterSecret with
  | none => pure (.err 503 "Deposits are not configured on this pod")
  | some secret =>
      match upstream.deriveDepositScript secret caller.pubkey with
      | .error message => pure (.err 400 message)
      | .ok script =>
          deposit upstream context.config ⟨did, script, some caller.requestId⟩ body context.now

def dispatchPost (request : PayRequest) (caller : Caller) : PayProgram PayReply :=
  let context := request.context
  let did := upstream.pubkeyToDid caller.pubkey
  let rid := caller.requestId
  match request.payPath with
  | ".deposit" => depositRoute upstream context caller did request.body
  | ".buy" => pure (tokenExchangeGone ".buy")
  | ".withdraw" => pure (tokenExchangeGone ".withdraw")
  | ".estimate" => pure (estimate upstream context did request.body)
  | ".jobs.create" => jobCreate upstream context request.random did request.body
  | ".jobs.start" => jobStart upstream context did request.body
  | ".jobs.settle" => jobSettle upstream context did rid request.body
  | ".jobs.cancel" => jobCancel upstream context did rid request.body
  | ".jobs.get" => jobGet upstream did request.body
  | ".cleanup" => cleanup context caller
  | _ => pure (.err 405 "Method not allowed on pay route")

def dispatchGet (request : PayRequest) (caller : Caller) : PayProgram PayReply :=
  let context := request.context
  let did := upstream.pubkeyToDid caller.pubkey
  match request.payPath with
  | ".address" => pure (address upstream context caller.pubkey)
  | ".balance" => balance upstream context did
  | ".jobs" => jobsList did
  | resource => paidResource upstream context did resource

/-- A request to a pay route served. -/
def dispatch (request : PayRequest) : PayProgram PayReply :=
  if request.payPath = ".info" ∨ request.payPath = ".offers" then
    pure (.ok (infoBody upstream request.context.config))
  else
    match request.caller with
    | none => pure (.err 401 "Authentication required")
    | some caller =>
        match request.method with
        | .post => dispatchPost upstream request caller
        | .get => dispatchGet upstream request caller
        | .other => pure (.err 405 "Method not allowed on pay route")

end Routes

/-! ## Runs -/

/-- A move of the pay routes: a request comes in, or the next operation for one is
performed. -/
abbrev Move := Lib.Move PayRequest Choice

/-- The ledger, and the requests that are being served from it. -/
abbrev Routes := Lib.Pool Ledger PayRequest Op Choice Op.Answer PayReply

def Routes.step (upstream : Upstream) : Routes → Move → Routes :=
  Lib.Pool.step (dispatch upstream) Ledger.answer

end Pay
end NostrBbs
