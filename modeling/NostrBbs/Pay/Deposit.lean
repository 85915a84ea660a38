import NostrBbs.Governance.Broker
import NostrBbs.Pay.Ledger
import NostrBbs.Pod.Storage

/-!
# Requests to the pay ledger, and deposits

What a pay route reads of a request and what it replies, debits that never overdraw, and
deposits, which are credited by their outpoints.
-/

namespace NostrBbs
namespace Pay

open Relay (JsonValue asciiLower eqIgnoreAsciiCase)
open Pod (Bytes startsWith isHexDigit)
open Lib.Program (call)

/-- A program of a pay route. -/
abbrev PayProgram := Lib.Program Op Op.Answer

/-! ## Values -/

/-- Satoshi amounts are stored as signed 64-bit integers; what is above them is
clamped. -/
def sats (value : Nat) : Int :=
  min value (2 ^ 63 - 1 : Nat)

def wrap64 (value : Nat) : Nat :=
  value % 2 ^ 64

def num (value : Int) : JsonValue :=
  .number (toString value)

/-- The field of an object; of fields with one name the last counts. -/
def getField (name : String) : JsonValue → Option JsonValue
  | .object fields => fields.reverse.lookup name
  | _ => none

/-- A whole number that fits 64 bits. -/
def asU64 : JsonValue → Option Nat
  | .number text =>
      let digits := text.toList
      if digits.isEmpty || !digits.all Char.isDigit then none
      else
        let value := digits.foldl (fun value digit => value * 10 + (digit.toNat - '0'.toNat)) 0
        if value < 2 ^ 64 then some value else none
  | _ => none

def asBool : JsonValue → Option Bool
  | .bool value => some value
  | _ => none

def hexEncode (bytes : Bytes) : String :=
  String.ofList (bytes.flatMap fun byte => Pod.hexByte byte.toNat)

def lowercase (text : String) : String :=
  String.ofList (asciiLower text)

def trim (text : String) : String :=
  String.ofList
    (((text.toList.dropWhile Governance.isWhitespace).reverse.dropWhile
      Governance.isWhitespace).reverse)

/-! ## Requests and replies -/

structure PayReply where
  status : Nat
  body : JsonValue

namespace PayReply

def ok (body : JsonValue) : PayReply :=
  ⟨200, body⟩

def err (status : Nat) (message : String) : PayReply :=
  ⟨status, .object [("error", .string message)]⟩

def store (message : String) : PayReply :=
  err 500 ("payment store: " ++ message)

end PayReply

structure TxoUri where
  txid : String
  vout : Nat
  chain : Option String

structure ChainConfig where
  id : String
  unit : String
  explorerApi : String
deriving DecidableEq

structure PayConfig where
  costSats : Nat
  chains : List ChainConfig

structure PayContext where
  config : PayConfig
  now : Int
  masterSecret : Option Bytes
  jobExpirySecs : Int

/-- The signer of a request, and the id of the signed request. -/
structure Caller where
  pubkey : String
  requestId : String

inductive PayMethod where
  | get
  | post
  | other
deriving DecidableEq

/-- A request to a pay route, with the random bytes that it draws. -/
structure PayRequest where
  context : PayContext
  method : PayMethod
  payPath : String
  caller : Option Caller
  body : Bytes
  random : Except String Bytes

structure JobCreateBody where
  agentDid : String
  endpoint : String
  params : Option JsonValue

structure JobSettleBody where
  jobId : String
  actualSats : Nat

/-- What the pay routes take from the libraries that they are built on: TXO URIs, the
bodies of requests and replies, the derivation of deposit scripts, and the hold for an
estimate, which is computed in floating point. -/
structure Upstream where
  parseTxoUri : String → Except String TxoUri
  pubkeyToDid : String → String
  payInfo : PayConfig → JsonValue
  balanceResponse : String → Nat → Nat → JsonValue
  paymentRequiredBody : Nat → Nat → JsonValue
  bitcoinMainnet : ChainConfig
  deriveDepositAddress : Bytes → String → Except String String
  deriveDepositScript : Bytes → String → Except String Bytes
  fromUtf8 : Bytes → Option String
  parseObject : String → Except String (List (String × JsonValue))
  parseEndpoint : Bytes → Except String String
  parseJobCreate : Bytes → Except String JobCreateBody
  parseJobAction : Bytes → Except String String
  parseJobSettle : Bytes → Except String JobSettleBody
  toText : JsonValue → String
  holdFor : Nat → Nat

/-! ## Outpoints -/

/-- The unit this ledger counts in. -/
def ledgerUnit : String :=
  "sat"

def defaultChain : String :=
  "btc"

def isAsciiAlphanumeric (char : Char) : Bool :=
  char.isDigit || ('a'.toNat ≤ char.toNat && char.toNat ≤ 'z'.toNat) ||
    ('A'.toNat ≤ char.toNat && char.toNat ≤ 'Z'.toNat)

def isChainId (chain : String) : Bool :=
  chain != "" && chain.toList.all fun char => isAsciiAlphanumeric char || char == '-' || char == '_'

def isTxid (txid : String) : Bool :=
  txid.toList.length == 64 && txid.toList.all isHexDigit

/-- An outpoint with the identifier of its chain and of its transaction in lower case. -/
structure Outpoint where
  chain : String
  txid : String
  vout : Nat
  chainValid : isChainId chain = true
  txidLength : txid.toList.length = 64
deriving DecidableEq

theorem length_lowercase
    {txid : String}
    (valid : isTxid txid = true) :
    (lowercase txid).toList.length = 64 := by
  unfold isTxid at valid
  rw [Bool.and_eq_true, beq_iff_eq] at valid
  unfold lowercase asciiLower
  rw [String.toList_ofList, List.length_map]
  exact valid.1

namespace Outpoint

def new (chain txid : String) (vout : Nat) : Except String Outpoint :=
  let canonical := lowercase (trim chain)
  if chainValid : isChainId canonical = true then
    if txidValid : isTxid txid = true then
      .ok ⟨canonical, lowercase txid, vout, chainValid, length_lowercase txidValid⟩
    else .error "txid must be 64 hex chars"
  else .error ("bad chain id: " ++ canonical.quote)

/-- The receipt key. -/
def replayKey (outpoint : Outpoint) : String :=
  "txo:" ++ outpoint.chain ++ ":" ++ outpoint.txid ++ ":" ++ toString outpoint.vout

def fromTxoUri (upstream : Upstream) (uri : String) : Except String Outpoint :=
  match upstream.parseTxoUri uri with
  | .error message => .error message
  | .ok txo => new (txo.chain.getD defaultChain) txo.txid txo.vout

end Outpoint

/-! ## Ledger operations -/

/-- The balance of an account, nothing for an unknown one. -/
def readBalance (did : String) : PayProgram (Except String Nat) := do
  match ← call (Op.readBalance did) with
  | .error message => pure (.error message)
  | .ok row => pure (.ok (row.getD 0).toNat)

inductive Debit where
  | done (remaining : Nat)
  | insufficient (balance cost : Nat)

/-- Sats debited, never overdrawing. -/
def debit (did : String) (cost : Nat) (now : Int) : PayProgram (Except String Debit) := do
  match ← call (Op.batch [.debit (sats cost) now did]) with
  | .error message => pure (.error message)
  | .ok changed =>
      match ← readBalance did with
      | .error message => pure (.error message)
      | .ok balance =>
          if changed.headD 0 = 0 then pure (.ok (.insufficient balance cost))
          else pure (.ok (.done balance))

/-- An outpoint has been credited, by the journal or by an older receipt. -/
def outpointCredited (outpoint : Outpoint) : PayProgram (Except String Bool) :=
  call (Op.creditExists outpoint.replayKey outpoint.txid outpoint.vout)

/-- A deposit journalled and applied. -/
def creditBatch (did : String) (outpoint : Outpoint) (value : Nat) (requestId : Option String)
    (now : Int) : List Stmt :=
  [.journalDeposit outpoint.replayKey did (sats value) outpoint.chain outpoint.txid outpoint.vout
      requestId now,
    .applyCredit outpoint.replayKey now, .markApplied outpoint.replayKey]

/-- A verified deposit credited once, by its outpoint. -/
def creditDeposit (did : String) (outpoint : Outpoint) (value : Nat) (requestId : Option String)
    (now : Int) : PayProgram (Except String Bool) := do
  match ← call (Op.batch (creditBatch did outpoint value requestId now)) with
  | .error message => pure (.error message)
  | .ok changed => pure (.ok (changed.getD 2 0 == 1))

/-! ## Deposits -/

/-- The TXO URI in the body of a deposit. -/
def depositTxoFromBody (upstream : Upstream) (body : Bytes) : Except PayReply String :=
  match upstream.fromUtf8 body with
  | none => .error (.err 400 "Deposit body is not UTF-8")
  | some whole =>
      let text := trim whole
      if text = "" then .error (.err 400 "Empty deposit body")
      else if !startsWith "\x7b" text then .ok text
      else
        match upstream.parseObject text with
        | .error message =>
            .error (.err 400 ("Deposit body is not a JSON object: " ++ message))
        | .ok fields =>
            if (fields.lookup "amount_sats").isSome then
              .error (.err 400 ("amount_sats is not accepted: a deposit is credited only from a " ++
                "confirmed output paid to your deposit address (GET /pay/.address); " ++
                "send \x7b\"txo\": \"txid:vout\"\x7d"))
            else
              match (getField "txo" (.object fields)).bind JsonValue.asStr with
              | none => .error (.err 400 "No txo in body: send \x7b\"txo\": \"txid:vout\"\x7d")
              | some txo =>
                  if trim txo = "" then
                    .error (.err 400 "No txo in body: send \x7b\"txo\": \"txid:vout\"\x7d")
                  else .ok (trim txo)

/-- The configured chain of an identifier. -/
def resolveChain (upstream : Upstream) (config : PayConfig) (id : String) :
    Except PayReply ChainConfig :=
  match config.chains.find? fun chain => chain.id == id with
  | some chain => .ok chain
  | none =>
      if id = defaultChain ∧ config.chains = [] then .ok upstream.bitcoinMainnet
      else .error (.err 400 ("unsupported chain: " ++ id))

/-- The value of the output that an outpoint names, when the explorer's transaction is
confirmed and pays a script there. -/
def qualifyingOutput (tx : JsonValue) (outpoint : Outpoint) (expectedScript : Bytes) :
    Except PayReply Nat :=
  if ((getField "txid" tx).bind JsonValue.asStr).any fun txid =>
      !eqIgnoreAsciiCase txid outpoint.txid then
    .error (.err 502 "explorer returned another transaction")
  else
    match (getField "vout" tx).bind JsonValue.asArray with
    | none => .error (.err 502 "explorer returned no vout array")
    | some outputs =>
        match outputs[outpoint.vout]? with
        | none => .error (.err 400 "vout index out of range")
        | some output =>
            match (getField "scriptpubkey" output).bind JsonValue.asStr with
            | none => .error (.err 502 "explorer returned no scriptpubkey")
            | some script =>
                if !eqIgnoreAsciiCase script (hexEncode expectedScript) then
                  .error (.err 403 "output does not pay your deposit address (GET /pay/.address)")
                else if ((getField "status" tx).bind (getField "confirmed")).bind asBool ≠
                    some true then
                  .error (.err 409 "transaction is not confirmed yet")
                else
                  match (getField "value" output).bind asU64 with
                  | none => .error (.err 502 "explorer returned no output value")
                  | some value => .ok value

/-- Who claims a deposit, and the script that it must pay. -/
structure Depositor where
  did : String
  script : Bytes
  requestId : Option String

/-- A confirmed output that is looked up, and credited when it pays the depositor. -/
def creditOutput (config : ChainConfig) (depositor : Depositor) (outpoint : Outpoint) (now : Int) :
    PayProgram PayReply := do
  match ← call (Op.transaction config.explorerApi outpoint.txid) with
  | .error message => pure (.err 502 ("TXO lookup failed: " ++ message))
  | .ok tx =>
      match qualifyingOutput tx outpoint depositor.script with
      | .error reply => pure reply
      | .ok value =>
          match ← creditDeposit depositor.did outpoint value depositor.requestId now with
          | .error message => pure (.store message)
          | .ok false => pure (.err 409 "TXO already credited")
          | .ok true =>
              match ← readBalance depositor.did with
              | .error message => pure (.store message)
              | .ok balance =>
                  pure (.ok (.object [("status", .string "deposited"),
                    ("did", .string depositor.did), ("credited", num value),
                    ("balance", num balance), ("unit", .string ledgerUnit),
                    ("outpoint", .string outpoint.replayKey)]))

def deposit (upstream : Upstream) (config : PayConfig) (depositor : Depositor) (body : Bytes)
    (now : Int) : PayProgram PayReply := do
  match depositTxoFromBody upstream body with
  | .error reply => pure reply
  | .ok uri =>
      match Outpoint.fromTxoUri upstream uri with
      | .error message => pure (.err 400 ("invalid TXO: " ++ message))
      | .ok outpoint =>
          match resolveChain upstream config outpoint.chain with
          | .error reply => pure reply
          | .ok chain =>
              if chain.unit ≠ ledgerUnit then
                pure (.err 400 ("chain " ++ chain.id ++ " pays in " ++ chain.unit ++
                  ", and this ledger credits " ++ ledgerUnit ++ " only"))
              else
                match ← outpointCredited outpoint with
                | .error message => pure (.store message)
                | .ok true => pure (.err 409 "TXO already credited")
                | .ok false => creditOutput chain depositor outpoint now

end Pay
end NostrBbs
