import NostrBbs.Lib.Pool
import NostrBbs.Lib.Table
import NostrBbs.Relay.Sealed
import NostrBbs.Shared.Texts

/-!
# Passkeys

The tables of the WebAuthn ceremonies, their statements, and the login ceremony: a challenge
is issued for a pubkey or for any, checked by a read, and deleted in the batch that stores
the counter of the assertion.
-/

namespace NostrBbs
namespace Auth

open Lib.Program (call)
open Relay (isAsciiHexdigit)

/-! ## Tables -/

/-- A row of the `challenges` table, whose times are in milliseconds. -/
structure ChallengeRow where
  pubkey : String
  challenge : String
  createdAt : Nat
deriving DecidableEq, Repr

/-- A row of the `registration_salts` table. -/
structure SaltRow where
  challenge : String
  prfSalt : String
  createdAt : Nat
deriving DecidableEq, Repr

/-- A row of the `webauthn_credentials` table, where no column is a key. -/
structure CredentialRow where
  pubkey : String
  credentialId : String
  publicKey : String
  prfSalt : Option String
  counter : UInt32
  createdAt : Nat
deriving DecidableEq, Repr

/-- The bucket of challenges that are issued without a pubkey. -/
def discoverable : String := "__discoverable__"

def fiveMinutes : Nat := 5 * 60 * 1000

/-- What a login leaves in the tables: the pubkey and the credential of the assertion, its
challenge, and its counter. -/
structure Login where
  pubkey : String
  credentialId : String
  challenge : String
  counter : UInt32
deriving DecidableEq, Repr

/-- A credential that was stored by a challenge, and when. -/
structure Registration where
  challenge : String
  credential : CredentialRow
  storedAt : Nat
deriving DecidableEq, Repr

/-- The tables, and the clock; and of what was ever done, the challenges that were stored for
logins, the salts that were stored for registrations, the challenges by which logins were
accepted, and the credentials that were stored. -/
structure PasskeyState where
  clock : Nat
  challenges : List ChallengeRow
  salts : Lib.Table SaltRow SaltRow.challenge
  credentials : List CredentialRow
  issued : List ChallengeRow
  saltsIssued : List SaltRow
  consumed : List String
  registered : List Registration

namespace PasskeyState

/-- The tables of a deployment before its first request. -/
def start (clock : Nat) (challenges : List ChallengeRow)
    (salts : Lib.Table SaltRow SaltRow.challenge) (credentials : List CredentialRow) :
    PasskeyState :=
  ⟨clock, challenges, salts, credentials, challenges, salts.rows, [], []⟩

def later (state : PasskeyState) (elapsed : Nat) : PasskeyState :=
  { state with clock := state.clock + elapsed }

/-- `DELETE FROM challenges WHERE created_at < ?1`, then the insert of a new row. -/
def putChallenge (state : PasskeyState) (row : ChallengeRow) (cutoff : Nat) :
    List ChallengeRow :=
  (state.challenges.filter fun old => !(old.createdAt < cutoff)) ++ [row]

/-- The batch of a login challenge. -/
def storeChallenge (state : PasskeyState) (row : ChallengeRow) (cutoff : Nat) : PasskeyState :=
  { state with challenges := state.putChallenge row cutoff, issued := state.issued ++ [row] }

/-- The batch of a registration challenge: its row, and in the same way its salt, whose
challenge is a key. -/
def storeRegistration (state : PasskeyState) (row : ChallengeRow) (salt : SaltRow)
    (cutoff : Nat) : Option PasskeyState :=
  ((state.salts.retain fun old => !(old.createdAt < cutoff)).insert salt).map fun salts =>
    { state with
      challenges := state.putChallenge row cutoff
      salts := salts
      saltsIssued := state.saltsIssued ++ [salt] }

/-- The first credential of a pubkey. -/
def credentialOf (state : PasskeyState) (pubkey : String) : Option CredentialRow :=
  state.credentials.find? fun row => row.pubkey = pubkey

/-- A challenge is there that is younger than a cutoff and was issued for a pubkey or for
any. -/
def hasChallenge (state : PasskeyState) (challenge : String) (cutoff : Nat)
    (pubkey : String) : Bool :=
  state.challenges.any fun row =>
    row.challenge = challenge && cutoff < row.createdAt &&
      (row.pubkey = pubkey || row.pubkey = discoverable)

def deleteChallenge (state : PasskeyState) (challenge : String) : PasskeyState :=
  { state with challenges := state.challenges.filter fun row => row.challenge ≠ challenge }

/-- The batch of a login: the counter of every credential of the pubkey, and the challenge. -/
def acceptLogin (state : PasskeyState) (login : Login) : PasskeyState :=
  { state.deleteChallenge login.challenge with
    credentials := state.credentials.map fun row =>
      if row.pubkey = login.pubkey then { row with counter := login.counter } else row
    consumed := state.consumed ++ [login.challenge] }

/-- The salt of a registration challenge, where both rows are younger than a cutoff. -/
def registrationSalt (state : PasskeyState) (challenge : String) (cutoff : Nat) :
    Option String :=
  if state.challenges.any fun row =>
      row.challenge = challenge && cutoff < row.createdAt && row.pubkey = challenge then
    ((state.salts.find? challenge).filter fun salt => decide (cutoff < salt.createdAt)).map
      SaltRow.prfSalt
  else none

/-- The salt of a credential is still stored for its challenge. -/
def holdsSalt (state : PasskeyState) (row : CredentialRow) (challenge : String) : Bool :=
  (state.salts.find? challenge).any fun salt => some salt.prfSalt == row.prfSalt

/-- The batch of a registration: a credential where the salt is still there, and the deletion
of challenge and salt. -/
def storeCredential (state : PasskeyState) (row : CredentialRow) (challenge : String) :
    PasskeyState :=
  { state.deleteChallenge challenge with
    salts := state.salts.erase challenge
    credentials :=
      if state.holdsSalt row challenge then state.credentials ++ [row] else state.credentials
    registered :=
      if state.holdsSalt row challenge then
        state.registered ++ [⟨challenge, row, state.clock⟩]
      else state.registered }

end PasskeyState

/-! ## Statements -/

inductive PasskeyOp where
  | now
  | selectSalt (pubkey : String)
  | storeChallenge (row : ChallengeRow) (cutoff : Nat)
  | storeRegistration (row : ChallengeRow) (salt : SaltRow) (cutoff : Nat)
  | selectCredential (pubkey : String)
  | checkChallenge (challenge : String) (cutoff : Nat) (pubkey : String)
  | acceptLogin (login : Login)
  | selectRegistrationSalt (challenge : String) (cutoff : Nat)
  | credentialExists (pubkey : String)
  | storeCredential (row : CredentialRow) (challenge : String)
deriving DecidableEq

/-- What a statement returns; `none` where it fails. -/
abbrev PasskeyOp.Answer : PasskeyOp → Type
  | now => Nat
  | selectSalt _ => Option (Option CredentialRow)
  | storeChallenge _ _ => Option Unit
  | storeRegistration _ _ _ => Option Unit
  | selectCredential _ => Option (Option CredentialRow)
  | checkChallenge _ _ _ => Option Bool
  | acceptLogin _ => Option Unit
  | selectRegistrationSalt _ _ => Option (Option String)
  | credentialExists _ => Option Bool
  | storeCredential _ _ => Option Bool

/-- The time that goes by before a statement, and whether it fails. -/
structure PasskeyChoice where
  elapsed : Nat
  fails : Bool
deriving DecidableEq, Repr

/-- A statement in the state as it is when it runs. -/
def answerPasskeyAt (state : PasskeyState) (fails : Bool) :
    (op : PasskeyOp) → PasskeyState × op.Answer
  | .now => (state, state.clock)
  | .selectSalt pubkey => (state, if fails then none else some (state.credentialOf pubkey))
  | .storeChallenge row cutoff =>
      if fails then (state, none) else (state.storeChallenge row cutoff, some ())
  | .storeRegistration row salt cutoff =>
      if fails then (state, none)
      else
        match state.storeRegistration row salt cutoff with
        | some stored => (stored, some ())
        | none => (state, none)
  | .selectCredential pubkey =>
      (state, if fails then none else some (state.credentialOf pubkey))
  | .checkChallenge challenge cutoff pubkey =>
      (state, if fails then none else some (state.hasChallenge challenge cutoff pubkey))
  | .acceptLogin login =>
      if fails then (state, none) else (state.acceptLogin login, some ())
  | .selectRegistrationSalt challenge cutoff =>
      (state, if fails then none else some (state.registrationSalt challenge cutoff))
  | .credentialExists pubkey =>
      (state, if fails then none else some (state.credentialOf pubkey).isSome)
  | .storeCredential row challenge =>
      if fails then (state, none)
      else (state.storeCredential row challenge, some (state.holdsSalt row challenge))

def answerPasskey (state : PasskeyState) (choice : PasskeyChoice) (op : PasskeyOp) :
    PasskeyState × op.Answer :=
  answerPasskeyAt (state.later choice.elapsed) choice.fails op

/-! ## Ceremonies -/

/-- The parsed `clientDataJSON`. -/
structure ClientData where
  ceremonyType : Option String
  challenge : Option String
  origin : Option String
  crossOrigin : Option Bool
deriving DecidableEq, Repr

/-- Verdicts on the signature of an assertion. -/
inductive AssertionVerdict where
  | invalidKey
  | malformedSignature
  | forged
  | verified
deriving DecidableEq, Repr

/-- The configured names, which are unset or not blank, and the readers and the cryptography
that the ceremonies call. -/
structure PasskeyEnv where
  rpId : Option String
  expectedOrigin : Option String
  base64urlDecode : String → Option (List UInt8)
  parseClientData : List UInt8 → Option ClientData
  sha256 : List UInt8 → List UInt8
  verifyAssertion :
    (publicKey : String) → (signedData signature : List UInt8) → AssertionVerdict
  deterministicSaltFor : String → String

inductive PasskeyReply where
  | error (message : String) (status : Nat)
  | crashed (message : String)
  | loginOptions (challenge rpId : String) (prfSalt : Option String)
  | registerOptions (challenge rpId displayName prfSalt : String)
  | loggedIn (pubkey : String)
  | registered (pubkey credentialId : String)
deriving DecidableEq, Repr

abbrev PasskeyProgram := Lib.Program PasskeyOp PasskeyOp.Answer

def isValidPubkey (text : String) : Bool :=
  text.utf8ByteSize = 64 && text.toList.all isAsciiHexdigit

/-- A text that is there and not empty. -/
def nonEmpty (text : Option String) : Option String :=
  text.filter fun content => content ≠ ""

/-- What a request proves about its sender: nothing, an invalid token, or the key that signed
it. -/
inductive Authorization where
  | missing
  | invalid
  | signedBy (pubkey : String)
deriving DecidableEq, Repr

def rpIdUnset : PasskeyReply := .error "Server misconfigured: RP_ID unset" 500

def expectedOriginUnset : PasskeyReply := .error "Server misconfigured: EXPECTED_ORIGIN unset" 500

/-- The message of a failing statement. -/
def databaseFailed : PasskeyReply := .crashed "D1"

/-! ## The options of a login -/

/-- A request for the options of a login, with the challenge that is drawn for it. -/
structure LoginOptionsRequest where
  pubkey : Option String
  challenge : String
deriving DecidableEq, Repr

/-- The salt that the options name: that of the credential of a pubkey, or one that looks
like it. -/
def loginSalt (env : PasskeyEnv) (pubkey : Option String) :
    PasskeyProgram (Except Unit (Option String)) :=
  match pubkey with
  | none => return .ok none
  | some pubkey => do
      let found : Option (Option CredentialRow) ← call (PasskeyOp.selectSalt pubkey)
      match found with
      | none => return .error ()
      | some none => return .ok (some (env.deterministicSaltFor pubkey))
      | some (some row) => return .ok row.prfSalt

def loginOptions (env : PasskeyEnv) (request : LoginOptionsRequest) :
    PasskeyProgram PasskeyReply := do
  let salt ← loginSalt env request.pubkey
  match salt with
  | .error () => return databaseFailed
  | .ok prfSalt =>
      let now : Nat ← call PasskeyOp.now
      let row : ChallengeRow := ⟨request.pubkey.getD discoverable, request.challenge, now⟩
      let stored : Option Unit ← call (PasskeyOp.storeChallenge row (now - fiveMinutes))
      match stored with
      | none => return databaseFailed
      | some () =>
          match env.rpId with
          | none => return rpIdUnset
          | some rpId => return .loginOptions request.challenge rpId prfSalt

/-! ## The verification of a login -/

structure InnerAssertionResponse where
  clientDataJson : Option String
  authenticatorData : Option String
  signature : Option String
deriving DecidableEq, Repr

structure AssertionData where
  id : Option String
  response : Option InnerAssertionResponse
deriving DecidableEq, Repr

structure LoginVerifyBody where
  pubkey : Option String
  response : Option AssertionData
deriving DecidableEq, Repr

/-- A request to verify a login, whose body is one of JSON or not. -/
structure LoginVerifyRequest where
  authorization : Authorization
  body : Option LoginVerifyBody
deriving DecidableEq, Repr

/-- The claimed pubkey in lower case, when it is one. -/
def claimedPubkey (pubkey : Option String) : Option String :=
  (pubkey.filter isValidPubkey).map Shared.toAsciiLowercase

/-- The checks of the client data that come before the challenge. -/
def checkClientData (env : PasskeyEnv) (ceremony wrongCeremony : String) (data : ClientData) :
    Except PasskeyReply Unit :=
  if data.ceremonyType ≠ some ceremony then .error (.error wrongCeremony 400)
  else if data.crossOrigin = some true then .error (.error "Cross-origin ceremony rejected" 400)
  else
    match env.expectedOrigin with
    | none => .error expectedOriginUnset
    | some expected =>
        if data.origin ≠ some expected then .error (.error "Origin mismatch" 400) else .ok ()

/-- The number of four bytes, the highest of which is the first. -/
def u32FromBeBytes (bytes : List UInt8) : UInt32 :=
  (bytes.take 4).foldl (fun number byte => number * 256 + byte.toUInt32) 0

/-- The checks of the authenticator data, which give its counter. -/
def signCount (env : PasskeyEnv) (authData : List UInt8) : Except PasskeyReply UInt32 :=
  if authData.length < 37 then .error (.error "authenticatorData too short" 400)
  else
    match env.rpId with
    | none => .error rpIdUnset
    | some rpId =>
        let flags := (authData.drop 32).headD 0
        if env.sha256 rpId.toUTF8.toList ≠ authData.take 32 then
          .error (.error "RP ID mismatch" 400)
        else if flags &&& 0x01 = 0 then .error (.error "User presence not verified" 400)
        else if flags &&& 0x04 = 0 then .error (.error "User verification not performed" 400)
        else .ok (u32FromBeBytes (authData.drop 33))

/-- The checks of an assertion against the credential that was read. -/
def checkAssertion (env : PasskeyEnv) (credential : CredentialRow)
    (response : InnerAssertionResponse) (clientDataBytes : List UInt8) :
    Except PasskeyReply UInt32 :=
  match nonEmpty response.authenticatorData with
  | none => .error (.error "Missing authenticatorData" 400)
  | some text =>
      match env.base64urlDecode text with
      | none => .error (.error "Invalid authenticatorData" 400)
      | some authData =>
          match signCount env authData with
          | .error reply => .error reply
          | .ok counter =>
              if counter ≠ 0 ∧ counter ≤ credential.counter then
                .error (.error "Credential replay detected" 400)
              else
                match nonEmpty response.signature with
                | none => .error (.error "Missing assertion signature" 400)
                | some signatureText =>
                    match env.base64urlDecode signatureText with
                    | none => .error (.error "Invalid assertion signature encoding" 400)
                    | some signature =>
                        if credential.publicKey = "" then
                          .error (.error "No stored public key for credential" 400)
                        else
                          match env.verifyAssertion credential.publicKey
                              (authData ++ env.sha256 clientDataBytes) signature with
                          | .invalidKey =>
                              .error (.error
                                "Stored credential public key is invalid or unsupported" 400)
                          | .malformedSignature =>
                              .error (.error "Assertion signature is malformed" 400)
                          | .forged =>
                              .error (.error "Assertion signature verification failed" 400)
                          | .verified => .ok counter

/-- What an assertion is checked to be, before its challenge is looked up: of the credential,
with client data of a login. -/
def readAssertion (env : PasskeyEnv) (credential : CredentialRow)
    (data : Option AssertionData) :
    Except PasskeyReply (InnerAssertionResponse × List UInt8 × ClientData) :=
  match data with
  | none => .error (.error "Missing assertion response" 400)
  | some assertion =>
      match assertion.response with
      | none => .error (.error "Missing assertion response" 400)
      | some response =>
          if assertion.id ≠ some credential.credentialId then
            .error (.error "Credential mismatch" 400)
          else
            match nonEmpty response.clientDataJson with
            | none => .error (.error "Missing clientDataJSON" 400)
            | some text =>
                match env.base64urlDecode text with
                | none => .error (.error "Invalid clientDataJSON" 400)
                | some bytes =>
                    match env.parseClientData bytes with
                    | none => .error (.error "Invalid clientDataJSON" 400)
                    | some clientData =>
                        match checkClientData env "webauthn.get" "Invalid ceremony type"
                            clientData with
                        | .error reply => .error reply
                        | .ok () => .ok (response, bytes, clientData)

/-- The last steps of a login: the assertion, and the batch that accepts it. -/
def finishLogin (env : PasskeyEnv) (credential : CredentialRow) (pubkey challenge : String)
    (response : InnerAssertionResponse) (clientDataBytes : List UInt8) :
    PasskeyProgram PasskeyReply :=
  match checkAssertion env credential response clientDataBytes with
  | .error reply => return reply
  | .ok counter => do
      let accepted : Option Unit ←
        call (PasskeyOp.acceptLogin ⟨pubkey, credential.credentialId, challenge, counter⟩)
      match accepted with
      | none => return databaseFailed
      | some () => return .loggedIn pubkey

/-- A login with the credential that was read for its pubkey. -/
def loginWith (env : PasskeyEnv) (credential : CredentialRow) (pubkey : String)
    (data : Option AssertionData) : PasskeyProgram PasskeyReply :=
  match readAssertion env credential data with
  | .error reply => return reply
  | .ok (response, bytes, clientData) => do
      let now : Nat ← call PasskeyOp.now
      let challenge := clientData.challenge.getD ""
      let isIssued : Option Bool ←
        call (PasskeyOp.checkChallenge challenge (now - fiveMinutes) pubkey)
      match isIssued with
      | none => return databaseFailed
      | some false => return .error "Invalid or expired challenge" 400
      | some true => finishLogin env credential pubkey challenge response bytes

def loginVerify (env : PasskeyEnv) (request : LoginVerifyRequest) :
    PasskeyProgram PasskeyReply :=
  match request.body with
  | none => return .crashed "Invalid JSON body"
  | some body =>
      match claimedPubkey body.pubkey with
      | none => return .error "Invalid pubkey" 400
      | some pubkey =>
          match request.authorization with
          | .missing => return .error "NIP-98 Authorization required" 401
          | .invalid => return .error "Invalid NIP-98 token" 401
          | .signedBy signer =>
              if signer ≠ pubkey then return .error "NIP-98 pubkey mismatch" 401
              else do
                let found : Option (Option CredentialRow) ←
                  call (PasskeyOp.selectCredential pubkey)
                match found with
                | none => return databaseFailed
                | some none => return .error "No registered credential" 400
                | some (some credential) => loginWith env credential pubkey body.response

end Auth
end NostrBbs
