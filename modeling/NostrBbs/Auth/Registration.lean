import NostrBbs.Auth.Invites
import NostrBbs.Auth.Passkeys

/-!
# Registration of passkeys

A registration challenge is issued with a salt.  Its verification checks challenge, attestation
and pubkey by reads, consumes an invite where the Web of Trust asks for one, and stores the
credential in a batch that only depends on the salt.
-/

namespace NostrBbs
namespace Auth

open Lib.Program (call)
open Shared (trimChars)
open Whitelist (ZoneMeta)

/-! ## The options of a registration -/

/-- A request for the options of a registration, with the challenge and the salt that are drawn
for it. -/
structure RegisterOptionsRequest where
  displayName : Option String
  challenge : String
  prfSalt : String
deriving DecidableEq, Repr

def displayNameOf (displayName : Option String) : String :=
  (displayName.filter fun name => String.ofList (trimChars name.toList) ≠ "").getD "Nostr User"

def registerOptions (env : PasskeyEnv) (request : RegisterOptionsRequest) :
    PasskeyProgram PasskeyReply := do
  let now : Nat ← call PasskeyOp.now
  let stored : Option Unit ← call (PasskeyOp.storeRegistration
    ⟨request.challenge, request.challenge, now⟩ ⟨request.challenge, request.prfSalt, now⟩
    (now - fiveMinutes))
  match stored with
  | none => return databaseFailed
  | some () =>
      match env.rpId with
      | none => return rpIdUnset
      | some rpId =>
          return .registerOptions request.challenge rpId (displayNameOf request.displayName)
            request.prfSalt

/-! ## Attestations -/

/-- A parsed attestation object. -/
structure AttestationObject where
  fmt : String
  authData : List UInt8
deriving DecidableEq, Repr

/-- The readers of an attestation: CBOR, the text of bytes, and the check of a COSE key. -/
structure AttestationEnv where
  parseAttestationObject : List UInt8 → Except String AttestationObject
  base64urlEncode : List UInt8 → String
  parseCoseP256Key : String → Except String Unit

structure AttestedCredential where
  credentialId : List UInt8
  coseKeyBytes : List UInt8
deriving DecidableEq, Repr

/-- The credential id and the key that follow the first 37 bytes and the id of the
authenticator. -/
def parseAttestedCredential (authData : List UInt8) : Except String AttestedCredential :=
  if authData.length < 37 then .error "authData too short for attested credential"
  else if (authData.drop 32).headD 0 &&& 0x40 = 0 then
    .error "AT flag not set — no attested credential data"
  else if authData.length < 37 + 16 then .error "authData truncated at AAGUID"
  else if authData.length < 37 + 16 + 2 then
    .error "authData truncated at credential ID length"
  else
    let credIdLen := ((authData.drop 53).headD 0).toNat * 256 + ((authData.drop 54).headD 0).toNat
    if authData.length < 55 + credIdLen then .error "authData truncated at credential ID"
    else if authData.length ≤ 55 + credIdLen then .error "authData truncated at COSE key"
    else .ok ⟨(authData.drop 55).take credIdLen, authData.drop (55 + credIdLen)⟩

/-! ## Statements -/

/-- The policy and the entries of the Web of Trust. -/
structure WotTables where
  wotEnabled : Option Int
  entries : List String
deriving DecidableEq, Repr

structure RegistrationState where
  passkeys : PasskeyState
  invites : InviteDb
  wot : WotTables

inductive RegistrationOp where
  | passkey (op : PasskeyOp)
  | invite (op : InviteOp)
  | selectWotSettings
  | selectWotEntry (pubkey : String)

abbrev RegistrationOp.Answer : RegistrationOp → Type
  | passkey op => op.Answer
  | invite op => op.Answer
  | selectWotSettings => Option (Option Int)
  | selectWotEntry _ => Option Bool

/-- The time that goes by before a statement, in milliseconds, and why it fails, if it
does. -/
structure RegistrationChoice where
  elapsed : Nat
  failure : Option String
deriving DecidableEq, Repr

def RegistrationChoice.passkey (choice : RegistrationChoice) : PasskeyChoice :=
  ⟨choice.elapsed, choice.failure.isSome⟩

/-- The clock of the invites counts seconds. -/
def RegistrationChoice.invite (choice : RegistrationChoice) (state : RegistrationState) :
    InviteChoice :=
  ⟨choice.failure, ((state.passkeys.clock + choice.elapsed) / 1000 : Nat)⟩

def answerRegistration (state : RegistrationState) (choice : RegistrationChoice) :
    (op : RegistrationOp) → RegistrationState × op.Answer
  | .passkey op =>
      let answered := answerPasskey state.passkeys choice.passkey op
      ({ state with passkeys := answered.1 }, answered.2)
  | .invite op =>
      let answered := answerInvite state.invites (choice.invite state) op
      ({ state with
          passkeys := state.passkeys.later choice.elapsed
          invites := answered.1 }, answered.2)
  | .selectWotSettings =>
      ({ state with passkeys := state.passkeys.later choice.elapsed },
        if choice.failure.isSome then none else some state.wot.wotEnabled)
  | .selectWotEntry pubkey =>
      ({ state with passkeys := state.passkeys.later choice.elapsed },
        if choice.failure.isSome then none else some (state.wot.entries.contains pubkey))

/-! ## The verification of a registration -/

structure InnerAttestationResponse where
  clientDataJson : Option String
  attestationObject : Option String
deriving DecidableEq, Repr

structure RegisterVerifyBody where
  pubkey : Option String
  /-- The response, and the one in it. -/
  response : Option (Option InnerAttestationResponse)
  inviteCode : Option String
deriving DecidableEq, Repr

structure RegisterVerifyRequest where
  authorization : Authorization
  body : Option RegisterVerifyBody
deriving DecidableEq, Repr

inductive RegistrationReply where
  | passkey (reply : PasskeyReply)
  | invite (reply : InviteReply)
deriving DecidableEq

abbrev RegistrationProgram := Lib.Program RegistrationOp RegistrationOp.Answer

/-- The reply of a ceremony. -/
def replyWith (reply : PasskeyReply) : RegistrationProgram RegistrationReply :=
  return .passkey reply

section Verification

variable (env : PasskeyEnv) (attestationEnv : AttestationEnv) (zones : List ZoneMeta)

/-- What a response is checked to be, before its challenge is looked up. -/
def readAttestation (response : Option (Option InnerAttestationResponse)) :
    Except PasskeyReply (InnerAttestationResponse × String) :=
  match response with
  | none => .error (.error "Missing credential response" 400)
  | some none => .error (.error "Missing attestation response" 400)
  | some (some inner) =>
      match nonEmpty inner.clientDataJson with
      | none => .error (.error "Missing clientDataJSON" 400)
      | some text =>
          match env.base64urlDecode text with
          | none => .error (.crashed "Invalid clientDataJSON encoding")
          | some bytes =>
              match env.parseClientData bytes with
              | none => .error (.crashed "Invalid clientDataJSON")
              | some clientData =>
                  match checkClientData env "webauthn.create"
                      "Invalid ceremony type (expected webauthn.create)" clientData with
                  | .error reply => .error reply
                  | .ok () =>
                      match nonEmpty clientData.challenge with
                      | none => .error (.error "Missing challenge" 400)
                      | some challenge => .ok (inner, challenge)

/-- The credential of an attestation: its id, its key and its counter. -/
def checkAttestation (inner : InnerAttestationResponse) :
    Except PasskeyReply (String × String × UInt32) :=
  match nonEmpty inner.attestationObject with
  | none => .error (.error "Missing attestationObject" 400)
  | some text =>
      match env.base64urlDecode text with
      | none => .error (.crashed "Invalid attestationObject encoding")
      | some bytes =>
          match attestationEnv.parseAttestationObject bytes with
          | .error reason => .error (.crashed s!"Attestation parse: {reason}")
          | .ok object =>
              if object.fmt ≠ "none" ∧ object.fmt ≠ "packed" then
                .error (.error s!"Unsupported attestation format: {object.fmt}" 400)
              else
                match signCount env object.authData with
                | .error reply => .error reply
                | .ok counter =>
                    match parseAttestedCredential object.authData with
                    | .error reason => .error (.crashed s!"Credential extraction: {reason}")
                    | .ok credential =>
                        let credentialId := attestationEnv.base64urlEncode credential.credentialId
                        let publicKey := attestationEnv.base64urlEncode credential.coseKeyBytes
                        match attestationEnv.parseCoseP256Key publicKey with
                        | .error reason =>
                            .error (.crashed
                              s!"Credential public key is not a valid ES256 key: {reason}")
                        | .ok () => .ok (credentialId, publicKey, counter)

/-- Whether the Web of Trust lets a pubkey register; `none` when it cannot be told. -/
def isAllowedByWot (pubkey : String) : RegistrationProgram (Option Bool) := do
  let settings : Option (Option Int) ← call RegistrationOp.selectWotSettings
  match settings with
  | none => return none
  | some wotEnabled =>
      if wotEnabled ≠ some 1 then return some true
      else do
        let entry : Option Bool ← call (RegistrationOp.selectWotEntry pubkey)
        return entry

/-- The gate of a registration: the Web of Trust, or else an invite that is consumed. -/
def registrationGate (pubkey : String) (inviteCode : Option String) :
    RegistrationProgram (Option PasskeyReply) := do
  let allowed ← isAllowedByWot pubkey
  match allowed with
  | none => return some (.error "Web-of-Trust check failed" 503)
  | some true => return none
  | some false =>
      match inviteCode with
      | none => return some (.error "Registration is invite-only (Web-of-Trust enabled)" 403)
      | some code => do
          let outcome ← (consumeForRegistration zones code pubkey).embed RegistrationOp.invite
            fun _ answer => answer
          if outcome = .consumed then return none
          else return some (.error "Registration is invite-only (Web-of-Trust enabled)" 403)

/-- The batch that stores a credential, and what is replied to it. -/
def storeCredential (row : CredentialRow) (challenge : String) :
    RegistrationProgram RegistrationReply := do
  let stored : Option Bool ←
    call (RegistrationOp.passkey (PasskeyOp.storeCredential row challenge))
  match stored with
  | none => replyWith databaseFailed
  | some false => replyWith (.error "Registration challenge already consumed" 409)
  | some true => replyWith (.registered row.pubkey row.credentialId)

/-- What follows once a credential is to be stored for a pubkey. -/
def admitRegistration (row : CredentialRow) (challenge : String) (inviteCode : Option String) :
    RegistrationProgram RegistrationReply := do
  let existing : Option Bool ←
    call (RegistrationOp.passkey (PasskeyOp.credentialExists row.pubkey))
  match existing with
  | none => replyWith databaseFailed
  | some true => replyWith (.error "Pubkey already registered" 409)
  | some false => do
      let refused ← registrationGate zones row.pubkey inviteCode
      match refused with
      | some reply => replyWith reply
      | none => storeCredential row challenge

/-- A registration for a pubkey, from its response on. -/
def registerWith (pubkey : String) (body : RegisterVerifyBody) :
    RegistrationProgram RegistrationReply :=
  match readAttestation env body.response with
  | .error reply => replyWith reply
  | .ok (inner, challenge) => do
      let now : Nat ← call (RegistrationOp.passkey PasskeyOp.now)
      let salt : Option (Option String) ← call (RegistrationOp.passkey
        (PasskeyOp.selectRegistrationSalt challenge (now - fiveMinutes)))
      match salt with
      | none => replyWith databaseFailed
      | some none => replyWith (.error "Invalid or expired challenge" 400)
      | some (some prfSalt) =>
          match checkAttestation env attestationEnv inner with
          | .error reply => replyWith reply
          | .ok (credentialId, publicKey, counter) =>
              admitRegistration zones ⟨pubkey, credentialId, publicKey, some prfSalt, counter, now⟩
                challenge body.inviteCode

def registerVerify (request : RegisterVerifyRequest) : RegistrationProgram RegistrationReply :=
  match request.body with
  | none => replyWith (.crashed "Invalid JSON body")
  | some body =>
      match claimedPubkey body.pubkey with
      | none => replyWith (.error "Invalid pubkey" 400)
      | some pubkey =>
          match request.authorization with
          | .missing => replyWith (.error "NIP-98 Authorization required" 401)
          | .invalid => replyWith (.error "Invalid NIP-98 token" 401)
          | .signedBy signer =>
              if signer ≠ pubkey then replyWith (.error "NIP-98 pubkey mismatch" 401)
              else registerWith env attestationEnv zones pubkey body

end Verification

/-! ## Requests -/

inductive RegistrationRequest where
  | registerOptions (request : RegisterOptionsRequest)
  | loginOptions (request : LoginOptionsRequest)
  | registerVerify (request : RegisterVerifyRequest)
  | invite (request : InviteRequest)

/-- A ceremony of the passkeys alone, among the others. -/
def ceremony (program : PasskeyProgram PasskeyReply) : RegistrationProgram RegistrationReply := do
  let reply ← program.embed RegistrationOp.passkey fun _ answer => answer
  return .passkey reply

/-- The configuration of the worker. -/
structure RegistrationEnv where
  passkeys : PasskeyEnv
  attestations : AttestationEnv
  isStaticAdmin : String → Bool
  zones : List ZoneMeta

def handleRegistration (env : RegistrationEnv) :
    RegistrationRequest → RegistrationProgram RegistrationReply
  | .registerOptions request => ceremony (registerOptions env.passkeys request)
  | .loginOptions request => ceremony (loginOptions env.passkeys request)
  | .registerVerify request => registerVerify env.passkeys env.attestations env.zones request
  | .invite request => do
      let reply ← (handleInvite env.isStaticAdmin env.zones request).embed RegistrationOp.invite
        fun _ answer => answer
      return .invite reply

abbrev RegistrationPool := Lib.Pool RegistrationState RegistrationRequest RegistrationOp
  RegistrationChoice RegistrationOp.Answer RegistrationReply

abbrev RegistrationMove := Lib.Move RegistrationRequest RegistrationChoice

abbrev RegistrationEvent := Lib.Event RegistrationOp RegistrationChoice RegistrationOp.Answer

def stepRegistrations (env : RegistrationEnv) :
    RegistrationPool → RegistrationMove → RegistrationPool :=
  Lib.Pool.step (handleRegistration env) answerRegistration

end Auth
end NostrBbs
