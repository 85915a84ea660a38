import NostrBbs.ZoneMigrate.Envelope

/-!
# The zone read path

What a reader sees of one channel message: the text of a plain one, the
decrypted text of a zone-encrypted one, the complete original of a sealed
envelope, or a placeholder.
-/

namespace NostrBbs
namespace Client

open Relay (NostrEvent Tag)
open ZoneMigrate (Crypto)

/-! ## Keys -/

/-- A zone key that the client holds. -/
structure ZoneKey where
  zone : String
  epoch : Nat
  secret : String
  pubkey : String
  grantedBy : String
  receivedAt : Nat
deriving DecidableEq, Repr

/-- The secret, if well-formed. -/
def ZoneKey.secretBytes (key : ZoneKey) : Option String :=
  if Relay.isHex64 key.secret then some key.secret else none

/-- The keys held, by zone and epoch. -/
abbrev Keys := String × Nat → Option ZoneKey

/-! ## The `zk` tag -/

/-- A parsed `zk` tag. -/
structure ZkRef where
  zone : String
  epoch : Nat
  pubkey : String
deriving DecidableEq, Repr

/-- One tag read as a `zk` tag. -/
def zkRef (tag : Tag) : Option ZkRef :=
  if tag.length < 4 ∨ tag.head? ≠ some "zk" ∨ tag.getD 1 "" = "" then none
  else
    match (Relay.parseUnsigned 32 (tag.getD 2 "")).filter (1 ≤ ·) with
    | none => none
    | some epoch =>
        if !Relay.isHex64 (tag.getD 3 "") then none
        else some ⟨tag.getD 1 "", epoch, String.ofList (Relay.asciiLower (tag.getD 3 ""))⟩

/-- The first well-formed `zk` tag. -/
def parseZk (tags : List Tag) : Option ZkRef :=
  tags.findSome? zkRef

/-! ## Outcomes -/

/-- What the reader sees for one message. -/
inductive ReadOutcome where
  | plain
  | decrypted (text : String)
  | sealed (inner : NostrEvent)
  | missingKey
  | failed
deriving DecidableEq, Repr

/-- The text of a message under a key: zone secret and author. -/
def decryptWith (crypto : Crypto) (event : NostrEvent) (key : ZoneKey) : Option String :=
  match key.secretBytes with
  | none => none
  | some secret =>
      if !Relay.isHex64 event.pubkey then none
      else crypto.decrypt secret event.pubkey event.content

/-- A message classified for display. -/
def readOutcome (crypto : Crypto) (keys : Keys) (event : NostrEvent) : ReadOutcome :=
  let isSealed := Relay.hasSealedTag event.tags
  if !isSealed && !Relay.hasZkTag event.tags then .plain
  else
    match parseZk event.tags with
    | none => .failed
    | some zk =>
        match keys (zk.zone, zk.epoch) with
        | none => .missingKey
        | some key =>
            if !Relay.eqIgnoreAsciiCase key.pubkey zk.pubkey then .failed
            else if isSealed then
              match key.secretBytes with
              | none => .failed
              | some secret =>
                  match crypto.openSealed event secret with
                  | .ok inner => .sealed inner
                  | .error _ => .failed
            else
              match decryptWith crypto event key with
              | some text => .decrypted text
              | none => .failed

/-! ## What is displayed -/

section

variable {crypto : Crypto} {keys later : Keys} {event inner : NostrEvent}

end

end Client
end NostrBbs
