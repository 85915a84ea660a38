import NostrBbs.Lib.Table
import NostrBbs.Relay.Sealed

/-!
# Sealed originals

An envelope is a zone-encrypted channel message whose plaintext is a complete
signed original.  Signatures, encryption, digests and the JSON form of an event
are one record of functions.
-/

namespace NostrBbs
namespace ZoneMigrate

open Relay (NostrEvent Tag)

/-! ## Cryptography -/

/-- What the migrator computes with keys and texts: secrets and public keys are
their hexadecimal texts, and encryption takes the nonce it draws. -/
structure Crypto where
  verifyEvent : NostrEvent → Bool
  toJson : NostrEvent → String
  /-- One NIP-01 event with exactly the seven standard fields. -/
  fromJson : String → Option NostrEvent
  encrypt : (nonce secret pubkey text : String) → Except String String
  decrypt : (secret pubkey payload : String) → Option String
  publicKey : String → String
  onCurve : String → Bool
  signEvent : NostrEvent → String → Except String NostrEvent
  sha256Hex : String → String

/-! ## Zone keys -/

/-- One zone epoch key. -/
structure ZoneKey where
  zone : String
  epoch : Nat
  pubkey : String
  secret : String
deriving DecidableEq, Repr

/-- The zone keys that the migrator holds, one for each zone and epoch. -/
abbrev KeyRing := Lib.Table ZoneKey fun key => (key.zone, key.epoch)

namespace KeyRing

/-- The key of exactly a zone and epoch. -/
def get (keys : KeyRing) (zone : String) (epoch : Nat) : Option ZoneKey :=
  keys.find? (zone, epoch)

/-- The later of two keys. -/
def laterOf (found : Option ZoneKey) (key : ZoneKey) : Option ZoneKey :=
  if found.any fun held => key.epoch ≤ held.epoch then found else some key

/-- The highest-epoch key of a zone, which seals. -/
def current (keys : KeyRing) (zone : String) : Option ZoneKey :=
  (keys.rows.filter fun key => key.zone == zone).foldl laterOf none

variable {keys : KeyRing} {zone : String} {key : ZoneKey}

theorem laterOf_cases (found : Option ZoneKey) (key : ZoneKey) :
    laterOf found key = found ∨ laterOf found key = some key := by
  unfold laterOf
  split
  · exact .inl rfl
  · exact .inr rfl

/-- The current key of a zone is held, for that zone. -/
theorem mem_of_current
    (isCurrent : current keys zone = some key) :
    key ∈ keys.rows ∧ key.zone = zone := by
  have folded : ∀ (rows : List ZoneKey) (found : Option ZoneKey),
      rows.foldl laterOf found = some key → found = some key ∨ key ∈ rows := by
    intro rows
    induction rows with
    | nil => exact fun found isKey => .inl isKey
    | cons row rows inductionHypothesis =>
        intro found isKey
        rcases inductionHypothesis _ isKey with before | later
        · rcases laterOf_cases found row with same | new
          · exact .inl (same ▸ before)
          · rw [new] at before
            exact .inr (List.mem_cons.mpr (.inl (Option.some.inj before).symm))
        · exact .inr (List.mem_cons_of_mem _ later)
  rcases folded _ none isCurrent with absent | member
  · cases absent
  · rw [List.mem_filter, beq_iff_eq] at member
    exact member

/-- The key that seals is the one that verifies. -/
theorem get_of_current
    (isCurrent : current keys zone = some key) :
    get keys zone key.epoch = some key := by
  obtain ⟨held, isZone⟩ := mem_of_current isCurrent
  exact Lib.Table.find?_eq_some_iff.mpr ⟨held, by rw [isZone]⟩

end KeyRing

/-! ## Sealing and opening -/

/-- The channel of a message: its `root`-marked `e` tag, else its first. -/
def channelOf (event : NostrEvent) : Option String :=
  Relay.channelTag event

/-- The envelope before it is signed; signing gives it its id and signature. -/
def unsignedEnvelope (migrator channel innerId zone zonePk content : String)
    (createdAt epoch : Nat) : NostrEvent where
  id := ""
  pubkey := migrator
  createdAt := createdAt
  kind := 42
  tags := [["e", channel, "", "root"], ["zk", zone, toString epoch, zonePk],
    ["sealed", innerId, "1"]]
  content := content
  sig := ""

namespace Crypto

variable (crypto : Crypto)

/-- An original sealed into an envelope that the migrator signs. -/
def sealOriginal (original : NostrEvent) (zone : String) (epoch : Nat)
    (zonePk migratorSk nonce : String) : Except String NostrEvent :=
  if original.kind ≠ 42 then .error s!"sealed original: expected kind 42, got {original.kind}"
  else if !crypto.verifyEvent original then
    .error "sealed original: inner event id or signature does not verify"
  else if Relay.hasZkTag original.tags then
    .error "sealed original: inner event is already zone-encrypted"
  else
    match channelOf original with
    | none => .error "sealed original: no channel e-tag"
    | some channel =>
        if zone = "" then .error "sealed original: invalid zone key parameters: empty zone"
        else if epoch < 1 then
          .error "sealed original: invalid zone key parameters: epoch must be >= 1"
        else if !Relay.isHex64 zonePk then
          .error "sealed original: invalid zone key parameters: zone pubkey must be 64 hex"
        else if !crypto.onCurve zonePk then
          .error "sealed original: invalid zone key parameters: zone pubkey is not on the curve"
        else
          match crypto.encrypt nonce migratorSk zonePk (crypto.toJson original) with
          | .error why => .error s!"sealed original: encryption failed: {why}"
          | .ok content =>
              match crypto.signEvent (unsignedEnvelope (crypto.publicKey migratorSk) channel
                  original.id zone (String.ofList (Relay.asciiLower zonePk)) content
                  original.createdAt epoch) migratorSk with
              | .error why => .error s!"sealed original: signing failed: {why}"
              | .ok envelope => .ok envelope

/-- The original in an envelope, opened with a zone's secret key. -/
def openSealed (outer : NostrEvent) (zoneSk : String) : Except String NostrEvent :=
  if outer.kind ≠ 42 then .error s!"sealed original: expected kind 42, got {outer.kind}"
  else
    match Relay.parseSealed outer.tags with
    | none => .error "sealed original: missing or malformed sealed tag"
    | some ref =>
        if ref.version ≠ 1 then
          .error s!"sealed original: unsupported format version {ref.version}"
        else
          match channelOf outer with
          | none => .error "sealed original: no channel e-tag"
          | some outerChannel =>
              if !Relay.isHex64 outer.pubkey then .error "sealed original: decryption failed"
              else
                match crypto.decrypt zoneSk outer.pubkey outer.content with
                | none => .error "sealed original: decryption failed"
                | some text =>
                    match crypto.fromJson text with
                    | none => .error "sealed original: inner payload is not a well-formed event"
                    | some inner => checked ref outerChannel inner
where
  /-- The six checks. -/
  checked (ref : Relay.SealedRef) (outerChannel : String) (inner : NostrEvent) :
      Except String NostrEvent :=
    if inner.kind ≠ 42 then .error s!"sealed original: expected kind 42, got {inner.kind}"
    else if !crypto.verifyEvent inner then
      .error "sealed original: inner event id or signature does not verify"
    else if inner.id ≠ ref.innerId then
      .error "sealed original: inner id does not match the sealed tag"
    else if Relay.hasZkTag inner.tags then
      .error "sealed original: inner event is already zone-encrypted"
    else if channelOf inner ≠ some outerChannel then
      .error "sealed original: inner channel does not match the envelope channel"
    else if inner.createdAt ≠ outer.createdAt then
      .error "sealed original: inner created_at does not match the envelope"
    else .ok inner

variable {crypto : Crypto}

/-- What an envelope that opens has passed: it wraps a verified original. -/
structure Opened (crypto : Crypto) (outer : NostrEvent) (zoneSk : String)
    (inner : NostrEvent) : Prop where
  sealedAs : ∃ ref, Relay.parseSealed outer.tags = some ref ∧ inner.id = ref.innerId
  decrypted : ∃ text, crypto.decrypt zoneSk outer.pubkey outer.content = some text ∧
    crypto.fromJson text = some inner
  verified : crypto.verifyEvent inner
  plaintext : Relay.hasZkTag inner.tags = false
  sameChannel : channelOf inner = channelOf outer
  sameTime : inner.createdAt = outer.createdAt

theorem opened_of_openSealed
    {outer inner : NostrEvent}
    {zoneSk : String}
    (opens : crypto.openSealed outer zoneSk = .ok inner) :
    Opened crypto outer zoneSk inner := by
  unfold openSealed at opens
  split at opens
  · cases opens
  · split at opens
    · cases opens
    · rename_i ref isSealed
      split at opens
      · cases opens
      · split at opens
        · cases opens
        · rename_i outerChannel isChannel
          split at opens
          · cases opens
          · split at opens
            · cases opens
            · rename_i text decrypted
              split at opens
              · cases opens
              · rename_i parsed isInner
                unfold openSealed.checked at opens
                split at opens
                · cases opens
                · split at opens
                  · cases opens
                  · rename_i verified
                    split at opens
                    · cases opens
                    · rename_i sameId
                      split at opens
                      · cases opens
                      · rename_i plaintext
                        split at opens
                        · cases opens
                        · rename_i sameChannel
                          split at opens
                          · cases opens
                          · rename_i sameTime
                            obtain rfl := Except.ok.inj opens
                            exact
                              { sealedAs := ⟨ref, isSealed, not_not.mp sameId⟩
                                decrypted := ⟨text, decrypted, isInner⟩
                                verified := by simpa using verified
                                plaintext := by simpa using plaintext
                                sameChannel := by rw [isChannel]; exact not_not.mp sameChannel
                                sameTime := not_not.mp sameTime }

end Crypto

/-- The zone and epoch of an envelope's `zk` tag. -/
def zkOf (event : NostrEvent) : Option (String × Nat) :=
  event.tags.findSome? fun tag =>
    if 4 ≤ tag.length ∧ tag.head? = some "zk" ∧ tag.getD 1 "" ≠ "" then
      (Relay.parseUnsigned 32 (tag.getD 2 "")).map fun epoch => (tag.getD 1 "", epoch)
    else none

end ZoneMigrate
end NostrBbs
