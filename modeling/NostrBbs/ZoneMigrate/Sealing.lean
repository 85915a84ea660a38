import NostrBbs.Shared.Signing
import NostrBbs.ZoneMigrate.Envelope

/-!
# Sealing and opening

An original that is sealed opens to itself, and what opens was signed by its author and
belongs where its envelope says.  Events are signed and verified over their canonical form;
the digest, the curve, the cipher and the reader of JSON texts are taken as they come.
-/

namespace NostrBbs
namespace ZoneMigrate

open Relay (NostrEvent Tag)
open Shared (Bytes UnsignedEvent Primitives hexEncode computeEventId unsignedPart jsonString
  jsonList verifyEventStrict)

/-! ## Signing -/

/-- The digest, the curve, the cipher and the reader of JSON texts. -/
structure SealPrimitives extends Primitives where
  /-- The public key of a secret, in lower-case hexadecimal. -/
  publicKey : String → String
  signRaw : (secret : String) → (message : Bytes) → Bytes
  encrypt : (nonce secret pubkey text : String) → Except String String
  decrypt : (secret pubkey payload : String) → Option String
  /-- An event with exactly the seven standard fields. -/
  readEvent : String → Option NostrEvent

/-- The members of a JSON object, with commas between them. -/
def jsonObject (members : List (String × List Char)) : List Char :=
  ['{'] ++ [','].intercalate (members.map fun member =>
    jsonString member.1 ++ [':'] ++ member.2) ++ ['}']

/-- The seven fields of an event, in their order. -/
def eventJson (event : NostrEvent) : String :=
  String.ofList <| jsonObject
    [("id", jsonString event.id), ("pubkey", jsonString event.pubkey),
      ("created_at", (toString event.createdAt).toList), ("kind", (toString event.kind).toList),
      ("tags", jsonList (event.tags.map fun tag => jsonList (tag.map jsonString))),
      ("content", jsonString event.content), ("sig", jsonString event.sig)]

namespace SealPrimitives

variable (primitives : SealPrimitives)

/-- An event with its id and its signature; its public key must be that of the secret. -/
def signEvent (event : NostrEvent) (secret : String) : Except String NostrEvent :=
  if event.pubkey ≠ primitives.publicKey secret then
    let derived := primitives.publicKey secret
    .error s!"pubkey mismatch: event has {event.pubkey}, signing key derives {derived}"
  else
    let id := computeEventId primitives.toPrimitives (unsignedPart event)
    .ok { event with
      id := hexEncode id
      sig := hexEncode (primitives.signRaw secret id) }

/-- The cryptography that sealing and opening use. -/
def crypto : Crypto where
  verifyEvent event := (verifyEventStrict primitives.toPrimitives event).isOk
  toJson := eventJson
  fromJson := primitives.readEvent
  encrypt := primitives.encrypt
  decrypt := primitives.decrypt
  publicKey := primitives.publicKey
  onCurve pubkey := (Shared.hexDecode pubkey).any primitives.isPoint
  signEvent := primitives.signEvent
  sha256Hex text := hexEncode (primitives.sha256 (Shared.utf8 text.toList))

/-- What a key holder encrypts to a public key is decrypted with its secret; public keys are
texts of 32 bytes, and so are digests. -/
structure Sound : Prop where
  decrypts : ∀ nonce sender recipient pubkey text payload,
    Shared.toAsciiLowercase pubkey = primitives.publicKey recipient →
      primitives.encrypt nonce sender pubkey text = .ok payload →
        primitives.decrypt recipient (primitives.publicKey sender) payload = some text
  isHex : ∀ secret, Relay.isHex64 (primitives.publicKey secret) = true
  digestSize : ∀ message, (primitives.sha256 message).length = 32

variable {primitives}

theorem signEvent_spec
    {event signed : NostrEvent}
    {secret : String}
    (isSigned : primitives.signEvent event secret = .ok signed) :
    signed.pubkey = primitives.publicKey secret ∧ signed.kind = event.kind ∧
      signed.createdAt = event.createdAt ∧ signed.tags = event.tags ∧
      signed.content = event.content := by
  unfold signEvent at isSigned
  split at isSigned
  · cases isSigned
  · rename_i ownKey
    cases isSigned
    exact ⟨not_not.mp ownKey, rfl, rfl, rfl, rfl⟩

end SealPrimitives

/-! ## Ids -/

theorem eq_ok_of_isOk
    {Error Value : Type}
    {result : Except Error Value}
    (isOk : result.isOk = true) :
    ∃ value, result = .ok value := by
  cases result with
  | error _ => cases isOk
  | ok value => exact ⟨value, rfl⟩

/-- The id of a verified event is the text of its digest. -/
theorem id_of_verified
    {primitives : SealPrimitives}
    {event : NostrEvent}
    (verified : primitives.crypto.verifyEvent event = true) :
    verifyEventStrict primitives.toPrimitives event = .ok () ∧
      event.id = hexEncode (computeEventId primitives.toPrimitives (unsignedPart event)) := by
  obtain ⟨nothing, accepted⟩ := eq_ok_of_isOk verified
  exact ⟨accepted, (Shared.verifyEventStrict_eq_ok_iff.mp accepted).1⟩

theorem hexDigit_spec
    {value : Nat}
    (small : value < 16) :
    Relay.isAsciiHexdigit (Shared.hexDigit value) = true ∧
      (Shared.hexDigit value).toLower = Shared.hexDigit value := by
  have checked : (List.range 16).all (fun value =>
      Relay.isAsciiHexdigit (Shared.hexDigit value) &&
        (Shared.hexDigit value).toLower == Shared.hexDigit value) = true := rfl
  have both := List.all_eq_true.mp checked value (List.mem_range.mpr small)
  rw [Bool.and_eq_true, beq_iff_eq] at both
  exact both

theorem mem_hexEncodeChars
    {bytes : Bytes}
    {char : Char}
    (isChar : char ∈ Shared.hexEncodeChars bytes) :
    ∃ value < 16, char = Shared.hexDigit value := by
  unfold Shared.hexEncodeChars at isChar
  obtain ⟨byte, -, isDigit⟩ := List.mem_flatMap.mp isChar
  have bound := byte.toNat_lt
  rcases List.mem_cons.mp isDigit with rfl | isLow
  · exact ⟨byte.toNat / 16, by omega, rfl⟩
  · exact ⟨byte.toNat % 16, by omega, List.mem_singleton.mp isLow⟩

/-- The text of 32 bytes is a lower-case hexadecimal id. -/
theorem hexEncode_isId
    {bytes : Bytes}
    (size : bytes.length = 32) :
    Relay.isHex64 (hexEncode bytes) = true ∧
      String.ofList (Relay.asciiLower (hexEncode bytes)) = hexEncode bytes := by
  have length : ∀ bytes : Bytes, (Shared.hexEncodeChars bytes).length = 2 * bytes.length := by
    intro bytes
    unfold Shared.hexEncodeChars
    rw [List.length_flatMap]
    simp [Nat.mul_comm]
  constructor
  · unfold Relay.isHex64 hexEncode
    rw [Bool.and_eq_true, decide_eq_true_eq, String.length_ofList, length, size,
      String.toList_ofList]
    refine ⟨rfl, List.all_eq_true.mpr fun char isChar => ?_⟩
    obtain ⟨value, small, rfl⟩ := mem_hexEncodeChars isChar
    exact (hexDigit_spec small).1
  · unfold Relay.asciiLower hexEncode
    rw [String.toList_ofList]
    congr 1
    refine (List.map_congr_left fun char isChar => ?_).trans (List.map_id _)
    obtain ⟨value, small, rfl⟩ := mem_hexEncodeChars isChar
    exact (hexDigit_spec small).2

/-! ## Sealed originals -/

variable {primitives : SealPrimitives} {original envelope : NostrEvent}
  {zone zonePk migratorSk nonce : String} {epoch : Nat}

/-- What sealing an original has checked and done. -/
structure Sealed (primitives : SealPrimitives) (original : NostrEvent) (zone : String)
    (epoch : Nat) (zonePk migratorSk nonce : String) (envelope : NostrEvent) : Prop where
  kind : original.kind = 42
  verified : primitives.crypto.verifyEvent original = true
  plaintext : Relay.hasZkTag original.tags = false
  enveloped : ∃ channel content, channelOf original = some channel ∧
    primitives.encrypt nonce migratorSk zonePk (eventJson original) = .ok content ∧
    primitives.signEvent (unsignedEnvelope (primitives.publicKey migratorSk) channel original.id
      zone (String.ofList (Relay.asciiLower zonePk)) content original.createdAt epoch)
      migratorSk = .ok envelope

theorem sealed_of_sealOriginal
    (seals : primitives.crypto.sealOriginal original zone epoch zonePk migratorSk nonce =
      .ok envelope) :
    Sealed primitives original zone epoch zonePk migratorSk nonce envelope := by
  unfold Crypto.sealOriginal at seals
  split at seals
  · cases seals
  · rename_i kind
    split at seals
    · cases seals
    · rename_i verified
      split at seals
      · cases seals
      · rename_i plaintext
        split at seals
        · cases seals
        · rename_i channel isChannel
          split at seals
          · cases seals
          · split at seals
            · cases seals
            · split at seals
              · cases seals
              · split at seals
                · cases seals
                · split at seals
                  · cases seals
                  · rename_i content encrypted
                    split at seals
                    · cases seals
                    · rename_i signed isSigned
                      cases seals
                      exact
                        { kind := not_not.mp kind
                          verified := by simpa using verified
                          plaintext := by simpa using plaintext
                          enveloped := ⟨channel, content, isChannel, encrypted, isSigned⟩ }

/-- The marker of an envelope names its original. -/
theorem parseSealed_envelope
    {innerId : String}
    (isId : Relay.isHex64 innerId = true)
    (channel zone epoch zonePk : String) :
    Relay.parseSealed [["e", channel, "", "root"], ["zk", zone, epoch, zonePk],
      ["sealed", innerId, "1"]] = some ⟨String.ofList (Relay.asciiLower innerId), 1⟩ := by
  have marker : Relay.sealedRef ["sealed", innerId, "1"] =
      some ⟨String.ofList (Relay.asciiLower innerId), 1⟩ := by
    have version : Relay.parseUnsigned 32 "1" = some 1 := by decide
    unfold Relay.sealedRef
    simp [isId, version]
  unfold Relay.parseSealed
  rw [List.findSome?_cons, List.findSome?_cons, List.findSome?_cons, marker]
  simp [Relay.sealedRef]

theorem channelOf_of_tags
    {event other : NostrEvent}
    (sameTags : event.tags = other.tags) :
    channelOf event = channelOf other := by
  unfold channelOf Relay.channelTag
  rw [sameTags]

theorem channelOf_envelope
    (migrator channel innerId zone zonePk content : String)
    (createdAt epoch : Nat) :
    channelOf (unsignedEnvelope migrator channel innerId zone zonePk content createdAt epoch) =
      some channel := by
  unfold channelOf Relay.channelTag unsignedEnvelope
  simp [Relay.isValued, Relay.firstValue]

/-- An original that is sealed to a zone opens to itself with the zone's secret. -/
theorem openSealed_of_sealOriginal
    {zoneSk : String}
    (sound : primitives.Sound)
    (isZoneKey : Shared.toAsciiLowercase zonePk = primitives.publicKey zoneSk)
    (reads : primitives.readEvent (eventJson original) = some original)
    (seals : primitives.crypto.sealOriginal original zone epoch zonePk migratorSk nonce =
      .ok envelope) :
    primitives.crypto.openSealed envelope zoneSk = .ok original := by
  obtain ⟨isMessage, verified, plaintext, channel, content, isChannel, encrypted, isSigned⟩ :=
    sealed_of_sealOriginal seals
  obtain ⟨sender, kind, createdAt, tags, sameContent⟩ := SealPrimitives.signEvent_spec isSigned
  obtain ⟨-, ownId⟩ := id_of_verified verified
  obtain ⟨isId, lowerId⟩ := hexEncode_isId
    (sound.digestSize (Shared.utf8 (Shared.canonicalJson (unsignedPart original))))
  have sameId : original.id = hexEncode (primitives.sha256
      (Shared.utf8 (Shared.canonicalJson (unsignedPart original)))) := ownId
  rw [← sameId] at isId lowerId
  have marker : Relay.parseSealed envelope.tags = some ⟨original.id, 1⟩ := by
    have named := parseSealed_envelope isId channel zone (toString epoch)
      (String.ofList (Relay.asciiLower zonePk))
    rw [lowerId] at named
    rw [tags]
    exact named
  have sameChannel : channelOf envelope = some channel :=
    (channelOf_of_tags tags).trans (channelOf_envelope ..)
  have outerKind : envelope.kind = 42 := kind
  have isHex : Relay.isHex64 envelope.pubkey = true := by
    rw [sender]
    exact sound.isHex migratorSk
  have decrypted : primitives.crypto.decrypt zoneSk envelope.pubkey envelope.content =
      some (eventJson original) := by
    rw [sender, sameContent]
    exact sound.decrypts nonce migratorSk zoneSk zonePk _ _ isZoneKey encrypted
  have parsed : primitives.crypto.fromJson (eventJson original) = some original := reads
  have sameTime : original.createdAt = envelope.createdAt := createdAt.symm
  unfold Crypto.openSealed
  rw [if_neg (not_not.mpr outerKind), marker]
  dsimp only
  rw [if_neg (not_not.mpr rfl), sameChannel]
  dsimp only
  rw [isHex, Bool.not_true, if_neg Bool.false_ne_true, decrypted]
  dsimp only
  rw [parsed]
  dsimp only
  unfold Crypto.openSealed.checked
  rw [if_neg (not_not.mpr isMessage), verified, Bool.not_true, if_neg Bool.false_ne_true,
    if_neg (not_not.mpr rfl), plaintext, if_neg Bool.false_ne_true,
    if_neg (not_not.mpr isChannel), if_neg (not_not.mpr sameTime)]

/-- An event in an envelope is its author's, and belongs where the envelope says. -/
structure Genuine (primitives : SealPrimitives) (signed : Bytes → Bytes → Prop)
    (outer inner : NostrEvent) : Prop where
  verified : verifyEventStrict primitives.toPrimitives inner = .ok ()
  /-- The author's key signed the digest of these very fields. -/
  author : ∃ key, Shared.hexDecodeSized 32 inner.pubkey = some key ∧
    signed key (computeEventId primitives.toPrimitives (unsignedPart inner))
  marked : ∃ ref, Relay.parseSealed outer.tags = some ref ∧ inner.id = ref.innerId
  sameChannel : (channelOf outer).isSome ∧ channelOf inner = channelOf outer
  sameTime : inner.createdAt = outer.createdAt

theorem genuine_of_openSealed
    {signed : Bytes → Bytes → Prop}
    {outer inner : NostrEvent}
    {zoneSk : String}
    (unforgeable : primitives.Unforgeable signed)
    (opens : primitives.crypto.openSealed outer zoneSk = .ok inner) :
    Genuine primitives signed outer inner := by
  have opened := Crypto.opened_of_openSealed opens
  obtain ⟨verified, -⟩ := id_of_verified opened.verified
  obtain ⟨-, key, signature, isKey, -, -, -, verifies⟩ :=
    Shared.verifyEventStrict_eq_ok_iff.mp verified
  have hasChannel : (channelOf outer).isSome := by
    cases isChannel : channelOf outer with
    | some channel => rfl
    | none =>
        unfold Crypto.openSealed at opens
        rw [isChannel] at opens
        split at opens
        · cases opens
        · split at opens
          · cases opens
          · split at opens
            · cases opens
            · cases opens
  exact
    { verified
      author := ⟨key, isKey, unforgeable key _ signature verifies⟩
      marked := opened.sealedAs
      sameChannel := ⟨hasChannel, opened.sameChannel⟩
      sameTime := opened.sameTime }

/-- Every original that is sealed to a zone opens to itself; and every event that an envelope
opens to was signed by its own author and has the id, the channel and the time that the
envelope's marker, tags and time say. -/
theorem sealed_channel_faithful
    {signed : Bytes → Bytes → Prop}
    (sound : primitives.Sound)
    (unforgeable : primitives.Unforgeable signed) :
    (∀ original envelope zone epoch zonePk migratorSk nonce zoneSk,
      Shared.toAsciiLowercase zonePk = primitives.publicKey zoneSk →
      primitives.readEvent (eventJson original) = some original →
      primitives.crypto.sealOriginal original zone epoch zonePk migratorSk nonce =
        .ok envelope →
      primitives.crypto.openSealed envelope zoneSk = .ok original) ∧
    ∀ outer inner zoneSk, primitives.crypto.openSealed outer zoneSk = .ok inner →
      Genuine primitives signed outer inner :=
  ⟨fun _ _ _ _ _ _ _ _ isZoneKey reads seals => openSealed_of_sealOriginal sound isZoneKey reads seals,
    fun _ _ _ opens => genuine_of_openSealed unforgeable opens⟩

/-! ## An envelope -/

/-- The texts of two keys. -/
def keyText (secret : String) : String :=
  String.ofList (List.replicate 64 (if secret = "zone" then '0' else '1'))

/-- A draft of a message in a channel. -/
def draft : NostrEvent where
  id := ""
  pubkey := keyText "author"
  createdAt := 1700000000
  kind := 42
  tags := [["e", "channel", "", "root"]]
  content := "hello from before encryption"
  sig := ""

/-- Digests cut to their size, and signatures that hold what they sign. -/
def plainPrimitives (reads : String → Option NostrEvent) : SealPrimitives where
  sha256 message := (message ++ List.replicate 32 0).take 32
  isPoint _ := true
  isSignature _ := true
  verifyRaw key message signature := signature == key ++ message
  publicKey := keyText
  signRaw secret message := (Shared.hexDecode (keyText secret)).getD [] ++ message
  encrypt _ _ pubkey text := .ok (Shared.toAsciiLowercase pubkey ++ text)
  decrypt secret _ payload := Shared.stripPrefix (keyText secret) payload
  readEvent := reads

theorem plainPrimitives_sound
    (reads : String → Option NostrEvent) :
    (plainPrimitives reads).Sound where
  decrypts := by
    intro nonce sender recipient pubkey text payload isKey encrypted
    cases encrypted
    refine Shared.stripPrefix_eq_some_iff.mpr ?_
    rw [isKey]
    rfl
  isHex := by
    intro secret
    unfold plainPrimitives keyText
    dsimp only
    split
    · decide
    · decide
  digestSize := by
    intro message
    unfold plainPrimitives
    dsimp only
    rw [List.length_take, List.length_append, List.length_replicate]
    omega

/-- The signed message. -/
def message : NostrEvent :=
  { draft with
    id := hexEncode (computeEventId (plainPrimitives fun _ => none).toPrimitives
      (unsignedPart draft))
    sig := hexEncode ((plainPrimitives fun _ => none).signRaw "author"
      (computeEventId (plainPrimitives fun _ => none).toPrimitives (unsignedPart draft))) }

/-- The reader of the message's text. -/
def readMessage (text : String) : Option NostrEvent :=
  if text = eventJson message then some message else none

theorem readMessage_of_eq
    {text : String}
    (isText : text = eventJson message) :
    readMessage text = some message := by
  unfold readMessage
  exact if_pos isText

theorem readEvent_plain
    {reads : String → Option NostrEvent}
    {found : Option NostrEvent}
    (text : String)
    (isFound : reads text = found) :
    (plainPrimitives reads).readEvent text = found :=
  isFound

/-- The message is sealed by an administrator and opens to itself. -/
theorem sealed_channel_faithful_message :
    ∃ envelope, (plainPrimitives readMessage).crypto.sealOriginal message "zone" 1
        (keyText "zone") "admin" "" = .ok envelope ∧
      (plainPrimitives readMessage).crypto.openSealed envelope "zone" = .ok message := by
  have seals : ((plainPrimitives readMessage).crypto.sealOriginal message "zone" 1
      (keyText "zone") "admin" "").isOk = true := by decide +kernel
  have unforgeable : (plainPrimitives readMessage).Unforgeable fun key digest =>
      ∃ signature, (plainPrimitives readMessage).verifyRaw key digest signature = true :=
    fun _ _ signature verifies => ⟨signature, verifies⟩
  have isZoneKey : Shared.toAsciiLowercase (keyText "zone") =
      (plainPrimitives readMessage).publicKey "zone" := by decide +kernel
  have reads : (plainPrimitives readMessage).readEvent (eventJson message) = some message :=
    readEvent_plain _ (readMessage_of_eq rfl)
  obtain ⟨envelope, result⟩ := eq_ok_of_isOk seals
  exact ⟨envelope, result, (sealed_channel_faithful (plainPrimitives_sound readMessage)
    unforgeable).1 message envelope "zone" 1 (keyText "zone") "admin" "" "zone" isZoneKey reads
      result⟩

end ZoneMigrate
end NostrBbs
