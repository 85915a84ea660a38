import NostrBbs.Lib.Fallible
import NostrBbs.Mesh.Transport

/-!
# Attribution

An envelope that is decoded is from the signer of its seal or from a delegator of that
signer.  Of the bounds that a token repeats only the last is checked.
-/

namespace NostrBbs
namespace Mesh

open Shared
open Relay (NostrEvent)

/-! ## What is claimed, and when it holds -/

section Claim

variable (layers : Layers) (signed : Bytes → Bytes → Prop)

/-- A key signed the seal, and its text is the author of the rumor. -/
structure SealedBy (unwrapped : UnwrappedGift) (key : Bytes) : Prop where
  isKey : hexDecodeSized 32 unwrapped.seal.pubkey = some key
  isSigner : signed key (recomputeEventId layers.toPrimitives unwrapped.seal)
  isAuthor : unwrapped.rumor.pubkey = unwrapped.seal.pubkey

/-- A delegator signed a token for a key, and its conditions hold of the rumor. -/
structure DelegatedBy (token : DelegationToken) (rumor : UnsignedEvent) (key delegator : Bytes) :
    Prop where
  isDelegator : token.delegatorHex = hexEncode delegator
  isSigner : signed delegator (token.signingMessage layers.toPrimitives (hexEncode key))
  hold : ConditionsHold token.conditions rumor.kind rumor.createdAt

/-- The origin of an envelope is the signer of the seal or a delegator of that signer. -/
def Authentic (wrap : NostrEvent) (recipientSk : Bytes) (envelope : Envelope) : Prop :=
  ∃ unwrapped key, unwrapGift layers wrap recipientSk = .ok unwrapped ∧
    SealedBy layers signed unwrapped key ∧
    (envelope.from = didNostrPrefix ++ hexEncode key ∨
      ∃ token delegator, envelope.delegation = some token ∧
        envelope.from = didNostrPrefix ++ hexEncode delegator ∧
        DelegatedBy layers signed token unwrapped.rumor key delegator)

/-- The bounds that later ones replace in a token of another key are met. -/
def ReplacedBoundsMet (received : ReceivedEnvelope) : Prop :=
  ∀ token ∈ received.envelope.delegation,
    token.delegatorHex ≠ toAsciiLowercase received.sealPubkey →
      ∀ read, readClauses token.conditions = .ok read →
        ∀ clause ∈ replacedBounds read, clause.Admits received.rumorCreatedAt

end Claim

/-! ## What each layer establishes -/

section Layers

variable {layers : Layers} {signed : Bytes → Bytes → Prop}

theorem hexEncode_of_hexDecodeSized
    {size : Nat}
    {text : String}
    {bytes : Bytes}
    (decoded : hexDecodeSized size text = some bytes) :
    hexEncode bytes = toAsciiLowercase text :=
  hexEncode_of_hexDecode (Option.filter_eq_some_iff.mp decoded).1

/-- A seal that verifies was signed by its key. -/
theorem sealedBy_of_unwrapGift
    (sound : layers.Unforgeable signed)
    {wrap : NostrEvent}
    {recipientSk : Bytes}
    {unwrapped : UnwrappedGift}
    (opens : unwrapGift layers wrap recipientSk = .ok unwrapped) :
    ∃ key, SealedBy layers signed unwrapped key := by
  obtain ⟨-, opensSeal, -⟩ := unwrapGift_eq_ok_iff.mp opens
  obtain ⟨verified, -, -, -, -, -, -, isAuthor⟩ := openSeal_eq_ok_iff.mp opensSeal
  obtain ⟨-, key, signature, isKey, -, -, -, verifies⟩ := verifyEventStrict_eq_ok_iff.mp verified
  exact ⟨key, isKey, sound _ _ _ verifies, isAuthor⟩

theorem signingMessage_toAsciiLowercase
    (token : DelegationToken)
    (delegateeHex : String) :
    token.signingMessage layers.toPrimitives (toAsciiLowercase delegateeHex) =
      token.signingMessage layers.toPrimitives delegateeHex := by
  unfold DelegationToken.signingMessage
  rw [toAsciiLowercase_idem]

/-- A token that verifies was signed by its delegator. -/
theorem signed_of_verify
    (sound : layers.Unforgeable signed)
    {token : DelegationToken}
    {delegateeHex : String}
    {conditions : Conditions}
    (verified : token.verify layers.toPrimitives delegateeHex = .ok conditions) :
    ∃ delegator, hexEncode delegator = token.delegatorHex ∧
      signed delegator (token.signingMessage layers.toPrimitives delegateeHex) := by
  obtain ⟨-, -, key, signature, isKey, -, -, -, -, verifies⟩ :=
    DelegationToken.verify_eq_ok_iff.mp verified
  refine ⟨key, ?_, sound _ _ _ verifies⟩
  rw [hexEncode_of_hexDecodeSized isKey]
  exact toAsciiLowercase_idem _

/-- A token that passes for an event: its conditions hold when the bounds that are
replaced in them are met. -/
theorem conditionsHold_of_verifyForEvent
    (sound : layers.Unforgeable signed)
    {token : DelegationToken}
    {delegateeHex : String}
    {kind createdAt : Nat}
    (verified : token.verifyForEvent layers.toPrimitives delegateeHex kind createdAt = .ok ()) :
    (∃ delegator, hexEncode delegator = token.delegatorHex ∧
        signed delegator (token.signingMessage layers.toPrimitives delegateeHex)) ∧
      ∃ read, readClauses token.conditions = .ok read ∧
        (ConditionsHold token.conditions kind createdAt ↔
          ∀ clause ∈ replacedBounds read, clause.Admits createdAt) := by
  obtain ⟨conditions, isVerified, checked⟩ := Lib.bind_eq_ok_iff.mp verified
  have isSigned := signed_of_verify sound isVerified
  obtain ⟨-, parsed, -⟩ := DelegationToken.verify_eq_ok_iff.mp isVerified
  obtain ⟨read, isRead, rfl, -⟩ := Conditions.parse_eq_ok_iff.mp parsed
  refine ⟨isSigned, read, isRead, ?_⟩
  rw [← holds_iff_of_check checked]
  constructor
  · rintro ⟨other, isOther, holds⟩
    rw [isRead] at isOther
    cases isOther
    exact holds
  · exact fun holds => ⟨read, isRead, holds⟩

/-- What was checked of a wrap that is decoded. -/
theorem decodeIncomingWrap_ok
    {wrap : NostrEvent}
    {recipientSk : Bytes}
    {opts : ReceiveOptions}
    {received : ReceivedEnvelope}
    (accepted : decodeIncomingWrap layers wrap recipientSk opts = .ok received) :
    ∃ unwrapped fromHex, unwrapGift layers wrap recipientSk = .ok unwrapped ∧
      fromJcsStr layers unwrapped.rumor.content = .ok received.envelope ∧
      didToHex received.envelope.from = .ok fromHex ∧
      checkAttribution layers received.envelope fromHex unwrapped.seal.pubkey unwrapped.rumor =
        .ok () ∧
      received.sealPubkey = unwrapped.seal.pubkey ∧
      received.rumorCreatedAt = unwrapped.rumor.createdAt := by
  obtain ⟨unwrapped, opens, rest⟩ := Lib.bind_eq_ok_iff.mp accepted
  obtain ⟨envelope, isEnvelope, rest⟩ := Lib.bind_eq_ok_iff.mp rest
  obtain ⟨_, -, rest⟩ := Lib.bind_eq_ok_iff.mp rest
  obtain ⟨fromHex, isFrom, rest⟩ := Lib.bind_eq_ok_iff.mp rest
  obtain ⟨_, attributed, isReceived⟩ := Lib.bind_eq_ok_iff.mp rest
  cases isReceived
  rw [Lib.mapError_eq_ok_iff] at opens isEnvelope isFrom
  have sender := (unwrapGift_eq_ok_iff.mp opens).2.2
  rw [sender] at attributed
  exact ⟨unwrapped, fromHex, opens, isEnvelope, Lib.mapError_eq_ok_iff.mp isFrom, attributed,
    sender, rfl⟩

end Layers

/-! ## Decoded envelopes -/

theorem didNostrPrefix_inj
    {first second : String}
    (same : didNostrPrefix ++ first = didNostrPrefix ++ second) :
    first = second := by
  rw [← String.toList_inj, String.toList_append, String.toList_append] at same
  exact String.toList_inj.mp (List.append_cancel_left same)

/-- An envelope that is accepted is authentic exactly when its token, if it is one of
another key, repeats no bound that the rumor breaks. -/
theorem authentic_iff_replacedBoundsMet
    {layers : Layers}
    {signed : Bytes → Bytes → Prop}
    (sound : layers.Unforgeable signed)
    {wrap : NostrEvent}
    {recipientSk : Bytes}
    {opts : ReceiveOptions}
    {received : ReceivedEnvelope}
    (accepted : decodeIncomingWrap layers wrap recipientSk opts = .ok received) :
    Authentic layers signed wrap recipientSk received.envelope ↔ ReplacedBoundsMet received := by
  obtain ⟨unwrapped, fromHex, opens, -, isFrom, attributed, isSeal, isTime⟩ :=
    decodeIncomingWrap_ok accepted
  obtain ⟨key, sealedBy⟩ := sealedBy_of_unwrapGift sound opens
  obtain ⟨fromDid, isLower⟩ := didToHex_ok isFrom
  have keyHex : hexEncode key = toAsciiLowercase unwrapped.seal.pubkey :=
    hexEncode_of_hexDecodeSized sealedBy.isKey
  unfold checkAttribution at attributed
  cases delegation : received.envelope.delegation with
  | none =>
      rw [delegation] at attributed
      dsimp only at attributed
      split at attributed
      · cases attributed
      · rename_i isSigner
        rw [ne_eq, not_not] at isSigner
        refine iff_of_true ⟨unwrapped, key, opens, sealedBy, Or.inl ?_⟩ ?_
        · rw [fromDid, keyHex, ← isSigner, isLower]
        · intro token isToken
          rw [delegation] at isToken
          cases isToken
  | some token =>
      rw [delegation] at attributed
      obtain ⟨_, verified, matched⟩ := Lib.bind_eq_ok_iff.mp attributed
      rw [Lib.mapError_eq_ok_iff] at verified
      obtain ⟨⟨delegator, delegatorHex, isSigned⟩, read, isRead, holdIff⟩ :=
        conditionsHold_of_verifyForEvent sound verified
      have isOrigin : token.delegatorHex = fromHex := by
        split at matched
        · cases matched
        · rename_i same
          exact not_not.mp same
      rw [← isOrigin] at fromDid
      by_cases isSelf : token.delegatorHex = toAsciiLowercase unwrapped.seal.pubkey
      · refine iff_of_true ⟨unwrapped, key, opens, sealedBy, Or.inl ?_⟩ ?_
        · rw [fromDid, keyHex, isSelf]
        · intro other isOther notSelf
          rw [delegation] at isOther
          cases isOther
          rw [isSeal] at notSelf
          exact absurd isSelf notSelf
      · constructor
        · rintro ⟨again, otherKey, opensAgain, otherSealed, isFromEither⟩
          rw [opens] at opensAgain
          cases opensAgain
          have sameKey := sealedBy.isKey.symm.trans otherSealed.isKey
          cases sameKey
          intro other isOther _ otherRead isOtherRead
          rw [delegation] at isOther
          cases isOther
          rw [isRead] at isOtherRead
          cases isOtherRead
          rcases isFromEither with fromSigner | ⟨same, _, isSame, -, delegated⟩
          · rw [fromDid] at fromSigner
            exact absurd ((didNostrPrefix_inj fromSigner).trans keyHex) isSelf
          · rw [delegation] at isSame
            cases isSame
            rw [isTime]
            exact holdIff.mp delegated.hold
        · intro met
          refine ⟨unwrapped, key, opens, sealedBy, Or.inr ⟨token, delegator, delegation, ?_, ?_⟩⟩
          · rw [fromDid, delegatorHex]
          · refine ⟨delegatorHex.symm, ?_, ?_⟩
            · rw [keyHex, signingMessage_toAsciiLowercase]
              exact isSigned
            · have bounds := met token delegation (by rwa [isSeal]) read isRead
              rw [isTime] at bounds
              exact holdIff.mpr bounds

/-! ## A repeated bound -/

/-- The forms of a signed event, for its readers. -/
def eventJson (event : NostrEvent) : String :=
  "\x7b\"id\":" ++ String.ofList (jsonString event.id) ++ ",\"pubkey\":" ++
    String.ofList (jsonString event.pubkey) ++ ",\"created_at\":" ++ toString event.createdAt ++
    ",\"kind\":" ++ toString event.kind ++ ",\"tags\":" ++
    String.ofList (jsonList (event.tags.map fun tag => jsonList (tag.map jsonString))) ++
    ",\"content\":" ++ String.ofList (jsonString event.content) ++ ",\"sig\":" ++
    String.ofList (jsonString event.sig) ++ "\x7d"

/-- The bytes of a hexadecimal text. -/
def bytes (hex : String) : Bytes :=
  (hexDecode hex).getD []

theorem hexDecode_ofList
    (chars : List Char) :
    hexDecode (String.ofList chars) = hexDecodeChars chars := by
  rw [hexDecode, String.toList_ofList]

theorem hexDecode_bytes
    {chars : List Char}
    (decodes : (hexDecodeChars chars).isSome = true) :
    hexDecode (String.ofList chars) = some (bytes (String.ofList chars)) := by
  obtain ⟨decoded, isDecoded⟩ := Option.isSome_iff_exists.mp decodes
  rw [bytes, hexDecode_ofList, isDecoded, Option.getD_some]

theorem hexDecodeSized_bytes
    {size : Nat}
    {chars : List Char}
    (decodes : (hexDecodeChars chars).map List.length = some size) :
    hexDecodeSized size (String.ofList chars) = some (bytes (String.ofList chars)) := by
  obtain ⟨decoded, isDecoded, isSized⟩ := Option.map_eq_some_iff.mp decodes
  have decodesTo := hexDecode_bytes (by rw [isDecoded, Option.isSome_some])
  rw [hexDecodeSized, decodesTo, bytes, hexDecode_ofList, isDecoded]
  exact Option.filter_eq_some_iff.mpr ⟨rfl, decide_eq_true isSized⟩

theorem hexDecodeSized_append
    {size : Nat}
    {first second : List Char}
    (decodes : (hexDecodeChars (first ++ second)).map List.length = some size) :
    hexDecodeSized size (String.ofList first ++ String.ofList second) =
      some (bytes (String.ofList first ++ String.ofList second)) := by
  rw [← String.ofList_append]
  exact hexDecodeSized_bytes decodes

theorem hexEncode_bytes
    {chars : List Char}
    (decodes : (hexDecodeChars chars).isSome = true)
    (isLower : chars.map Char.toLower = chars) :
    String.ofList chars = hexEncode (bytes (String.ofList chars)) := by
  obtain ⟨decoded, isDecoded⟩ := Option.isSome_iff_exists.mp decodes
  rw [bytes, hexDecode_ofList, isDecoded, Option.getD_some, hexEncode,
    hexEncodeChars_of_hexDecodeChars isDecoded, isLower]

/-- What is signed for a token is no event's canonical form. -/
theorem tokenMessage_ne
    (delegatee conditions : String)
    (event : UnsignedEvent) :
    utf8 ("nostr:delegation:" ++ delegatee ++ ":" ++ conditions).toList ≠
      utf8 (canonicalJson event) := by
  intro same
  have heads := congrArg List.head? same
  rw [String.append_assoc, String.append_assoc, String.toList_append, String.toList_ofList] at heads
  simp [utf8, canonicalJson, jsonList, String.utf8EncodeChar] at heads

theorem isHex_ofList
    {chars : List Char}
    (notEmpty : chars ≠ [])
    (areDigits : chars.all Relay.isAsciiHexdigit = true) :
    isHex (String.ofList chars) = true := by
  have isText : String.ofList chars ≠ "" := fun same =>
    notEmpty (by rw [← String.toList_ofList (l := chars), same]; rfl)
  rw [isHex, String.toList_ofList, areDigits, Bool.and_true]
  exact decide_eq_true isText

theorem delegatorHex_ofList
    {chars : List Char}
    (isBare : chars.head? ≠ some 'd')
    (isLower : chars.map Char.toLower = chars)
    (conditions sig : String) :
    DelegationToken.delegatorHex ⟨String.ofList chars, conditions, sig⟩ =
      String.ofList chars := by
  have stripped : stripPrefix "did:nostr:" (String.ofList chars) = none := by
    rw [Option.eq_none_iff_forall_ne_some]
    intro rest isRest
    have isText := congrArg String.toList (stripPrefix_eq_some_iff.mp isRest)
    rw [String.toList_ofList, String.toList_append] at isText
    exact isBare (by rw [isText]; rfl)
  rw [DelegationToken.delegatorHex, stripped, Option.getD_none, toAsciiLowercase, Relay.asciiLower,
    String.toList_ofList, isLower]

theorem didToHex_ofList
    {chars : List Char}
    (isSized : (String.ofList chars).utf8ByteSize = 64)
    (areDigits : chars.all isLowercaseHexDigit = true) :
    didToHex (didNostrPrefix ++ String.ofList chars) = .ok (String.ofList chars) := by
  have stripped := stripPrefix_eq_some_iff.mpr (rfl : didNostrPrefix ++ String.ofList chars = _)
  rw [didToHex, stripped]
  dsimp only
  rw [if_neg (not_not.mpr isSized), String.toList_ofList, areDigits]
  rfl

namespace Exchange

/-- The secret key of the recipient. -/
def recipientSk : Bytes :=
  List.replicate 31 0 ++ [11]

def recipient : String :=
  "774ae7f858a9411e5ef4246b70c65aac5649980be5c17891bbec17895da008cb"

def signer : String :=
  "f28773c2d975288bc7d1d205c3748651b075fbc6610e58cddeeddf8f19405aa8"

/-- The token is for times before 100 and before 200. -/
def token : DelegationToken where
  delegator := "499fdf9e895e719cfd64e67f07d38e3226aa7b63678949e6e49b241a60e823e4"
  conditions := "created_at<100&created_at<200"
  sig :=
    "e3f16ca48b912e03ad6103a18b872f05d0278aae4ed1d870ba7eeaf49b035d25ebfb332420a30b92ad59ec13" ++
      "5ceccf84742252642add6b6677ef6c98d29ee95b"

def envelope : Envelope where
  v := 1
  to' := didNostrPrefix ++ recipient
  «from» := didNostrPrefix ++ token.delegator
  via := []
  ttl := none
  kind := .chat
  body := .string "hi"
  delegation := some token

def rumor : UnsignedEvent where
  pubkey := signer
  createdAt := 150
  kind := 14
  tags := []
  content :=
    "\x7b\"body\":\"hi\",\"delegation\":\x7b\"conditions\":\"" ++ token.conditions ++
      "\",\"delegator\":\"" ++ token.delegator ++ "\",\"sig\":\"" ++ token.sig ++
      "\"\x7d,\"from\":\"did:nostr:" ++ token.delegator ++
      "\",\"kind\":\"chat\",\"to\":\"did:nostr:" ++ recipient ++ "\",\"v\":1\x7d"

def rumorJson : String :=
  "\x7b\"content\":" ++ String.ofList (jsonString rumor.content) ++
    ",\"created_at\":150,\"id\":\"" ++
    "1e2bd1ba6d892e3529347894d051122da06d6e15d331187d461ff08789c2d3ac" ++
    "\",\"kind\":14,\"pubkey\":\"" ++ signer ++ "\",\"tags\":[]\x7d"

def sealEvent : NostrEvent where
  id := "e63cd740afe771cace9cfff26400f41bae286d78be5bb39142a1f08c03ffdc98"
  pubkey := signer
  createdAt := 150
  kind := 13
  tags := []
  content :=
    "Ah45tI/UA9jJ2sYyoBVmC0AFcaGsNS+OL78VKcNDrDIO+Ths1SUYWxn3CY5lcGpGgam7dtAEHB+piB/7xP7FwECh" ++
      "h1xJUameRVR/wOOkKQAl4gw6jm6dHtVpfz3JZmYhwe+cGdpxVxMKzhcHwP4osIBQ6CySWKPxMxLyIpALJBu5LGng" ++
      "BKUrzmyVhKNeqf8GgCuMmzdQ7ND8V8q3yUQva1abMD42RXiFP6zk6NbGh2vhyZCZpXtNc1PDisAdjNFcmRO59cMi" ++
      "EKQs+qn4ArjmeJoTuu6w3QHMh0h3eAL50Ycacv0z382eYbdKn0eac/dpG3gsDyVwj936gH8zTudTfhcKj07R5Tbl" ++
      "B6/G1q77EpYl3p7I0/S6vu4D+xc6g29oDMokCslCm6TbbZ1+nRFx37UMaS43rSB9NCubFcT7owvBjWVMPbRyNnah" ++
      "qq87qrDvLsMG3e0r4fZgOKI111LAULyrUyg2ZBYbxeivNqFSfgTl6xCzaUdl79Hdoor/tD2k9EYiBc/ig3+rvmc8" ++
      "ik7qfiINkw7F9rWCVVeKV6938vESFapyg40GfUDL3aByD6cWJ1RqGuRg9mfiu3dsh4D4xfRnkOraKfGSjQc0NEGF" ++
      "43iMQA0LX75zXVW1IT3il3ozKKK+G4xZLbHWcR0Wwxueahg0X84NDt5GsPmsnGXmo7v2sinrOyLj9ZNpRxw8YpRY" ++
      "cBxX0AxjzDB3WHxAWt3n51U1rhm+dUoX1xZNr0vIqvCyZy79xTnN2441SKnL6TF1/SU3TxP7BUSSIHEXSSotP+k5" ++
      "1jqc9oHsMFQ0yxoehxhGhnZscdKx2+F9FOTfWf1OwC3XO0yWh1d5OfuZNCTldmD3W+ieUp1XxKijawl6EKqYjCtR" ++
      "BDtx0rTvhU6py77UyKfV+irbLmnFWndq4Qex110C1uKZTeD1YvAF+s9Lrg7K1GLtd4Hnw+dWwSFU3+VJE28Jc+mt" ++
      "XvwcahtEhDhgicCIk9GeePWINQCPYW7wpbtO++diVINkdbaCrYQHkcMJYWT9VFr+Wvu+CO8DZbOYkXmIHTZUW1+p" ++
      "hofUgabLUjaQM/WIeXiTzXCgN1002FMzWvfdwC1DMp7F6PQ/uzObIv92KQ=="
  sig :=
    "facdb06f1fe21cc40802ac9bc69b5ee7d8fbfef226ea00f10c2eea1f68afe2641be16d37e44aabde3fa8eb12" ++
      "998afc083496d6ddb4c71d57c63e15b5eb9bd234"

def wrap : NostrEvent where
  id := "b09f0ce4e86677b583251788d9c811a078907b84896a1e42d32ba7c96217c16f"
  pubkey := "d01115d548e7561b15c38f004d734633687cf4419620095bc5b0f47070afe85a"
  createdAt := 150
  kind := 1059
  tags := [["p", recipient]]
  content :=
    "AiVxgA+9C9dxiaBwPnIoztL84NQSuHX8vIPMdv9FK8p6qWVJLn0euWg8WZmciWEWMalPdI1Jh2Tuxoo+Rel8UOt+" ++
      "/Klqmw647/2tlfFKYhhR34LfnWD3BWxlw/PKu3EAk9lzhoBtGOLPM8OC5gUkj/iWXnvQdNXe/0vd9ItenSrJrAq2" ++
      "kgi1+eZK92qPZhcaDadqGdnyc9p3Wwj73uiNYDok9qjJpaUAY9AG6zIraezrHin9PfhPkEu/Rq6JCC5UWZh8lmio" ++
      "bfNwevnviEpxStxWpSbWTLMGj4dGucP8yBVk4SOgd7YanrU1s6Ke6KcAtZIFYE/YRHXf1oSe+jeF9quwhM+O9KfX" ++
      "cedDROTCJ055vATyBDDTY3xPYFgYqS7EHZTpEqnwD33iCKgno2v7e5/oB8nThQbUdudV2OwTi35J1OaSB6ZCJryT" ++
      "BAAfhff5RjRZqQegeOx5ZL8O8HeyecgqyRGubaqhhjgrft7O6CPrO4tMK3qcX2GsShMkGnD7v9qmNIlLF2m1GzA/" ++
      "2jjBIvlQGozpyEaYpUjL1te3Xqjby7OuZdkfRtZvpAp7YY2QaOJtDfz1O3GeWKf+VZlia400igPpAqHSQ/TkNZbU" ++
      "FE3sxvjCfstODkhZykyjhNAAUvCWj2vzNR7VK0Rcad/+1+QoleIbaQvr+mCzyLVChFcB15XWTc84REw9BhTF6Rf7" ++
      "er3j8wqg8iwqXiiS0kbI8zRtOqk4n4R/HqwagoqyWDix2VxiAp8M1iewdCCTVC73JhK9l1XPNIrymBlVloDslaLS" ++
      "HhsmKgKol5UOk2UOslcGjRhKKd5BsYQU+MDtaYFQ7EtrYIfeNx3affBF6WpNaebcP8UykigRkbPcLKipgtKFHXAM" ++
      "PEQj3aVArhb7DQLjA9ef7PMsXO60SOK37RFCI6gi5oR9SVdDP1z3IUCHjeK7klcFZUvozyGThkz2s8otZuTsLLbq" ++
      "YZx3SCrcJ6T+elNM4En4u8BGROuitqNZoJoZw4RtTnINaooBIjXd00Yf311HaFdUBNpXPc1+w5YD9dymOjxrcsm9" ++
      "pmA1r/xrI5JONqyeVwMwXiwwEWMp7VMV634SADoJ+LSFeNU7VtT/i9dckOz/kliR0Usq/gjJhEmEuJ3QhfercdCB" ++
      "NYGJ4MpMOlY7LG+0WAO2qRKU1Z/nd32c1ItcZxDTMtvYo+GPvLjjF/eB1KQ3I9pQ5sR9AVudx99mQHsBPetDZo1G" ++
      "mK+lHWqavOT0IvBTtMnc23iFIhqfEWBG6VBIcdfPKda+RxfyW6QQQ+ewXIRSGoeABSWq11iN3Dff+6Vvd7gZ53xN" ++
      "UgB34UjGD10hRH6oiVkBavDixAFbAbenYfZjCwJtrVkkbjfkxBgkONZcze3x63APZ8Pd1F2aGBHTL1pzhsSfFtN8" ++
      "DUBDbGd4eyNcS6fAu/FfDB5z6l/HkpgiWY4OZAlYojHlERGK+f5QloCtAor0pP/OAcKys2VCx2Xw5nrovmBN88gh" ++
      "p82JEuZydtud0AwRXjsQXAV1OPyQ03kcnQwRN6XHSRAxgwjVXaLseqfw8Ku0L2/wkYLZ8kJWJE5exk22AKn8fWjY" ++
      "x8+h8N9g20fhiBfR4Y5KydHwgmdh/InSfKEKHT4d/JmVbc4u3Aw3uhGjSsaFdEe06CahhrkeD/ZSymRFFN68LjUm" ++
      "5Eoestymby/dyAWM+JtxJoYWbWA0tyskASI8qQv29LoYcZttyat4oHplg9xByEP/ezwMYL8Eh/Pe5INfpdlAswFV" ++
      "8cl5IgG+kh2JHJ7C6lQKXNTipV6fQ2FPcjpqEVI48ajEsbnVKUTX5Cwe7DuzvfxMcdPJ8VzGKa9/NBaAyOd4ehrc" ++
      "qcYroRPGKmqP77oABv/+MejK+w1Izt4rwL8a3nodvc7/TZ/17/XPrIa1XyJvXq7Pi9KFDZAV2nQj40rZa6ErLJhi" ++
      "QJHrFi9W86SLENTUq7fI4Tbd6m6hHBouAsegdbWL4wST7caRkyHcVhvUT7Qy8e3rOEyPn0qjBLYbpACN/Zb+0bfU" ++
      "TADn4+ZJgc5p1NVDlSKtFX8cdDW/1z9JIpDZZM40Gic7xmWbb3EZ8JIkldzD7cFlz+NJlAua+Ih2lSuQzCL3iqda" ++
      "TvlYeiJA+hBuQntCy26Xacr6Dg=="
  sig :=
    "6f7b73cfafd65c90ade38b10ecf748217acf872bb24a46a4c4f1b74bbd5c61135dcf6f4b509e52f13219dac4" ++
      "9e97147c3592dec0b9fdeb86a6a37d74926170c5"

/-- The digest that the delegator signed. -/
def tokenDigest : Bytes :=
  bytes "52ec046c96fc95878b1d24b7c18ce91f97bc0018ab3ef2fa9b510894a3659b38"

/-- What the libraries answer for this exchange. -/
def layers : Layers where
  sha256 message :=
    if message = utf8 (canonicalJson (unsignedPart wrap)) then bytes wrap.id
    else if message = utf8 (canonicalJson (unsignedPart sealEvent)) then bytes sealEvent.id
    else if message = utf8 ("nostr:delegation:" ++ toAsciiLowercase signer ++ ":" ++
        token.conditions).toList then
      tokenDigest
    else []
  isPoint key := key ∈ [bytes wrap.pubkey, bytes signer, bytes token.delegator]
  isSignature signature := signature ∈ [bytes wrap.sig, bytes sealEvent.sig, bytes token.sig]
  verifyRaw key message signature :=
    (key, message, signature) ∈
      [(bytes wrap.pubkey, bytes wrap.id, bytes wrap.sig),
        (bytes signer, bytes sealEvent.id, bytes sealEvent.sig),
        (bytes token.delegator, tokenDigest, bytes token.sig)]
  decrypt secret key content :=
    if (secret, key, content) = (recipientSk, bytes wrap.pubkey, wrap.content) then
      some (eventJson sealEvent)
    else if (secret, key, content) = (recipientSk, bytes signer, sealEvent.content) then
      some rumorJson
    else none
  parseEvent text := if text = eventJson sealEvent then some sealEvent else none
  parseUnsignedRumor text := if text = rumorJson then some rumor else none
  parseEnvelope text := if text = rumor.content then .ok envelope else .error "expected value"

/-- A key signed what a signature verifies for. -/
def Signed (key message : Bytes) : Prop :=
  ∃ signature, layers.verifyRaw key message signature = true

theorem sound : layers.Unforgeable Signed :=
  fun _ _ signature verifies => ⟨signature, verifies⟩

theorem keys_decode :
    hexDecodeSized 32 wrap.pubkey = some (bytes wrap.pubkey) ∧
      hexDecodeSized 32 signer = some (bytes signer) ∧
      hexDecodeSized 32 token.delegator = some (bytes token.delegator) ∧
      signer = hexEncode (bytes signer) ∧ bytes signer ≠ bytes wrap.pubkey := by
  have signerEncoded : signer = hexEncode (bytes signer) :=
    hexEncode_bytes (by decide +kernel) (by decide +kernel)
  have wrapEncoded : wrap.pubkey = hexEncode (bytes wrap.pubkey) :=
    hexEncode_bytes (by decide +kernel) (by decide +kernel)
  refine ⟨hexDecodeSized_bytes (by decide +kernel), hexDecodeSized_bytes (by decide +kernel),
    hexDecodeSized_bytes (by decide +kernel), signerEncoded, ?_⟩
  intro same
  have sameText : signer = wrap.pubkey := by
    rw [signerEncoded, wrapEncoded, same]
  exact absurd sameText (by decide +kernel)

theorem signatures_decode :
    hexDecodeSized 64 wrap.sig = some (bytes wrap.sig) ∧
      hexDecodeSized 64 sealEvent.sig = some (bytes sealEvent.sig) ∧
      hexDecodeSized 64 token.sig = some (bytes token.sig) ∧
      wrap.id = hexEncode (bytes wrap.id) ∧ sealEvent.id = hexEncode (bytes sealEvent.id) :=
  ⟨hexDecodeSized_append (by decide +kernel), hexDecodeSized_append (by decide +kernel),
    hexDecodeSized_append (by decide +kernel),
    hexEncode_bytes (by decide +kernel) (by decide +kernel),
    hexEncode_bytes (by decide +kernel) (by decide +kernel)⟩

theorem wrap_verified : verifyEventStrict layers.toPrimitives wrap = .ok () := by
  have digest : recomputeEventId layers.toPrimitives wrap = bytes wrap.id := by
    unfold recomputeEventId computeEventId layers
    simp only [if_true]
  rw [verifyEventStrict_eq_ok_iff, digest]
  obtain ⟨isSignature, -, -, isId, -⟩ := signatures_decode
  refine ⟨isId, bytes wrap.pubkey, bytes wrap.sig, keys_decode.1, ?_, isSignature, ?_, ?_⟩
  · simp [layers]
  · simp [layers]
  · simp [layers]

theorem seal_verified : verifyEventStrict layers.toPrimitives sealEvent = .ok () := by
  have differs : utf8 (canonicalJson (unsignedPart sealEvent)) ≠
      utf8 (canonicalJson (unsignedPart wrap)) := by
    decide +kernel
  have digest : recomputeEventId layers.toPrimitives sealEvent = bytes sealEvent.id := by
    unfold recomputeEventId computeEventId layers
    simp only [if_neg differs, if_true]
  rw [verifyEventStrict_eq_ok_iff, digest]
  obtain ⟨-, isSignature, -, -, isId⟩ := signatures_decode
  refine ⟨isId, bytes signer, bytes sealEvent.sig, keys_decode.2.1, ?_, isSignature, ?_, ?_⟩
  · simp [layers]
  · simp [layers]
  · simp [layers]

theorem wrap_opened : openWrap layers wrap recipientSk = .ok sealEvent := by
  have decrypts : layers.decrypt recipientSk (bytes wrap.pubkey) wrap.content =
      some (eventJson sealEvent) := by
    unfold layers
    simp only [if_true]
  have parses : layers.parseEvent (eventJson sealEvent) = some sealEvent := by
    unfold layers
    simp only [if_true]
  have isKey : hexTo32 wrap.pubkey = .ok (bytes wrap.pubkey) := by
    rw [hexTo32, keys_decode.1]
  exact openWrap_eq_ok_iff.mpr ⟨rfl, wrap_verified, _, _, isKey, decrypts, parses, rfl⟩

theorem seal_opened : openSeal layers sealEvent recipientSk kindRumor = .ok rumor := by
  have otherKey : bytes signer ≠ bytes wrap.pubkey := keys_decode.2.2.2.2
  have decrypts : layers.decrypt recipientSk (bytes signer) sealEvent.content =
      some rumorJson := by
    unfold layers
    simp only [Prod.mk.injEq, otherKey, false_and, and_false, if_false, if_true]
  have parses : layers.parseUnsignedRumor rumorJson = some rumor := by
    unfold layers
    simp only [if_true]
  have isKey : hexTo32 signer = .ok (bytes signer) := by
    rw [hexTo32, keys_decode.2.1]
  exact openSeal_eq_ok_iff.mpr ⟨seal_verified, _, _, isKey, decrypts, parses, rfl, rfl⟩

theorem opened : unwrapGift layers wrap recipientSk = .ok ⟨signer, rumor, sealEvent⟩ :=
  unwrapGift_eq_ok_iff.mpr ⟨wrap_opened, seal_opened, rfl⟩

theorem token_valid :
    token.delegatorHex = token.delegator ∧
      Conditions.parse token.conditions = .ok ⟨[], none, some 200⟩ ∧
      token.validateStructure = .ok () := by
  have isDelegator : token.delegatorHex = token.delegator :=
    delegatorHex_ofList (by decide +kernel) (by decide +kernel) _ _
  have parsed : Conditions.parse token.conditions = .ok ⟨[], none, some 200⟩ := by
    decide +kernel
  have signatureDigits : isHex token.sig = true := by
    rw [token, ← String.ofList_append]
    exact isHex_ofList (by simp) (by decide +kernel)
  have delegatorDigits : isHex token.delegator = true :=
    isHex_ofList (by simp) (by decide +kernel)
  refine ⟨isDelegator, parsed, ?_⟩
  rw [DelegationToken.validateStructure, isDelegator, signatureDigits, delegatorDigits, parsed]
  rw [if_neg (by decide +kernel), if_neg (by decide +kernel), if_neg (by decide +kernel)]
  rfl

theorem token_verified :
    token.verify layers.toPrimitives signer = .ok ⟨[], none, some 200⟩ := by
  have digest : token.signingMessage layers.toPrimitives signer = tokenDigest := by
    unfold DelegationToken.signingMessage layers
    simp only [if_neg (tokenMessage_ne _ _ _), if_true]
  obtain ⟨isDelegator, parsed, isValid⟩ := token_valid
  obtain ⟨-, -, isSignature, -, -⟩ := signatures_decode
  obtain ⟨decoded, isSized⟩ := Option.filter_eq_some_iff.mp isSignature
  rw [DelegationToken.verify_eq_ok_iff, digest, isDelegator]
  refine ⟨isValid, parsed, bytes token.delegator, bytes token.sig, keys_decode.2.2.1, ?_,
    decoded, of_decide_eq_true isSized, ?_, ?_⟩
  · simp [layers]
  · simp [layers]
  · simp [layers]

theorem envelope_valid :
    didToHex envelope.from = .ok token.delegator ∧ envelope.validate = .ok () := by
  have isOrigin : didToHex envelope.from = .ok token.delegator :=
    didToHex_ofList (by decide +kernel) (by decide +kernel)
  have isRecipient : didToHex envelope.to' = .ok recipient :=
    didToHex_ofList (by decide +kernel) (by decide +kernel)
  obtain ⟨isDelegator, -, isValid⟩ := token_valid
  have isNormal : normaliseDid token.delegator = envelope.from := by
    rw [DelegationToken.delegatorHex] at isDelegator
    rw [normaliseDid, didNostrPrefix, isDelegator]
    rfl
  have toIsKey : validateDid envelope.to' = .ok () := by
    rw [validateDid, isRecipient]
    rfl
  have fromIsKey : validateDid envelope.from = .ok () := by
    rw [validateDid, isOrigin]
    rfl
  have isShort : ¬maxBodyBytes < (String.ofList (canonicalize envelope.body)).utf8ByteSize := by
    decide +kernel
  have isDelegated : envelope.delegation = some token := rfl
  have isVersion : ¬envelope.v ≠ envelopeVersion := not_not.mpr rfl
  have isDirect : ¬maxViaHops < envelope.via.length := Nat.not_lt_zero _
  have isBody : ¬Envelope.isNull envelope.body = true := Bool.false_ne_true
  refine ⟨isOrigin, ?_⟩
  unfold Envelope.validate
  dsimp only
  rw [if_neg isVersion, if_neg isDirect, if_neg isBody, if_neg isShort, toIsKey, fromIsKey,
    isDelegated]
  dsimp only
  rw [isValid, isNormal, fromIsKey]
  rfl

/-- What is received: an envelope at time 150. -/
def received : ReceivedEnvelope :=
  ⟨envelope, signer, wrap.id, 150⟩

theorem accepted : decodeIncomingWrap layers wrap recipientSk ⟨none, true⟩ = .ok received := by
  have isEnvelope : fromJcsStr layers rumor.content = .ok envelope := by
    have parses : layers.parseEnvelope rumor.content = .ok envelope := by
      unfold layers
      simp only [if_true]
    unfold fromJcsStr
    rw [parses]
    refine Lib.bind_eq_ok_iff.mpr ⟨envelope, rfl, ?_⟩
    exact Lib.bind_eq_ok_iff.mpr ⟨(), envelope_valid.2, rfl⟩
  have isOrigin : envelope.originHex = .ok token.delegator := by
    rw [Envelope.originHex, envelope_valid.1]
    rfl
  have attributed : checkAttribution layers envelope token.delegator signer rumor = .ok () := by
    have verified : token.verifyForEvent layers.toPrimitives signer rumor.kind rumor.createdAt =
        .ok () :=
      Lib.bind_eq_ok_iff.mpr ⟨_, token_verified, by decide⟩
    refine Lib.bind_eq_ok_iff.mpr ⟨(), Lib.mapError_eq_ok_iff.mpr verified, ?_⟩
    rw [if_neg (not_not.mpr token_valid.1)]
    rfl
  unfold decodeIncomingWrap
  refine Lib.bind_eq_ok_iff.mpr ⟨_, Lib.mapError_eq_ok_iff.mpr opened, ?_⟩
  refine Lib.bind_eq_ok_iff.mpr ⟨_, Lib.mapError_eq_ok_iff.mpr isEnvelope, ?_⟩
  refine Lib.bind_eq_ok_iff.mpr ⟨(), rfl, ?_⟩
  refine Lib.bind_eq_ok_iff.mpr ⟨_, Lib.mapError_eq_ok_iff.mpr isOrigin, ?_⟩
  exact Lib.bind_eq_ok_iff.mpr ⟨(), attributed, rfl⟩

end Exchange

theorem repeated_bound_accepted :
    Exchange.layers.Unforgeable Exchange.Signed ∧
      decodeIncomingWrap Exchange.layers Exchange.wrap Exchange.recipientSk ⟨none, true⟩ =
        .ok Exchange.received ∧
      ¬Authentic Exchange.layers Exchange.Signed Exchange.wrap Exchange.recipientSk
        Exchange.received.envelope := by
  refine ⟨Exchange.sound, Exchange.accepted, ?_⟩
  rintro ⟨unwrapped, key, opens, sealedBy, isFrom⟩
  rw [Exchange.opened] at opens
  cases opens
  have isKey : hexDecodeSized 32 Exchange.signer = some (bytes Exchange.signer) := by
    decide +kernel
  cases isKey.symm.trans sealedBy.isKey
  rcases isFrom with isSigner | ⟨token, delegator, isToken, -, delegated⟩
  · have other : Exchange.token.delegator ≠ hexEncode (bytes Exchange.signer) := by decide +kernel
    exact other (didNostrPrefix_inj isSigner)
  · cases isToken
    obtain ⟨read, isRead, holds⟩ := delegated.hold
    have clauses : readClauses Exchange.token.conditions =
        .ok [.createdBefore 100, .createdBefore 200] := by
      decide +kernel
    cases clauses.symm.trans isRead
    have early : 150 < 100 := holds.bounded (.createdBefore 100) (by simp)
    omega

theorem authentic_iff_exchange :
    Authentic Exchange.layers Exchange.Signed Exchange.wrap Exchange.recipientSk
        Exchange.received.envelope ↔ ReplacedBoundsMet Exchange.received :=
  authentic_iff_replacedBoundsMet Exchange.sound Exchange.accepted

end Mesh
end NostrBbs
