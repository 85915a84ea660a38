import NostrBbs.Lib.Fallible
import NostrBbs.Mesh.Envelope

/-!
# Received wraps

A wrap is opened layer by layer: the wrap and the seal in it have to verify, the rumor in
the seal has to be by the seal's signer, and the envelope in the rumor is checked against
that signer or against a token for it.
-/

namespace NostrBbs
namespace Mesh

open Shared
open Relay (NostrEvent)

/-! ## Unwrapping -/

/-- Decryption, and the readers of JSON texts. -/
structure Layers extends Primitives where
  decrypt : Bytes → Bytes → String → Option String
  parseEvent : String → Option NostrEvent
  parseUnsignedRumor : String → Option UnsignedEvent
  parseEnvelope : String → Except String Envelope

inductive GiftWrapError where
  | decryption (message : String)
  | invalidKind (expected actual : Nat)
  | invalidPubkey (text : String)
  | parseError (message : String)
  | sealVerification (cause : EventError)
  | wrapVerification (cause : EventError)
  | authorMismatch (rumor «seal» : String)
deriving DecidableEq, Repr

structure UnwrappedGift where
  senderPubkey : String
  rumor : UnsignedEvent
  «seal» : NostrEvent
deriving DecidableEq

def kindRumor : Nat := 14

def kindSeal : Nat := 13

def kindGiftWrap : Nat := 1059

section Unwrapping

variable (layers : Layers)

def hexTo32 (text : String) : Except GiftWrapError Bytes :=
  match hexDecodeSized 32 text with
  | some bytes => .ok bytes
  | none => .error (.invalidPubkey text)

/-- The seal in a wrap. -/
def openWrap (gift : NostrEvent) (recipientSk : Bytes) : Except GiftWrapError NostrEvent := do
  if gift.kind ≠ kindGiftWrap then
    throw (.invalidKind kindGiftWrap gift.kind)
  (verifyEventStrict layers.toPrimitives gift).mapError .wrapVerification
  let throwawayPk ← hexTo32 gift.pubkey
  match layers.decrypt recipientSk throwawayPk gift.content with
  | none => .error (.decryption "gift wrap layer")
  | some sealJson =>
      match layers.parseEvent sealJson with
      | none => .error (.parseError "seal JSON malformed")
      | some event =>
          if event.kind ≠ kindSeal then .error (.invalidKind kindSeal event.kind) else .ok event

/-- The rumor in a seal. -/
def openSeal (event : NostrEvent) (recipientSk : Bytes) (expectedKind : Nat) :
    Except GiftWrapError UnsignedEvent := do
  (verifyEventStrict layers.toPrimitives event).mapError .sealVerification
  let senderPk ← hexTo32 event.pubkey
  match layers.decrypt recipientSk senderPk event.content with
  | none => .error (.decryption "seal layer")
  | some rumorJson =>
      match layers.parseUnsignedRumor rumorJson with
      | none => .error (.parseError "rumor JSON malformed")
      | some rumor =>
          if rumor.kind ≠ expectedKind then .error (.invalidKind expectedKind rumor.kind)
          else if rumor.pubkey ≠ event.pubkey then
            .error (.authorMismatch rumor.pubkey event.pubkey)
          else .ok rumor

def unwrapGiftKind (gift : NostrEvent) (recipientSk : Bytes) (expectedKind : Nat) :
    Except GiftWrapError UnwrappedGift := do
  let event ← openWrap layers gift recipientSk
  let rumor ← openSeal layers event recipientSk expectedKind
  pure ⟨event.pubkey, rumor, event⟩

def unwrapGift (gift : NostrEvent) (recipientSk : Bytes) : Except GiftWrapError UnwrappedGift :=
  unwrapGiftKind layers gift recipientSk kindRumor

end Unwrapping

section

variable {layers : Layers}

theorem openWrap_eq_ok_iff
    {gift event : NostrEvent}
    {recipientSk : Bytes} :
    openWrap layers gift recipientSk = .ok event ↔
      gift.kind = kindGiftWrap ∧ verifyEventStrict layers.toPrimitives gift = .ok () ∧
        ∃ throwawayPk sealJson, hexTo32 gift.pubkey = .ok throwawayPk ∧
          layers.decrypt recipientSk throwawayPk gift.content = some sealJson ∧
          layers.parseEvent sealJson = some event ∧ event.kind = kindSeal := by
  unfold openWrap
  by_cases isWrap : gift.kind = kindGiftWrap
  case neg =>
    rw [if_pos isWrap]
    exact iff_of_false (fun opens => nomatch opens) fun opens => isWrap opens.1
  case pos =>
    rw [if_neg (not_not.mpr isWrap)]
    dsimp only
    rw [Lib.bind_eq_ok_iff]
    constructor
    · rintro ⟨_, verified, rest⟩
      obtain ⟨throwawayPk, isKey, rest⟩ := Lib.bind_eq_ok_iff.mp rest
      refine ⟨isWrap, Lib.mapError_eq_ok_iff.mp verified, throwawayPk, ?_⟩
      split at rest
      · cases rest
      · rename_i sealJson decrypts
        split at rest
        · cases rest
        · rename_i parsed parses
          split at rest
          · cases rest
          · rename_i isSeal
            cases rest
            exact ⟨sealJson, isKey, decrypts, parses, not_not.mp isSeal⟩
    · rintro ⟨-, verified, throwawayPk, sealJson, isKey, decrypts, parses, isSeal⟩
      refine ⟨(), Lib.mapError_eq_ok_iff.mpr verified,
        Lib.bind_eq_ok_iff.mpr ⟨throwawayPk, isKey, ?_⟩⟩
      rw [decrypts]
      dsimp only
      rw [parses]
      dsimp only
      rw [if_neg (not_not.mpr isSeal)]

theorem openSeal_eq_ok_iff
    {event : NostrEvent}
    {recipientSk : Bytes}
    {expectedKind : Nat}
    {rumor : UnsignedEvent} :
    openSeal layers event recipientSk expectedKind = .ok rumor ↔
      verifyEventStrict layers.toPrimitives event = .ok () ∧
        ∃ senderPk rumorJson, hexTo32 event.pubkey = .ok senderPk ∧
          layers.decrypt recipientSk senderPk event.content = some rumorJson ∧
          layers.parseUnsignedRumor rumorJson = some rumor ∧ rumor.kind = expectedKind ∧
          rumor.pubkey = event.pubkey := by
  unfold openSeal
  rw [Lib.bind_eq_ok_iff]
  constructor
  · rintro ⟨_, verified, rest⟩
    obtain ⟨senderPk, isKey, rest⟩ := Lib.bind_eq_ok_iff.mp rest
    refine ⟨Lib.mapError_eq_ok_iff.mp verified, senderPk, ?_⟩
    split at rest
    · cases rest
    · rename_i rumorJson decrypts
      split at rest
      · cases rest
      · rename_i parsed parses
        split at rest
        · cases rest
        · rename_i isKind
          split at rest
          · cases rest
          · rename_i isAuthor
            cases rest
            exact ⟨rumorJson, isKey, decrypts, parses, not_not.mp isKind, not_not.mp isAuthor⟩
  · rintro ⟨verified, senderPk, rumorJson, isKey, decrypts, parses, isKind, isAuthor⟩
    refine ⟨(), Lib.mapError_eq_ok_iff.mpr verified, Lib.bind_eq_ok_iff.mpr ⟨senderPk, isKey, ?_⟩⟩
    rw [decrypts]
    dsimp only
    rw [parses]
    dsimp only
    rw [if_neg (not_not.mpr isKind), if_neg (not_not.mpr isAuthor)]

theorem unwrapGift_eq_ok_iff
    {wrap : NostrEvent}
    {recipientSk : Bytes}
    {unwrapped : UnwrappedGift} :
    unwrapGift layers wrap recipientSk = .ok unwrapped ↔
      openWrap layers wrap recipientSk = .ok unwrapped.seal ∧
        openSeal layers unwrapped.seal recipientSk kindRumor = .ok unwrapped.rumor ∧
        unwrapped.senderPubkey = unwrapped.seal.pubkey := by
  unfold unwrapGift unwrapGiftKind
  rw [Lib.bind_eq_ok_iff]
  constructor
  · rintro ⟨event, opensWrap, rest⟩
    obtain ⟨rumor, opensSeal, isUnwrapped⟩ := Lib.bind_eq_ok_iff.mp rest
    cases isUnwrapped
    exact ⟨opensWrap, opensSeal, rfl⟩
  · rintro ⟨opensWrap, opensSeal, isSender⟩
    refine ⟨_, opensWrap, Lib.bind_eq_ok_iff.mpr ⟨_, opensSeal, ?_⟩⟩
    rw [← isSender]
    rfl

end

/-! ## Decoding -/

section Decoding

variable (layers : Layers)

inductive MeshError where
  | giftWrap (cause : GiftWrapError)
  | envelope (cause : EnvelopeError)
  | delegation (cause : DelegationError)
  | attributionMismatch
deriving DecidableEq, Repr

structure ReceiveOptions where
  now : Option Nat
  delegationRequired : Bool

structure ReceivedEnvelope where
  envelope : Envelope
  sealPubkey : String
  eventId : String
  rumorCreatedAt : Nat

/-- An envelope that is read and validated. -/
def fromJcsStr (text : String) : Except EnvelopeError Envelope := do
  let envelope ← (layers.parseEnvelope text).mapError .json
  envelope.validate
  pure envelope

def checkTtl (opts : ReceiveOptions) (envelope : Envelope) (createdAt : Nat) :
    Except MeshError Unit :=
  match opts.now with
  | some now =>
      if envelope.isExpiredWithDefault now createdAt then
        .error (.envelope (.json "envelope-expired"))
      else .ok ()
  | none => .ok ()

/-- The origin is the delegator of the signer, or the signer. -/
def checkAttribution (envelope : Envelope) (fromHex sealPubkey : String) (rumor : UnsignedEvent) :
    Except MeshError Unit :=
  match envelope.delegation with
  | some token => do
      (token.verifyForEvent layers.toPrimitives sealPubkey rumor.kind rumor.createdAt).mapError
        .delegation
      if token.delegatorHex ≠ fromHex then
        throw .attributionMismatch
  | none =>
      -- `delegation_required` has no effect here
      if fromHex ≠ sealPubkey then .error .attributionMismatch else .ok ()

def decodeIncomingWrap (wrap : NostrEvent) (recipientSk : Bytes) (opts : ReceiveOptions) :
    Except MeshError ReceivedEnvelope := do
  let unwrapped ← (unwrapGift layers wrap recipientSk).mapError .giftWrap
  let rumor := unwrapped.rumor
  let envelope ← (fromJcsStr layers rumor.content).mapError .envelope
  checkTtl opts envelope rumor.createdAt
  let fromHex ← (envelope.originHex).mapError .envelope
  checkAttribution layers envelope fromHex unwrapped.senderPubkey rumor
  pure ⟨envelope, unwrapped.senderPubkey, wrap.id, rumor.createdAt⟩

end Decoding

end Mesh
end NostrBbs
