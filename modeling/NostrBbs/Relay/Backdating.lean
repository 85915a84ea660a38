import NostrBbs.Relay.Admission

/-!
# Backdated events

An event outside the clock's window is accepted only as a sealed original of an
administrator in an encrypted zone.  The exemption is given for the marker alone,
and the zone gate refuses every other event that has it.
-/

namespace NostrBbs
namespace Relay

/-- The event was accepted. -/
def EventReply.accepted : EventReply → Bool
  | notice _ => false
  | ok accepted _ => accepted

section

variable {trigger : TagTrigger} {ingress : Ingress} {store : Store trigger}
  {submission : Submission} {event : NostrEvent} {saves sessionAuthed : Bool} {now : Nat}

/-- An accepted event passed every gate. -/
theorem refusal_of_accepted
    (accepted : (ingress.handleEvent store submission saves).1.accepted) :
    ingress.refusal submission.sessionAuthed submission.event submission.now = none := by
  unfold Ingress.handleEvent at accepted
  dsimp only at accepted
  split at accepted
  · cases accepted
  · split at accepted
    · cases accepted
    · assumption

/-- An event that is not accepted leaves the store. -/
theorem store_of_not_accepted
    (refused : (ingress.handleEvent store submission saves).1.accepted = false) :
    (ingress.handleEvent store submission saves).2 = store := by
  unfold Ingress.handleEvent at refused ⊢
  dsimp only at refused ⊢
  split
  · rfl
  · rename_i withinRate
    rw [if_neg withinRate] at refused
    split
    · rfl
    · rename_i passes
      rw [passes] at refused
      dsimp only at refused
      split
      · rfl
      · rename_i isStored
        rw [if_neg isStored] at refused
        split
        · rename_i saved
          rw [if_pos saved] at refused
          cases refused
        · rfl

/-- Every gate passes an event that no gate refuses. -/
theorem gates_of_refusal
    (passes : ingress.refusal sessionAuthed event now = none) :
    (∀ gate ∈ ingress.earlierGates sessionAuthed event now, gate = none) ∧
      ingress.channelGate event = none ∧ ingress.calendarGate event = none := by
  unfold Ingress.refusal at passes
  rw [List.findSome?_eq_none_iff] at passes
  refine ⟨?_, ?_, ?_⟩
  · exact fun gate isGate => passes gate (List.mem_append_left _ isGate)
  · exact passes (ingress.channelGate event) (List.mem_append_right _ (List.mem_cons_self ..))
  · exact passes (ingress.calendarGate event)
      (List.mem_append_right _ (List.mem_cons_of_mem _ (List.mem_cons_self ..)))

/-- An event that passes is valid at the time. -/
theorem validateEvent_of_refusal
    (passes : ingress.refusal sessionAuthed event now = none) :
    validateEvent event now := by
  have first := (gates_of_refusal passes).1 _ (List.mem_cons_self ..)
  by_contra invalid
  rw [if_neg invalid] at first
  cases first

/-- What the zone gate lets pass into a channel. -/
theorem channelGate_eq_none_iff
    (isMessage : event.kind = 42) :
    ingress.channelGate event = none ↔ ∃ channel, channelTag event = some channel ∧
      sealedWriteRejection (hasSealedTag event.tags) (ingress.isAdmin event.pubkey)
          ((ingress.channelZone channel).map ingress.writeZones.isEncrypted) = none ∧
        ∀ zone, ingress.channelZone channel = some zone →
          ingress.boundZoneGate event zone = none := by
  unfold Ingress.channelGate
  rw [if_neg (not_not.mpr isMessage)]
  cases channelTag event with
  | none => simp
  | some channel =>
      dsimp only
      rw [Option.or_eq_none_iff, Option.bind_eq_none_iff]
      simp only [Option.some.injEq, exists_eq_left']

/-- A message that a bound zone lets pass is by someone who may write to the zone,
and is ciphertext in an encrypted one. -/
theorem boundZoneGate_eq_none_iff
    {zone : String} :
    ingress.boundZoneGate event zone = none ↔
      (ingress.isAdmin event.pubkey ∨
        ingress.hasZoneWriteAccess (ingress.principalOf event) zone) ∧
      (ingress.writeZones.isEncrypted zone →
        isZoneCiphertext ingress.decodeBase64 zone event.tags event.content) := by
  unfold Ingress.boundZoneGate
  cases ingress.isAdmin event.pubkey <;>
    cases ingress.hasZoneWriteAccess (ingress.principalOf event) zone <;>
      cases ingress.writeZones.isEncrypted zone <;>
        cases isZoneCiphertext ingress.decodeBase64 zone event.tags event.content <;> simp

/-- A sealed original of an administrator, in a channel that is bound to an encrypted
zone and with ciphertext for it. -/
structure SealedByAdmin (ingress : Ingress) (event : NostrEvent) (now : Nat) : Prop where
  isMessage : event.kind = 42
  marked : (parseSealed event.tags).isSome
  past : event.createdAt ≤ now
  byAdmin : ingress.isAdmin event.pubkey
  encrypted : ∃ channel zone, channelTag event = some channel ∧
    ingress.channelZone channel = some zone ∧ ingress.writeZones.isEncrypted zone ∧
      isZoneCiphertext ingress.decodeBase64 zone event.tags event.content

theorem sealedByAdmin_of_refusal
    (outOfWindow : maxTimestampDrift < drift event now)
    (passes : ingress.refusal sessionAuthed event now = none) :
    SealedByAdmin ingress event now := by
  have valid := validateEvent_of_refusal passes
  unfold validateEvent timestampDriftOk at valid
  rw [Bool.and_eq_true, Bool.or_eq_true, Bool.and_eq_true, decide_eq_true_eq,
    decide_eq_true_eq] at valid
  obtain ⟨past, exempt⟩ := valid.2.resolve_right (Nat.not_le.mpr outOfWindow)
  unfold sealedDriftExempt at exempt
  rw [Bool.and_eq_true, beq_iff_eq] at exempt
  obtain ⟨isMessage, marked⟩ := exempt
  obtain ⟨ref, parsed⟩ := Option.isSome_iff_exists.mp marked
  have isSealed := hasSealedTag_of_parseSealed parsed
  obtain ⟨channel, isChannel, notRejected, passesZone⟩ :=
    (channelGate_eq_none_iff isMessage).mp (gates_of_refusal passes).2.1
  -- the marker meets the rule for sealed originals
  unfold sealedWriteRejection at notRejected
  rw [isSealed] at notRejected
  rw [if_neg (by simp)] at notRejected
  split at notRejected
  · cases notRejected
  · rename_i byAdmin
    split at notRejected
    · cases notRejected
    · rename_i inEncrypted
      rw [ne_eq, not_not, Option.map_eq_some_iff] at inEncrypted
      obtain ⟨zone, isZone, isEncrypted⟩ := inEncrypted
      have ciphertext := (boundZoneGate_eq_none_iff.mp (passesZone zone isZone)).2 isEncrypted
      exact
        { isMessage := isMessage
          marked := marked
          past := past
          byAdmin := by simpa using byAdmin
          encrypted := ⟨channel, zone, isChannel, isZone, isEncrypted, ciphertext⟩ }

end

/-- An event outside the window is accepted only as a sealed original of an
administrator, and any other is refused with the store unchanged. -/
theorem backdating_is_for_admins
    {trigger : TagTrigger}
    (ingress : Ingress)
    (store : Store trigger)
    (submission : Submission)
    (saves : Bool)
    (outOfWindow : maxTimestampDrift < drift submission.event submission.now) :
    ((ingress.handleEvent store submission saves).1.accepted →
        SealedByAdmin ingress submission.event submission.now) ∧
      (¬SealedByAdmin ingress submission.event submission.now →
        (ingress.handleEvent store submission saves).1.accepted = false ∧
          (ingress.handleEvent store submission saves).2 = store) := by
  have onlyAdmins : (ingress.handleEvent store submission saves).1.accepted →
      SealedByAdmin ingress submission.event submission.now :=
    fun accepted => sealedByAdmin_of_refusal outOfWindow (refusal_of_accepted accepted)
  refine ⟨onlyAdmins, ?_⟩
  intro other
  have refused : (ingress.handleEvent store submission saves).1.accepted = false :=
    Bool.eq_false_iff.mpr (mt onlyAdmins other)
  exact ⟨refused, store_of_not_accepted refused⟩

/-! ## A message of long ago -/

/-- The payload of 99 bytes that begin with the version byte. -/
def oldPayload : String :=
  String.ofList ('A' :: 'g' :: List.replicate 130 'A')

/-- A relay with one administrator and one encrypted zone. -/
def familyRelay : Ingress where
  authMode := .nip42
  zones := ⟨[⟨"family", ["family"], .lockedZone⟩]⟩
  deviceKeysEnabled := false
  deviceOwner _ := none
  isAdmin pubkey := pubkey == String.ofList (List.replicate 64 'a')
  viewerCohorts _ := ([], false)
  channelZone channel := if channel = "kitchen" then some "family" else none
  storedTags _ := none
  writeZones := ⟨[⟨⟨"family", ["family"], .lockedZone⟩, none, true⟩], true⟩
  sameZones := rfl
  verifyEventStrict _ := true
  decodeBase64 text :=
    if text = oldPayload then some (2 :: List.replicate 98 0) else none
  isWhitelisted _ := true
  isIngressRecipient _ := false
  isMeshPeer _ := false
  isFederatedKindAllowed _ := false
  isSuspended _ := false
  isSilenced _ := false
  isBlocked _ := false
  trustLevel _ := .newcomer
  channelCreator _ := none
  storedAuthor _ := none
  isRegisteredAgent _ := false
  governanceRefusal _ := none

/-- A sealed original from long ago. -/
def oldEnvelope : Submission where
  event :=
    { id := String.ofList (List.replicate 64 'e')
      pubkey := String.ofList (List.replicate 64 'a')
      createdAt := 1000
      kind := 42
      tags := [["e", "kitchen", "", "root"],
        ["zk", "family", "1", String.ofList (List.replicate 64 'b')],
        ["sealed", String.ofList (List.replicate 64 'd'), "1"]]
      content := oldPayload
      sig := String.ofList (List.replicate 128 'f') }
  withinRate := true
  sessionAuthed := true
  now := 100000000

theorem backdating_is_for_admins_envelope :
    (familyRelay.handleEvent (Store.empty : Store .probeBlind) oldEnvelope true).1.accepted ∧
      SealedByAdmin familyRelay oldEnvelope.event oldEnvelope.now := by
  have accepted : (familyRelay.handleEvent (Store.empty : Store .probeBlind) oldEnvelope
      true).1.accepted = true := by
    decide +kernel
  exact ⟨accepted, (backdating_is_for_admins familyRelay Store.empty oldEnvelope true
    (by decide +kernel)).1 accepted⟩

end Relay
end NostrBbs
