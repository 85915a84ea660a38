import NostrBbs.Lib.Memo
import NostrBbs.Lib.Run
import NostrBbs.Relay.Backdating

/-!
# Channels that change their zone

The relay looks a channel's zone up through a memo of a minute when a message comes
in, and decides on the message with the zone it was told, while administrators bind
the channel anew on another route.
-/

namespace NostrBbs
namespace Relay

/-! ## The binding of channels -/

/-- Time to live of the memo of lookups, in seconds. -/
def lookupTtlSecs : Nat := 60

/-- A request to bind a channel to a zone. -/
structure ChannelZoneUpsert where
  byAdmin : Bool
  channelId : Option String
  zone : Option String
deriving DecidableEq, Repr

def isChannelId (text : String) : Bool :=
  text ≠ "" && text.utf8ByteSize ≤ 128 && text.toList.all isAsciiHexdigit

def isZoneSlug (text : String) : Bool :=
  text ≠ "" && text.utf8ByteSize ≤ 64 &&
    text.toList.all fun char => char.isAlphanum || char == '-' || char == '_'

/-- The table of bindings after a request. -/
def handleChannelZoneUpsert (request : ChannelZoneUpsert)
    (channelZones : String → Option String) : String → Option String :=
  if !request.byAdmin then channelZones
  else
    match request.channelId.filter isChannelId, request.zone.filter isZoneSlug with
    | some channel, some zone => Function.update channelZones channel (some zone)
    | _, _ => channelZones

/-! ## The relay between requests -/

/-- A submission that came in: the zone of its channel as it was looked up then. -/
structure Arrival where
  submission : Submission
  zone : Option String
  answered : Bool

/-- The bindings, what the relay remembers of them, and its submissions. -/
structure RelayState (trigger : TagTrigger) where
  channelZones : String → Option String
  memo : Lib.Memo String String
  arrivals : List Arrival
  store : Store trigger
  now : Nat

/-- What happens at the relay and around it. -/
inductive RelayInput where
  | upsert (request : ChannelZoneUpsert)
  | read (channel : String)
  | arrive (submission : Submission)
  | settle (number : Nat) (saves : Bool)
  | wait (seconds : Nat)
  | restart

/-- A relay that has just started. -/
def RelayState.start {trigger : TagTrigger} (channelZones : String → Option String)
    (store : Store trigger) (now : Nat) : RelayState trigger :=
  ⟨channelZones, .empty, [], store, now⟩

namespace Ingress

variable {trigger : TagTrigger} (ingress : Ingress)

/-- The relay with the zone that a message's channel was looked up with. -/
def knowing (zone : Option String) : Ingress :=
  { ingress with channelZone := fun _ => zone }

/-- The channel whose zone is looked up for a submission: that of a message which
the earlier gates let pass. -/
def asksZone (submission : Submission) : Option String :=
  if submission.withinRate &&
      (ingress.earlierGates submission.sessionAuthed submission.event submission.now).all
        Option.isNone &&
      submission.event.kind == 42 then
    channelTag submission.event
  else none

/-- The reply to a submission that has none yet, and the store after it. -/
def reply (state : RelayState trigger) (number : Nat) (saves : Bool) :
    Option (EventReply × Store trigger) :=
  match state.arrivals[number]? with
  | none => none
  | some arrival =>
      if arrival.answered then none
      else some ((ingress.knowing arrival.zone).handleEvent state.store arrival.submission saves)

end Ingress

namespace RelayState

variable {trigger : TagTrigger}

/-- The lookup of a channel's zone through the memo. -/
def cachedChannelZone (state : RelayState trigger) (channel : String) :
    Option String × Lib.Memo String String :=
  state.memo.lookup lookupTtlSecs state.channelZones channel state.now

/-- A submission comes in. -/
def arrive (ingress : Ingress) (state : RelayState trigger) (submission : Submission) :
    RelayState trigger :=
  let submission := { submission with now := state.now }
  match ingress.asksZone submission with
  | none => { state with arrivals := state.arrivals ++ [⟨submission, none, false⟩] }
  | some channel =>
      let (zone, memo) := state.cachedChannelZone channel
      { state with memo := memo, arrivals := state.arrivals ++ [⟨submission, zone, false⟩] }

/-- One step of the relay and its surroundings. -/
def step (ingress : Ingress) (state : RelayState trigger) : RelayInput → RelayState trigger
  | .upsert request =>
      { state with channelZones := handleChannelZoneUpsert request state.channelZones }
  | .read channel => { state with memo := (state.cachedChannelZone channel).2 }
  | .arrive submission => state.arrive ingress submission
  | .settle number saves =>
      match ingress.reply state number saves with
      | none => state
      | some (_, store) =>
          { state with
            arrivals := state.arrivals.modify number fun arrival => { arrival with answered := true }
            store := store }
  | .wait seconds => { state with now := state.now + seconds }
  | .restart =>
      { state with
        memo := .empty
        arrivals := state.arrivals.map fun arrival => { arrival with answered := true } }

end RelayState

/-! ## What one step does -/

/-- What a submission came in with. -/
def Arrival.known (arrival : Arrival) : Submission × Option String :=
  (arrival.submission, arrival.zone)

section

variable {trigger : TagTrigger} {ingress : Ingress}

/-- A step leaves the memo, looks one channel up in it or clears it. -/
theorem step_memo
    (ingress : Ingress)
    (state : RelayState trigger)
    (input : RelayInput) :
    (state.step ingress input).memo = state.memo ∨
      (∃ channel, (state.step ingress input).memo = (state.cachedChannelZone channel).2) ∨
        (state.step ingress input).memo = .empty := by
  cases input with
  | upsert request => exact .inl rfl
  | read channel => exact .inr (.inl ⟨channel, rfl⟩)
  | arrive submission =>
      dsimp only [RelayState.step]
      unfold RelayState.arrive
      dsimp only
      split
      · exact .inl rfl
      · rename_i channel asked
        exact .inr (.inl ⟨channel, rfl⟩)
  | settle number saves =>
      dsimp only [RelayState.step]
      split
      · exact .inl rfl
      · exact .inl rfl
  | wait seconds => exact .inl rfl
  | restart => exact .inr (.inr rfl)

theorem map_known_modify
    (arrivals : List Arrival)
    (number : Nat) :
    (arrivals.modify number fun arrival => { arrival with answered := true }).map
        Arrival.known = arrivals.map Arrival.known := by
  apply List.ext_getElem?
  intro index
  rw [List.getElem?_map, List.getElem?_map, List.getElem?_modify]
  cases arrivals[index]? with
  | none => rfl
  | some arrival =>
      by_cases same : number = index
      · simp [same, Arrival.known]
      · simp [same]

/-- What submissions came in with is not changed by a step. -/
theorem known_step
    (state : RelayState trigger)
    (input : RelayInput) :
    state.arrivals.map Arrival.known <+:
      (state.step ingress input).arrivals.map Arrival.known := by
  cases input with
  | arrive submission =>
      dsimp only [RelayState.step]
      unfold RelayState.arrive
      dsimp only
      split
      · rw [List.map_append]
        exact List.prefix_append ..
      · dsimp only
        rw [List.map_append]
        exact List.prefix_append ..
  | settle number saves =>
      dsimp only [RelayState.step]
      split
      · exact List.prefix_rfl
      · dsimp only
        rw [map_known_modify]
  | restart =>
      dsimp only [RelayState.step]
      rw [List.map_map]
      exact List.prefix_rfl
  | upsert request => exact List.prefix_rfl
  | read channel => exact List.prefix_rfl
  | wait seconds => exact List.prefix_rfl

theorem known_run
    (ingress : Ingress)
    (state : RelayState trigger)
    (inputs : List RelayInput) :
    state.arrivals.map Arrival.known <+:
      (Lib.run (RelayState.step ingress) state inputs).arrivals.map Arrival.known := by
  have kept : ∀ (reached : RelayState trigger) input,
      state.arrivals.map Arrival.known <+: reached.arrivals.map Arrival.known →
        state.arrivals.map Arrival.known <+:
          (reached.step ingress input).arrivals.map Arrival.known :=
    fun reached input earlier => earlier.trans (known_step reached input)
  exact Lib.invariant_run kept List.prefix_rfl inputs

/-- What a submission is looked up with when it comes in. -/
theorem known_arrive
    (state : RelayState trigger)
    (submission : Submission) :
    (state.arrive ingress submission).arrivals.map Arrival.known =
      state.arrivals.map Arrival.known ++
        [({ submission with now := state.now },
          (ingress.asksZone { submission with now := state.now }).bind fun channel =>
            (state.cachedChannelZone channel).1)] := by
  unfold RelayState.arrive
  dsimp only
  split
  · rename_i asksNothing
    rw [asksNothing, List.map_append]
    rfl
  · rename_i channel asks
    rw [asks, List.map_append]
    rfl

end

/-! ## What the memo remembers over a run -/

section

variable {trigger : TagTrigger} {ingress : Ingress} {start : RelayState trigger}

/-- A channel was bound to a zone at a moment of a run. -/
def WasBound (ingress : Ingress) (start : RelayState trigger) (past : List RelayInput)
    (channel zone : String) (moment : Nat) : Prop :=
  ∃ earlier, earlier <+: past ∧
    (Lib.run (RelayState.step ingress) start earlier).channelZones channel = some zone ∧
      (Lib.run (RelayState.step ingress) start earlier).now = moment

theorem WasBound.append
    {past : List RelayInput}
    {channel zone : String}
    {moment : Nat}
    (wasBound : WasBound ingress start past channel zone moment)
    (later : List RelayInput) :
    WasBound ingress start (past ++ later) channel zone moment := by
  obtain ⟨earlier, isInitial, isBound, isMoment⟩ := wasBound
  exact ⟨earlier, isInitial.trans (List.prefix_append ..), isBound, isMoment⟩

/-- The current bindings are bindings of the run. -/
theorem wasBound_now
    {past : List RelayInput}
    {channel zone : String}
    (isBound : (Lib.run (RelayState.step ingress) start past).channelZones channel = some zone) :
    WasBound ingress start past channel zone
      (Lib.run (RelayState.step ingress) start past).now :=
  ⟨past, List.prefix_rfl, isBound, rfl⟩

/-- What the relay remembers are bindings of a run, each with its moment. -/
def Remembers (ingress : Ingress) (start : RelayState trigger) (past : List RelayInput)
    (state : RelayState trigger) : Prop :=
  state.memo.Sourced (WasBound ingress start past)

theorem remembers_run
    (empty : start.memo = .empty)
    (past : List RelayInput) :
    Remembers ingress start past (Lib.run (RelayState.step ingress) start past) := by
  have started : Remembers ingress start [] start := by
    unfold Remembers
    rw [empty]
    exact Lib.Memo.sourced_empty
  refine Lib.invariant_history started ?_ past
  intro taken input sourced
  unfold Remembers at sourced ⊢
  have grows : ∀ channel zone moment, WasBound ingress start taken channel zone moment →
      WasBound ingress start (taken ++ [input]) channel zone moment :=
    fun channel zone moment wasBound => wasBound.append [input]
  rcases step_memo ingress (Lib.run (RelayState.step ingress) start taken) input with
    kept | ⟨channel, looked⟩ | cleared
  · rw [kept]
    exact sourced.mono grows
  · rw [looked]
    have kept := Lib.Memo.lookup_sourced lookupTtlSecs sourced
      (fun key value isBound => wasBound_now isBound) channel
    exact kept.mono grows
  · rw [cleared]
    exact Lib.Memo.sourced_empty

/-- The zone that a submission came in with is one its channel was bound to within
the last minute. -/
theorem cachedChannelZone_recent
    (empty : start.memo = .empty)
    {past : List RelayInput}
    {channel zone : String}
    (answered : ((Lib.run (RelayState.step ingress) start past).cachedChannelZone channel).1 =
      some zone) :
    ∃ earlier, earlier <+: past ∧
      (Lib.run (RelayState.step ingress) start earlier).channelZones channel = some zone ∧
        (Lib.run (RelayState.step ingress) start past).now <
          (Lib.run (RelayState.step ingress) start earlier).now + lookupTtlSecs := by
  obtain ⟨moment, young, earlier, isInitial, isBound, rfl⟩ :=
    Lib.Memo.lookup_recent (remembers_run empty past)
      (fun key value isBound => wasBound_now isBound) (by decide) answered
  refine ⟨earlier, isInitial, isBound, ?_⟩
  omega

end

/-! ## Accepted messages -/

/-- A message is ciphertext for a zone that is encrypted, and its author may write
to the zone. -/
structure MayEnter (ingress : Ingress) (event : NostrEvent) (zone : String) : Prop where
  ciphertext : ingress.writeZones.isEncrypted zone →
    isZoneCiphertext ingress.decodeBase64 zone event.tags event.content
  admitted : ingress.isAdmin event.pubkey ∨
    ingress.hasZoneWriteAccess (ingress.principalOf event) zone

section

variable {trigger : TagTrigger} {ingress : Ingress}

/-- The submission that a reply is to. -/
theorem submission_of_reply
    {state : RelayState trigger}
    {number : Nat}
    {saves : Bool}
    {answer : EventReply × Store trigger}
    {submission : Submission}
    {zone : Option String}
    (isReply : ingress.reply state number saves = some answer)
    (isKnown : (state.arrivals.map Arrival.known)[number]? = some (submission, zone)) :
    answer = (ingress.knowing zone).handleEvent state.store submission saves := by
  rw [List.getElem?_map, Option.map_eq_some_iff] at isKnown
  obtain ⟨arrival, isArrival, known⟩ := isKnown
  unfold Ingress.reply at isReply
  rw [isArrival] at isReply
  cases known
  dsimp only at isReply
  split at isReply
  · cases isReply
  · cases isReply
    rfl

/-- An accepted message passed the zone it was looked up with, and the lookup was
made for its channel. -/
theorem zone_of_accepted
    {store : Store trigger}
    {submission : Submission}
    {zone : Option String}
    {saves : Bool}
    (accepted : ((ingress.knowing zone).handleEvent store submission saves).1.accepted)
    (isMessage : submission.event.kind = 42) :
    ∃ channel, channelTag submission.event = some channel ∧
      ingress.asksZone submission = some channel ∧
        ∀ known, zone = some known → MayEnter ingress submission.event known := by
  have passes := refusal_of_accepted accepted
  have withinRate : submission.withinRate := by
    by_contra outside
    unfold Ingress.handleEvent at accepted
    dsimp only at accepted
    rw [if_pos (by simpa using outside)] at accepted
    cases accepted
  obtain ⟨earlier, channelPasses, -⟩ := gates_of_refusal passes
  obtain ⟨channel, isChannel, -, passesZone⟩ := (channelGate_eq_none_iff isMessage).mp channelPasses
  refine ⟨channel, isChannel, ?_, ?_⟩
  · have allPass : (ingress.earlierGates submission.sessionAuthed submission.event
        submission.now).all Option.isNone := by
      rw [List.all_eq_true]
      intro gate isGate
      exact Option.isNone_iff_eq_none.mpr (earlier gate isGate)
    unfold Ingress.asksZone
    rw [withinRate, allPass, isMessage]
    exact isChannel
  · intro known isZone
    obtain ⟨admitted, ciphertext⟩ := boundZoneGate_eq_none_iff.mp (passesZone known isZone)
    exact ⟨ciphertext, admitted⟩

end

/-- A message that the relay accepts into a channel is ciphertext for the zone the
channel was bound to when the message came in, if that zone is encrypted, and its
author may write to the zone, unless the channel was bound to another zone within the
minute before. -/
theorem zones_hold_within_a_minute
    {trigger : TagTrigger}
    (ingress : Ingress)
    (start : RelayState trigger)
    (started : start.memo = .empty)
    (before past : List RelayInput)
    (submission : Submission)
    (cameIn : before ++ [.arrive submission] <+: past)
    (saves : Bool)
    (accepted : (ingress.reply (Lib.run (RelayState.step ingress) start past)
      (Lib.run (RelayState.step ingress) start before).arrivals.length saves).any
        fun answer => answer.1.accepted)
    (isMessage : submission.event.kind = 42) :
    ∃ channel, channelTag submission.event = some channel ∧
      ∀ zone, (Lib.run (RelayState.step ingress) start before).channelZones channel = some zone →
        (∀ earlier other, earlier <+: before →
          (Lib.run (RelayState.step ingress) start earlier).channelZones channel = some other →
          (Lib.run (RelayState.step ingress) start before).now <
            (Lib.run (RelayState.step ingress) start earlier).now + lookupTtlSecs →
          other = zone) →
        MayEnter ingress submission.event zone := by
  let state := Lib.run (RelayState.step ingress) start before
  let timed : Submission := { submission with now := state.now }
  let looked := (ingress.asksZone timed).bind fun channel => (state.cachedChannelZone channel).1
  -- the submission is still known as it came in
  have isKnown : ((Lib.run (RelayState.step ingress) start past).arrivals.map
      Arrival.known)[state.arrivals.length]? = some (timed, looked) := by
    obtain ⟨later, rfl⟩ := cameIn
    rw [Lib.run_append, Lib.run_append]
    have kept := known_run ingress (state.arrive ingress submission) later
    rw [known_arrive] at kept
    obtain ⟨rest, whole⟩ := kept
    change ((Lib.run (RelayState.step ingress) (state.arrive ingress submission) later).arrivals.map
      Arrival.known)[state.arrivals.length]? = some (timed, looked)
    rw [← whole, List.append_assoc, List.getElem?_append_right (by simp)]
    simp [timed, looked]
  obtain ⟨answer, isReply, accepted⟩ := (Option.any_eq_true _ _).mp accepted
  rw [submission_of_reply isReply isKnown] at accepted
  obtain ⟨channel, isChannel, asks, entered⟩ := zone_of_accepted accepted isMessage
  refine ⟨channel, isChannel, ?_⟩
  intro zone isBound alone
  have isLooked : looked = (state.cachedChannelZone channel).1 := by
    dsimp only [looked]
    rw [asks]
    rfl
  cases answered : (state.cachedChannelZone channel).1 with
  | none =>
      -- nothing is answered for a bound channel
      have unbound : state.channelZones channel = none := Lib.Memo.table_of_lookup_none answered
      rw [isBound] at unbound
      cases unbound
  | some known =>
      obtain ⟨earlier, isInitial, wasBound, young⟩ := cachedChannelZone_recent started answered
      have same := alone earlier known isInitial wasBound young
      subst same
      exact entered known (isLooked.trans answered)

/-- A relay whose kitchen channel is of the family. -/
def familyStart : RelayState .probeBlind :=
  .start (fun channel => if channel = "kitchen" then some "family" else none) .empty 100000000

theorem zones_hold_within_a_minute_family :
    (familyRelay.reply (Lib.run (RelayState.step familyRelay) familyStart
        [.arrive oldEnvelope, .wait 3]) 0 true).any (fun answer => answer.1.accepted) ∧
      MayEnter familyRelay oldEnvelope.event "family" := by
  have accepted : (familyRelay.reply (Lib.run (RelayState.step familyRelay) familyStart
      [.arrive oldEnvelope, .wait 3]) 0 true).any (fun answer => answer.1.accepted) := by
    decide +kernel
  refine ⟨accepted, ?_⟩
  obtain ⟨channel, isChannel, entered⟩ := zones_hold_within_a_minute familyRelay familyStart rfl
    [] [.arrive oldEnvelope, .wait 3] oldEnvelope (by simp) true accepted rfl
  have isKitchen : channelTag oldEnvelope.event = some "kitchen" := by decide +kernel
  rw [isKitchen] at isChannel
  cases isChannel
  refine entered "family" rfl ?_
  intro earlier other isInitial wasBound young
  rw [List.prefix_nil.mp isInitial] at wasBound
  exact (Option.some.inj wasBound).symm

/-- A relay with a lobby and an encrypted zone, and members of the lobby only. -/
def lobbyRelay : Ingress :=
  { familyRelay with
    zones := ⟨[⟨"lobby", ["lobby"], .lockedZone⟩, ⟨"family", ["family"], .lockedZone⟩]⟩
    writeZones := ⟨[⟨⟨"lobby", ["lobby"], .lockedZone⟩, none, false⟩,
      ⟨⟨"family", ["family"], .lockedZone⟩, none, true⟩], true⟩
    sameZones := rfl
    viewerCohorts := fun _ => (["lobby"], false) }

/-- A readable message of a member of the lobby. -/
def lobbyMessage : Submission where
  event :=
    { id := String.ofList (List.replicate 64 'e')
      pubkey := String.ofList (List.replicate 64 'c')
      createdAt := 100000000
      kind := 42
      tags := [["e", "c0ffee", "", "root"]]
      content := "dinner at eight"
      sig := String.ofList (List.replicate 128 'f') }
  withinRate := true
  sessionAuthed := true
  now := 100000000

/-- A channel is read while it is of the lobby and then bound to the family. -/
def lobbyThenFamily : List RelayInput :=
  [.upsert ⟨true, some "c0ffee", some "lobby"⟩, .read "c0ffee",
    .upsert ⟨true, some "c0ffee", some "family"⟩, .arrive lobbyMessage]

/-- The message enters the channel while that is bound to an encrypted zone: it is
readable, and its author may not write to the zone. -/
theorem rebound_channel_admits :
    let state := Lib.run (RelayState.step lobbyRelay)
      (RelayState.start (fun _ => none) (Store.empty : Store .probeBlind) 100000000)
      lobbyThenFamily
    (lobbyRelay.reply state 0 true).any (fun answer => answer.1.accepted) ∧
      channelTag lobbyMessage.event = some "c0ffee" ∧
      state.channelZones "c0ffee" = some "family" ∧
      lobbyRelay.writeZones.isEncrypted "family" ∧
      isZoneCiphertext lobbyRelay.decodeBase64 "family" lobbyMessage.event.tags
        lobbyMessage.event.content = false ∧
      lobbyRelay.isAdmin lobbyMessage.event.pubkey = false ∧
      lobbyRelay.hasZoneWriteAccess (lobbyRelay.principalOf lobbyMessage.event) "family" =
        false := by
  decide +kernel

end Relay
end NostrBbs
