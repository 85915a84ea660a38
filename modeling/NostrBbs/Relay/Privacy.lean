import NostrBbs.Relay.Delivery

/-!
# Correspondence stays between its parties

No read path hands an encrypted message, a seal, a private message or a gift
wrap to a session that is not authenticated as its author or as one of the
recipients its `p` tags name.  Keys are hexadecimal texts, so they are the same
key up to letter case.
-/

namespace NostrBbs
namespace Relay

/-- A viewer is authenticated as the author or a recipient of an event. -/
def partyTo (viewer : Option String) (event : NostrEvent) : Bool :=
  viewer.any (isParty event.pubkey (recipients event))

/-- An event that a viewer may not have from any read path. -/
def withheldFrom (viewer : Option String) (event : NostrEvent) : Bool :=
  isCorrespondenceKind event.kind && !partyTo viewer event

theorem isProtectedReadKind_of_correspondence
    {kind : Nat}
    (correspondence : isCorrespondenceKind kind) :
    isProtectedReadKind kind := by
  simp only [isCorrespondenceKind, Bool.or_eq_true, beq_iff_eq] at correspondence
  rcases correspondence with ((rfl | rfl) | rfl) | rfl <;> rfl

/-- The kind gate of correspondence is the party rule, in every mode. -/
theorem protectedReadPermitted_correspondence
    {event : NostrEvent}
    (correspondence : isCorrespondenceKind event.kind)
    (viewer : Option String)
    (mode : AuthMode) :
    protectedReadPermitted event.kind event.pubkey (recipients event) viewer mode =
      partyTo viewer event := by
  simp [protectedReadPermitted, isProtectedReadKind_of_correspondence correspondence,
    correspondence, partyTo]

theorem not_calendar_of_correspondence
    {kind : Nat}
    (correspondence : isCorrespondenceKind kind) :
    isProjectedCalendarKind kind = false := by
  simp only [isCorrespondenceKind, Bool.or_eq_true, beq_iff_eq] at correspondence
  rcases correspondence with ((rfl | rfl) | rfl) | rfl <;> rfl

section

variable {deployment : Deployment} {viewer : Option String} {event out : NostrEvent}

/-! ## The read decision -/

/-- Only a calendar event is ever sent in another form, of the same kind. -/
theorem form_of_authorizeEvent
    {context : ViewerContext}
    (sent : (deployment.authorizeEvent event context).sent event = some out) :
    out.kind = event.kind ∧ (isProjectedCalendarKind event.kind = false → out = event) := by
  rcases form_cases sent with rfl | ⟨calendar, rfl⟩
  · exact ⟨rfl, fun _ => rfl⟩
  · exact ⟨rfl, fun notCalendar => by simp [calendar] at notCalendar⟩

theorem partyTo_of_authorizeEvent
    (correspondence : isCorrespondenceKind event.kind)
    (sent : (deployment.authorizeEvent event
      (deployment.resolveViewerContext viewer)).sent event = some out) :
    partyTo viewer event := by
  unfold Deployment.authorizeEvent at sent
  split at sent
  · cases sent
  · rename_i permitted
    have sameViewer : (deployment.resolveViewerContext viewer).sessionPubkey = viewer := rfl
    rw [sameViewer, protectedReadPermitted_correspondence correspondence] at permitted
    simpa using permitted

/-- A row that is read is one that its viewer may have. -/
theorem readable_of_readDecision
    (sent : (deployment.readDecision viewer event).sent event = some out) :
    withheldFrom viewer event = false := by
  unfold Deployment.readDecision at sent
  split at sent
  · cases correspondence : isCorrespondenceKind event.kind with
    | false => simp [withheldFrom, correspondence]
    | true =>
        have party := partyTo_of_authorizeEvent correspondence sent
        simp [withheldFrom, party]
  · cases sent

/-- The form in which a row is read is withheld from nobody who reads it. -/
theorem readable_form_of_readDecision
    (sent : (deployment.readDecision viewer event).sent event = some out) :
    withheldFrom viewer out = false := by
  cases correspondence : isCorrespondenceKind out.kind with
  | false => simp [withheldFrom, correspondence]
  | true =>
      have readable := readable_of_readDecision sent
      unfold Deployment.readDecision at sent
      split at sent
      · obtain ⟨sameKind, sameForm⟩ := form_of_authorizeEvent sent
        rw [sameKind] at correspondence
        rw [sameForm (not_calendar_of_correspondence correspondence)]
        exact readable
      · cases sent

/-- The form in which an event is broadcast is withheld from nobody it reaches. -/
theorem readable_form_of_broadcastForm
    (sent : deployment.broadcastForm viewer event = some out) :
    withheldFrom viewer out = false := by
  cases correspondence : isCorrespondenceKind out.kind with
  | false => simp [withheldFrom, correspondence]
  | true =>
      unfold Deployment.broadcastForm at sent
      split at sent
      · cases sent
      · rename_i permitted
        split at sent
        · cases sent
        · have sameForm : out = event := by
            split at sent
            · obtain ⟨sameKind, sameForm⟩ := form_of_authorizeEvent sent
              rw [sameKind] at correspondence
              exact sameForm (not_calendar_of_correspondence correspondence)
            · exact (Option.some.inj sent).symm
          rw [sameForm] at correspondence ⊢
          rw [protectedReadPermitted_correspondence correspondence] at permitted
          have party : partyTo viewer event = true := by simpa using permitted
          simp [withheldFrom, party]

/-! ## The read paths -/

/-- COUNT never counts a row that is withheld from its viewer. -/
theorem handleCount_filter
    (filters : List NostrFilter)
    (query : List NostrFilter → List NostrEvent) :
    deployment.handleCount viewer filters
        (fun gated => (query gated).filter fun event => !withheldFrom viewer event) =
      deployment.handleCount viewer filters query := by
  unfold Deployment.handleCount
  split
  · rfl
  · split
    · rfl
    · rw [List.countP_filter]
      apply List.countP_congr
      intro event _
      simp only [Bool.and_eq_true, Bool.not_eq_true', and_iff_left_iff_imp]
      intro counted
      obtain ⟨out, sent⟩ := Option.isSome_iff_exists.mp counted
      exact readable_of_readDecision sent

end

/-- Correspondence reaches a session only as one of its parties, by REQ, by
broadcast and in a COUNT. -/
structure Deployment.CorrespondencePrivate (deployment : Deployment) : Prop where
  req : ∀ viewer filters query,
    ∀ out ∈ (deployment.handleReq viewer filters query).delivered,
      isCorrespondenceKind out.kind → partyTo viewer out
  broadcast : ∀ sessions event, ∀ session ∈ sessions.entries,
    ∀ frame ∈ deployment.broadcastEvent sessions event,
      frame.connection = session.connection → isCorrespondenceKind frame.event.kind →
      partyTo session.authedPubkey frame.event
  count : ∀ viewer filters query,
    deployment.handleCount viewer filters query =
      deployment.handleCount viewer filters fun gated => (query gated).filter fun event =>
        !isCorrespondenceKind event.kind || partyTo viewer event

theorem partyTo_of_not_withheld
    {viewer : Option String}
    {event : NostrEvent}
    (readable : withheldFrom viewer event = false)
    (correspondence : isCorrespondenceKind event.kind) :
    partyTo viewer event := by
  simpa [withheldFrom, correspondence] using readable

/-- Whatever the filters, the session and the mode, correspondence is private. -/
theorem correspondence_private
    (deployment : Deployment) :
    deployment.CorrespondencePrivate where
  req := by
    intro viewer filters query out delivered correspondence
    obtain ⟨gated, _, event, _, sent⟩ := mem_delivered.mp delivered
    exact partyTo_of_not_withheld (readable_form_of_readDecision sent) correspondence
  broadcast := by
    intro sessions event session isSession frame isFrame sameConnection correspondence
    refine partyTo_of_not_withheld ?_ correspondence
    obtain ⟨other, isOther, reached⟩ := List.mem_flatMap.mp isFrame
    obtain ⟨toOther, sent, _⟩ := mem_broadcastTo.mp reached
    have same : session = other :=
      List.inj_on_of_nodup_map sessions.distinct isSession isOther (sameConnection.symm.trans toOther)
    rw [same]
    exact readable_form_of_broadcastForm sent
  count := by
    intro viewer filters query
    rw [← handleCount_filter filters query]
    congr 1
    funext gated
    apply List.filter_congr
    intro event _
    cases correspondence : isCorrespondenceKind event.kind <;>
      simp [withheldFrom, correspondence]

end Relay
end NostrBbs
