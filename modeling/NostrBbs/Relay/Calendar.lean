import NostrBbs.Relay.Admission

/-!
# Calendar visibility

What a viewer's cohorts give of a calendar event, compared over growing cohorts, and what a
member who may answer an event is served of the answer and of the event.
-/

namespace NostrBbs
namespace Relay

/-! ## Tiers -/

/-- The cohorts that see a zone's calendar events in full.  Friends are asked about before
the business cohort. -/
def FullCohorts (cohorts : List String) (zone : String) : Prop :=
  "admin" ∈ cohorts ∨ "family" ∈ cohorts ∨ zone = "public" ∨
    ("friends" ∈ cohorts ∧ zone = "friends") ∨
    ("business" ∈ cohorts ∧ "friends" ∉ cohorts ∧ zone = "business")

theorem projectTier_eq_full_iff
    {cohorts : List String}
    {zone : String}
    {venue : Option String}
    {isOwner isAdmin : Bool} :
    projectTier cohorts zone venue isOwner isAdmin = .full ↔
      isOwner = true ∨ isAdmin = true ∨ FullCohorts cohorts zone := by
  unfold projectTier FullCohorts
  simp only [List.contains_iff_mem, Bool.or_eq_true]
  grind

theorem projectTier_eq_freeBusy_iff
    {cohorts : List String}
    {zone : String}
    {venue : Option String}
    {isOwner isAdmin : Bool} :
    projectTier cohorts zone venue isOwner isAdmin = .freeBusy ↔
      isOwner = false ∧ isAdmin = false ∧ ¬FullCohorts cohorts zone ∧ "friends" ∈ cohorts ∧
        (zone = "family" ∨ zone = "business") ∧ venue.any isKnownVenue = true := by
  unfold projectTier FullCohorts
  simp only [List.contains_iff_mem, Bool.or_eq_true]
  grind

/-- A viewer with the business cohort gains the friends cohort, and neither of those that see
everything. -/
def FriendsShadowBusiness (held more : List String) : Prop :=
  "business" ∈ held ∧ "friends" ∉ held ∧ "friends" ∈ more ∧ "admin" ∉ more ∧ "family" ∉ more

theorem fullCohorts_mono_iff
    {held more : List String}
    {zone : String}
    (included : ∀ cohort ∈ held, cohort ∈ more)
    (full : FullCohorts held zone) :
    FullCohorts more zone ↔ ¬(zone = "business" ∧ FriendsShadowBusiness held more) := by
  have admin := included "admin"
  have family := included "family"
  have friends := included "friends"
  have business := included "business"
  unfold FullCohorts FriendsShadowBusiness at *
  grind

/-! ## Growing cohorts -/

/-- What is served of an event at a tier. -/
def Projection.served (event : NostrEvent) : Projection → Option NostrEvent
  | full => some event
  | freeBusy => some (toFreeBusy event)
  | «omit» => none

theorem projectCalendarEvent_eq
    (cohorts : List String)
    (event : NostrEvent)
    (isOwner isAdmin : Bool) :
    projectCalendarEvent cohorts event isOwner isAdmin =
      (readZoneTag event).elim (some event) fun zone =>
        (projectTier cohorts zone (readVenueTag event) isOwner isAdmin).served event := by
  unfold projectCalendarEvent
  cases readZoneTag event with
  | none => rfl
  | some zone =>
      dsimp only [Option.elim]
      cases projectTier cohorts zone (readVenueTag event) isOwner isAdmin with
      | full => rfl
      | freeBusy => rfl
      | «omit» => rfl

/-- What one viewer is served of an event is at least what another one is. -/
def ServedAtLeast (event : NostrEvent) (least served : Option NostrEvent) : Prop :=
  least = none ∨ served = some event ∨ least = served

/-- The block that is served in place of an event is another one. -/
def Redacts (event : NostrEvent) : Prop :=
  (readVenueTag event).any isKnownVenue = true → toFreeBusy event ≠ event

/-- A friends cohort hides an event of the business zone from a viewer who saw it. -/
def Shadowed (event : NostrEvent) (held more : List String) (isOwner isAdmin : Bool) : Prop :=
  isOwner = false ∧ isAdmin = false ∧ readZoneTag event = some "business" ∧
    FriendsShadowBusiness held more ∧ Redacts event

/-- A viewer who saw an event of the business zone and gains the friends cohort is served the
block in its place, or nothing. -/
theorem not_servedAtLeast_of_shadow
    {event : NostrEvent}
    {held more : List String}
    (shadow : FriendsShadowBusiness held more) :
    (some event = none ∨ (projectTier more "business" (readVenueTag event) false false).served
        event = some event ∨
      some event = (projectTier more "business" (readVenueTag event) false false).served event) ↔
      ¬Redacts event := by
  obtain ⟨-, -, friends, noAdmin, noFamily⟩ := shadow
  have notFull : ¬FullCohorts more "business" := by
    unfold FullCohorts
    grind
  unfold Redacts
  by_cases known : (readVenueTag event).any isKnownVenue = true
  · have tier : projectTier more "business" (readVenueTag event) false false = .freeBusy :=
      projectTier_eq_freeBusy_iff.mpr ⟨rfl, rfl, notFull, friends, .inr rfl, known⟩
    rw [tier]
    unfold Projection.served
    simp only [known, true_implies, ne_eq, not_not, Option.some.injEq, reduceCtorEq, false_or]
    constructor
    · rintro (same | same)
      · exact same
      · exact same.symm
    · exact .inl
  · have tier : projectTier more "business" (readVenueTag event) false false = .«omit» := by
      cases tier : projectTier more "business" (readVenueTag event) false false with
      | full =>
          rcases projectTier_eq_full_iff.mp tier with owner | admin | full
          · cases owner
          · cases admin
          · exact absurd full notFull
      | freeBusy => exact absurd (projectTier_eq_freeBusy_iff.mp tier).2.2.2.2.2 known
      | «omit» => rfl
    rw [tier]
    unfold Projection.served
    simp only [known, false_implies, not_true_eq_false, reduceCtorEq, or_false]

theorem servedAtLeast_iff
    {event : NostrEvent}
    {held more : List String}
    (isOwner isAdmin : Bool)
    (included : ∀ cohort ∈ held, cohort ∈ more) :
    ServedAtLeast event (projectCalendarEvent held event isOwner isAdmin)
        (projectCalendarEvent more event isOwner isAdmin) ↔
      ¬Shadowed event held more isOwner isAdmin := by
  unfold Shadowed
  rw [projectCalendarEvent_eq, projectCalendarEvent_eq]
  cases zoned : readZoneTag event with
  | none =>
      refine iff_of_true (.inr (.inl rfl)) ?_
      rintro ⟨-, -, isBusiness, -⟩
      cases isBusiness
  | some zone =>
      dsimp only [Option.elim]
      cases heldTier : projectTier held zone (readVenueTag event) isOwner isAdmin with
      | «omit» =>
          refine iff_of_true (.inl rfl) ?_
          rintro ⟨-, -, isBusiness, ⟨business, noFriends, -⟩, -⟩
          have full : FullCohorts held zone :=
            .inr (.inr (.inr (.inr ⟨business, noFriends, Option.some.inj isBusiness⟩)))
          rw [projectTier_eq_full_iff.mpr (.inr (.inr full))] at heldTier
          cases heldTier
      | freeBusy =>
          obtain ⟨notOwner, notAdmin, -, friends, isShared, known⟩ :=
            projectTier_eq_freeBusy_iff.mp heldTier
          refine iff_of_true ?_ (fun shadowed => shadowed.2.2.2.1.2.1 friends)
          by_cases full : FullCohorts more zone
          · rw [projectTier_eq_full_iff.mpr (.inr (.inr full))]
            exact .inr (.inl rfl)
          · rw [projectTier_eq_freeBusy_iff.mpr
              ⟨notOwner, notAdmin, full, included _ friends, isShared, known⟩]
            exact .inr (.inr rfl)
      | full =>
          by_cases fullMore :
              projectTier more zone (readVenueTag event) isOwner isAdmin = .full
          · rw [fullMore]
            refine iff_of_true (.inr (.inl rfl)) ?_
            rintro ⟨notOwner, notAdmin, isBusiness, ⟨-, -, friends, noAdmin, noFamily⟩, -⟩
            rcases projectTier_eq_full_iff.mp fullMore with owner | admin | full
            · rw [notOwner] at owner
              cases owner
            · rw [notAdmin] at admin
              cases admin
            · rw [Option.some.inj isBusiness] at full
              unfold FullCohorts at full
              grind
          · rw [projectTier_eq_full_iff, not_or, not_or, Bool.not_eq_true, Bool.not_eq_true]
              at fullMore
            obtain ⟨notOwner, notAdmin, notFull⟩ := fullMore
            subst notOwner
            subst notAdmin
            have fullHeld : FullCohorts held zone := by
              rcases projectTier_eq_full_iff.mp heldTier with owner | admin | full
              · cases owner
              · cases admin
              · exact full
            have shadow := not_not.mp (mt (fullCohorts_mono_iff included fullHeld).mpr notFull)
            rw [shadow.1]
            unfold ServedAtLeast
            rw [show Projection.served event .full = some event from rfl,
              not_servedAtLeast_of_shadow shadow.2]
            refine not_congr ⟨fun redacts => ⟨rfl, rfl, rfl, shadow.2, redacts⟩, ?_⟩
            rintro ⟨-, -, -, -, redacts⟩
            exact redacts

/-! ## Answers -/

theorem protectedReadPermitted_of_unprotected
    {kind : Nat}
    (unprotected : isProtectedReadKind kind = false)
    (author : String)
    (recipients : List String)
    (sessionPubkey : Option String)
    (mode : AuthMode) :
    protectedReadPermitted kind author recipients sessionPubkey mode = true := by
  unfold protectedReadPermitted
  rw [unprotected]
  rfl

namespace Deployment

variable (deployment : Deployment)

/-- A calendar event is read as it is projected. -/
theorem sent_of_calendar
    {event : NostrEvent}
    (context : ViewerContext)
    (isCalendar : event.kind = kindCalendarDateEvent ∨ event.kind = kindCalendarEvent) :
    (deployment.authorizeEvent event context).sent event =
      projectCalendarEvent context.viewerCohorts event
        (context.sessionPubkey == some event.pubkey) context.viewerIsAdmin := by
  obtain ⟨unprotected, projected, notRsvp⟩ : isProtectedReadKind event.kind = false ∧
      isProjectedCalendarKind event.kind = true ∧ event.kind ≠ kindCalendarRsvp := by
    rcases isCalendar with isKind | isKind
    · rw [isKind]
      decide
    · rw [isKind]
      decide
  have permitted := protectedReadPermitted_of_unprotected unprotected event.pubkey
    (recipients event) context.sessionPubkey deployment.authMode
  unfold authorizeEvent projectCalendarForViewer
  rw [permitted, Bool.not_true, if_neg Bool.false_ne_true, if_pos projected, if_neg notRsvp]
  cases projectCalendarEvent context.viewerCohorts event
      (context.sessionPubkey == some event.pubkey) context.viewerIsAdmin with
  | none => rfl
  | some out => rfl

/-- An answer is read by those who see the event that it answers in full. -/
theorem sent_of_rsvp
    {rsvp : NostrEvent}
    (context : ViewerContext)
    (isRsvp : rsvp.kind = kindCalendarRsvp) :
    (deployment.authorizeEvent rsvp context).sent rsvp =
      deployment.projectCalendarForViewer rsvp context := by
  obtain ⟨unprotected, projected⟩ : isProtectedReadKind rsvp.kind = false ∧
      isProjectedCalendarKind rsvp.kind = true := by
    rw [isRsvp]
    decide
  have permitted := protectedReadPermitted_of_unprotected unprotected rsvp.pubkey
    (recipients rsvp) context.sessionPubkey deployment.authMode
  unfold authorizeEvent
  rw [permitted, Bool.not_true, if_neg Bool.false_ne_true, if_pos projected]
  cases deployment.projectCalendarForViewer rsvp context with
  | none => rfl
  | some out => rfl

/-- An answer names a stored event. -/
def Answers (rsvp target : NostrEvent) : Prop :=
  rsvp.kind = kindCalendarRsvp ∧
    (target.kind = kindCalendarDateEvent ∨ target.kind = kindCalendarEvent) ∧
    (tagValue rsvp "e").bind deployment.storedTags = some target.tags

variable {deployment} {rsvp target : NostrEvent}

theorem resolveRsvpTarget_of_answers
    (answers : deployment.Answers rsvp target) :
    deployment.resolveRsvpTarget rsvp =
      (readZoneTag target).map fun zone => (zone, readVenueTag target) := by
  obtain ⟨-, -, stored⟩ := answers
  unfold resolveRsvpTarget readZoneTag readVenueTag
  cases named : tagValue rsvp "e" with
  | none =>
      rw [named] at stored
      cases stored
  | some targetId =>
      rw [named, Option.bind_some] at stored
      unfold tagValue
      cases zoned : target.tags.find? (isValued "zone") with
      | none => simp [stored, zoned]
      | some tag => simp [stored, zoned]

/-- Who sees the answered event in full sees the answer, whoever signed it. -/
theorem projectCalendarForViewer_of_full
    {context : ViewerContext}
    {zone : String}
    (answers : deployment.Answers rsvp target)
    (zoned : readZoneTag target = some zone)
    (full : context.viewerIsAdmin = true ∨ FullCohorts context.viewerCohorts zone) :
    deployment.projectCalendarForViewer rsvp context = some rsvp := by
  unfold projectCalendarForViewer
  rw [if_pos answers.1, resolveRsvpTarget_of_answers answers, zoned]
  exact if_pos (projectTier_eq_full_iff.mpr (.inr full))

/-- An answer is shown to the key that signed it. -/
theorem projectCalendarForViewer_own
    {context : ViewerContext}
    (isRsvp : rsvp.kind = kindCalendarRsvp)
    (isOwn : context.sessionPubkey = some rsvp.pubkey) :
    deployment.projectCalendarForViewer rsvp context = some rsvp := by
  have own : (context.sessionPubkey == some rsvp.pubkey) = true := beq_iff_eq.mpr isOwn
  unfold projectCalendarForViewer
  rw [if_pos isRsvp, own]
  cases deployment.resolveRsvpTarget rsvp with
  | none =>
      dsimp only
      rw [Bool.or_true, if_pos rfl]
  | some resolved => exact if_pos (projectTier_eq_full_iff.mpr (.inl rfl))

end Deployment

/-- A calendar event is not served as it is exactly when it has a zone whose full cohorts the
viewer is none of, and the viewer is neither its author nor an administrator, unless its block
is the event itself. -/
theorem projectCalendarEvent_ne_some_iff
    {cohorts : List String}
    {event : NostrEvent}
    {isOwner isAdmin : Bool} :
    projectCalendarEvent cohorts event isOwner isAdmin ≠ some event ↔
      isOwner = false ∧ isAdmin = false ∧ ∃ zone, readZoneTag event = some zone ∧
        ¬FullCohorts cohorts zone ∧
        (projectTier cohorts zone (readVenueTag event) isOwner isAdmin = .freeBusy →
          toFreeBusy event ≠ event) := by
  rw [projectCalendarEvent_eq]
  cases zoned : readZoneTag event with
  | none =>
      refine iff_of_false (fun differs => differs rfl) ?_
      rintro ⟨-, -, _, isZone, -⟩
      cases isZone
  | some zone =>
      have fullTier : projectTier cohorts zone (readVenueTag event) isOwner isAdmin = .full ↔ _ :=
        projectTier_eq_full_iff
      simp only [Option.elim, Option.some.injEq, exists_eq_left']
      cases tier : projectTier cohorts zone (readVenueTag event) isOwner isAdmin with
      | full =>
          refine iff_of_false (fun differs => differs rfl) ?_
          rintro ⟨notOwner, notAdmin, notFull, -⟩
          rcases fullTier.mp tier with owner | admin | full
          · rw [notOwner] at owner
            cases owner
          · rw [notAdmin] at admin
            cases admin
          · exact notFull full
      | freeBusy =>
          obtain ⟨notOwner, notAdmin, notFull, -⟩ := projectTier_eq_freeBusy_iff.mp tier
          unfold Projection.served
          simp only [notOwner, notAdmin, notFull, ne_eq, Option.some.injEq, not_false_eq_true,
            true_and, true_implies]
      | «omit» =>
          have notFull := mt fullTier.mpr (by rw [tier]; exact Projection.noConfusion)
          rw [not_or, not_or, Bool.not_eq_true, Bool.not_eq_true] at notFull
          refine iff_of_true (fun same => by cases same)
            ⟨notFull.1, notFull.2.1, notFull.2.2, fun isBusy => by cases isBusy⟩

/-! ## Members who may answer -/

namespace Ingress

variable {ingress : Ingress} {rsvp target : NostrEvent}

/-- An answer that is admitted of a key that is no administrator's answers an event that its
member sees in full. -/
theorem full_of_admitted
    (answers : ingress.Answers rsvp target)
    (notAdmin : ingress.isAdmin rsvp.pubkey = false)
    (admitted : ingress.calendarGate rsvp = none) :
    ∃ zone, readZoneTag target = some zone ∧
      ((ingress.viewerCohorts (ingress.effectivePubkey rsvp.pubkey)).2 = true ∨
        FullCohorts (ingress.viewerCohorts (ingress.effectivePubkey rsvp.pubkey)).1 zone) := by
  have principal : ingress.principalOf rsvp = ingress.effectivePubkey rsvp.pubkey := by
    unfold principalOf
    rw [answers.1]
    rfl
  unfold calendarGate at admitted
  rw [notAdmin, if_neg Bool.false_ne_true, if_pos answers.1,
    Deployment.resolveRsvpTarget_of_answers answers, principal] at admitted
  dsimp only at admitted
  split at admitted
  · rename_i permitted
    cases zoned : readZoneTag target with
    | none =>
        rw [zoned] at permitted
        cases permitted
    | some zone =>
        rw [zoned] at permitted
        refine ⟨zone, rfl, ?_⟩
        have tier := projectTier_eq_full_iff.mp (beq_iff_eq.mp permitted)
        rcases tier with owner | seen
        · cases owner
        · exact seen
  · cases admitted

/-- What a session of the member that a key acts for sees. -/
theorem context_of_sameMember
    {session : String}
    (sameMember : ingress.effectivePubkey session = ingress.effectivePubkey rsvp.pubkey) :
    (ingress.resolveViewerContext (some session)).viewerCohorts =
        (ingress.viewerCohorts (ingress.effectivePubkey rsvp.pubkey)).1 ∧
      (ingress.resolveViewerContext (some session)).viewerIsAdmin =
        (ingress.isAdmin (ingress.effectivePubkey rsvp.pubkey) ||
          (ingress.viewerCohorts (ingress.effectivePubkey rsvp.pubkey)).2) := by
  rw [← sameMember]
  exact ⟨rfl, rfl⟩

/-- An answer and the event that it answers are both served as they are. -/
def ServesBoth (ingress : Ingress) (rsvp target : NostrEvent) (session : String) : Prop :=
  (ingress.authorizeEvent rsvp (ingress.resolveViewerContext (some session))).sent rsvp =
      some rsvp ∧
    (ingress.authorizeEvent target (ingress.resolveViewerContext (some session))).sent target =
      some target

/-- An administrator's key that acts for a member who is none answers an event of somebody
else that the member does not see in full. -/
def AnswersAside (ingress : Ingress) (rsvp target : NostrEvent) : Prop :=
  ingress.isAdmin rsvp.pubkey = true ∧
    ingress.isAdmin (ingress.effectivePubkey rsvp.pubkey) = false ∧
    (ingress.viewerCohorts (ingress.effectivePubkey rsvp.pubkey)).2 = false ∧
    target.pubkey ≠ rsvp.pubkey ∧
    ∃ zone, readZoneTag target = some zone ∧
      ¬FullCohorts (ingress.viewerCohorts (ingress.effectivePubkey rsvp.pubkey)).1 zone ∧
      (projectTier (ingress.viewerCohorts (ingress.effectivePubkey rsvp.pubkey)).1 zone
          (readVenueTag target) false false = .freeBusy → toFreeBusy target ≠ target)

/-- Every session of a member whose answer is admitted is served the answer and the event, when
no administrator's key signed it. -/
theorem servesBoth_of_admitted
    {session : String}
    (answers : ingress.Answers rsvp target)
    (notAdmin : ingress.isAdmin rsvp.pubkey = false)
    (admitted : ingress.calendarGate rsvp = none)
    (sameMember : ingress.effectivePubkey session = ingress.effectivePubkey rsvp.pubkey) :
    ingress.ServesBoth rsvp target session := by
  obtain ⟨zone, zoned, seen⟩ := full_of_admitted answers notAdmin admitted
  obtain ⟨cohorts, viewerIsAdmin⟩ := context_of_sameMember sameMember
  have full : (ingress.resolveViewerContext (some session)).viewerIsAdmin = true ∨
      FullCohorts (ingress.resolveViewerContext (some session)).viewerCohorts zone := by
    rw [cohorts, viewerIsAdmin]
    rcases seen with cohortAdmin | isFull
    · exact .inl (by rw [cohortAdmin, Bool.or_true])
    · exact .inr isFull
  refine ⟨?_, ?_⟩
  · rw [Deployment.sent_of_rsvp _ _ answers.1]
    exact Deployment.projectCalendarForViewer_of_full answers zoned full
  · rw [Deployment.sent_of_calendar _ _ answers.2.1, projectCalendarEvent_eq, zoned]
    dsimp only [Option.elim]
    rw [projectTier_eq_full_iff.mpr (.inr full)]
    rfl

/-- The key that signed an admitted answer is served it, and the event unless the key is an
administrator's that acts for somebody else. -/
theorem servesBoth_iff
    (answers : ingress.Answers rsvp target)
    (admitted : ingress.calendarGate rsvp = none) :
    ingress.ServesBoth rsvp target rsvp.pubkey ↔ ¬ingress.AnswersAside rsvp target := by
  cases isAdmin : ingress.isAdmin rsvp.pubkey with
  | false =>
      refine iff_of_true (servesBoth_of_admitted answers isAdmin admitted rfl) ?_
      rintro ⟨admin, -⟩
      rw [isAdmin] at admin
      cases admin
  | true =>
      obtain ⟨cohorts, viewerIsAdmin⟩ :
          (ingress.resolveViewerContext (some rsvp.pubkey)).viewerCohorts = _ ∧
            (ingress.resolveViewerContext (some rsvp.pubkey)).viewerIsAdmin = _ :=
        context_of_sameMember rfl
      have own : ((ingress.resolveViewerContext (some rsvp.pubkey)).sessionPubkey ==
          some target.pubkey) = decide (rsvp.pubkey = target.pubkey) := by
        by_cases same : rsvp.pubkey = target.pubkey
        · rw [decide_eq_true same, ← same]
          exact beq_self_eq_true _
        · rw [decide_eq_false same]
          exact beq_eq_false_iff_ne.mpr fun both => same (Option.some.inj both)
      unfold ServesBoth AnswersAside
      rw [Deployment.sent_of_rsvp _ _ answers.1,
        Deployment.projectCalendarForViewer_own answers.1 rfl,
        Deployment.sent_of_calendar _ _ answers.2.1, ← not_iff_not, not_not, not_and, imp_iff_right rfl,
        ← ne_eq, projectCalendarEvent_ne_some_iff, cohorts, viewerIsAdmin, own,
        decide_eq_false_iff_not, Bool.or_eq_false_iff]
      constructor
      · rintro ⟨notOwn, ⟨notAdmin, noCohortAdmin⟩, zone, zoned, notFull, redacts⟩
        rw [decide_eq_false notOwn, notAdmin, noCohortAdmin, Bool.or_false] at redacts
        exact ⟨isAdmin, notAdmin, noCohortAdmin, Ne.symm notOwn, zone, zoned, notFull, redacts⟩
      · rintro ⟨-, notAdmin, noCohortAdmin, notOwn, zone, zoned, notFull, redacts⟩
        refine ⟨Ne.symm notOwn, ⟨notAdmin, noCohortAdmin⟩, zone, zoned, notFull, ?_⟩
        rw [decide_eq_false (Ne.symm notOwn), notAdmin, noCohortAdmin, Bool.or_false]
        exact redacts

end Ingress

/-- A viewer with more cohorts is served at least what one with fewer is, except for an event
of the business zone when the friends cohort joins the business one; and who answers an event
is served the answer and the event, except for an administrator's key that acts for a member
who does not see it. -/
theorem calendar_visible_iff
    (event : NostrEvent)
    (held more : List String)
    (isOwner isAdmin : Bool) :
    ((∀ cohort ∈ held, cohort ∈ more) →
      (ServedAtLeast event (projectCalendarEvent held event isOwner isAdmin)
          (projectCalendarEvent more event isOwner isAdmin) ↔
        ¬Shadowed event held more isOwner isAdmin)) ∧
    ∀ (ingress : Ingress) (rsvp target : NostrEvent),
      ingress.Answers rsvp target → ingress.calendarGate rsvp = none →
        (ingress.ServesBoth rsvp target rsvp.pubkey ↔ ¬ingress.AnswersAside rsvp target) ∧
        ∀ session, ingress.effectivePubkey session = ingress.effectivePubkey rsvp.pubkey →
          ingress.isAdmin rsvp.pubkey = false → ingress.ServesBoth rsvp target session :=
  ⟨fun included => servedAtLeast_iff isOwner isAdmin included,
    fun _ _ _ answers admitted => ⟨Ingress.servesBoth_iff answers admitted,
      fun _ sameMember notAdmin =>
        Ingress.servesBoth_of_admitted answers notAdmin admitted sameMember⟩⟩

/-- A meeting of the business zone. -/
def businessMeeting : NostrEvent where
  id := "meeting"
  pubkey := "chair"
  createdAt := 0
  kind := kindCalendarEvent
  tags := [["zone", "business"], ["venue", "primary"]]
  content := "budget"
  sig := "signature"

/-- Its viewer may gain the family cohort. -/
theorem calendar_visible_family :
    ServedAtLeast businessMeeting
      (projectCalendarEvent ["business"] businessMeeting false false)
      (projectCalendarEvent ["business", "family"] businessMeeting false false) :=
  ((calendar_visible_iff businessMeeting ["business"] ["business", "family"] false false).1
    (by decide)).mpr fun shadowed => absurd shadowed.2.2.2.1.2.2.1 (by decide)

/-- A business viewer who gains the friends cohort loses the meeting. -/
theorem friends_lose_meeting :
    (∀ cohort ∈ ["business"], cohort ∈ ["business", "friends"]) ∧
      ¬ServedAtLeast businessMeeting
        (projectCalendarEvent ["business"] businessMeeting false false)
        (projectCalendarEvent ["business", "friends"] businessMeeting false false) :=
  ⟨by decide, by unfold ServedAtLeast; decide⟩

end Relay
end NostrBbs
