import NostrBbs.Governance.Slices

/-!
# Governance events at the relay

The gates that a governance event passes, and the projection that follows its storage.
A slice within a character stops both, and a signed event may cite what it likes.
-/

namespace NostrBbs
namespace Governance

open Relay (JsonValue NostrEvent Tag tagValue)

/-! ## Gates -/

/-- What the environment and the tables answer while an event is handled. -/
structure World where
  isAdmin : Bool
  isRegisteredAgent : Bool
  isReviewer : Bool
  isDelegated : Bool
  /-- The persisted tier of the case that a response decides. -/
  caseTier : Option RiskTier
  /-- The database is bound. -/
  hasDatabase : Bool
  /-- The decision of an id, as the gate reads it. -/
  decision : String → Option SupersededDecisionRow
  ranks : String → Nat
  /-- The event passes the other gates and is saved. -/
  isSaved : Bool
  panelTags : Option (List Tag)
  advertisedDefault : RiskTier
  isCalibrationSample : Sampling
  /-- What each operation of a projection finds. -/
  situations : Nat → Situation

def isGovernanceKind (kind : Nat) : Bool :=
  31400 ≤ kind && kind ≤ 31405

/-- A member's request to move a card. -/
def isKanbanApprovalRequest (event : NostrEvent) : Bool :=
  event.kind == kindActionRequest &&
    event.tags.any fun tag => Relay.isValued "k" tag && Relay.firstValue tag == "30302"

inductive ResponseAdmission
  | admitted
  | blockedNotAuthorised
  | blockedNotDelegated
  deriving DecidableEq, Repr

def ResponseAdmission.reason : ResponseAdmission → Option String
  | admitted => none
  | blockedNotAuthorised => some "blocked: admin-only governance action response"
  | blockedNotDelegated => some "blocked: case not delegated to this reviewer"

def responseAdmission (isAdmin isReviewer delegatedForThisCase : Bool) : ResponseAdmission :=
  if isAdmin then .admitted
  else if !isReviewer then .blockedNotAuthorised
  else if delegatedForThisCase then .admitted
  else .blockedNotDelegated

def minHumanRationaleChars : Nat := 20

def outcomeRequiresRationale (action : String) : Bool :=
  ["approve", "reject", "amend", "delegate", "promote", "demote"].contains action

/-- A decision of a consequential tier lacks the words of a human. -/
def lacksRationale (effective : RiskTier) (action : String) (reasoning : Option String) : Bool :=
  humanResolutionRequired effective && outcomeRequiresRationale action &&
    (Shared.trimChars (reasoning.getD "").toList).length < minHumanRationaleChars

/-- Agents alone publish governance events, but for responses and cards. -/
def agentRefusal (world : World) (event : NostrEvent) : Option String :=
  if isGovernanceKind event.kind && event.kind != kindActionResponse &&
      !isKanbanApprovalRequest event && !world.isRegisteredAgent then
    some "blocked: pubkey not in agent registry"
  else none

variable (json : JsonParser)

/-- Who may respond, and with which words. -/
def responseRefusal (world : World) (event : NostrEvent) : Option String :=
  if event.kind ≠ kindActionResponse then none
  else
    let caseId := (extractDTag event.tags).getD ""
    let byRole := !world.isAdmin && caseId != ""
    (responseAdmission world.isAdmin (byRole && world.isReviewer)
      (byRole && world.isDelegated)).reason.or
      (if caseId = "" then none
      else
        world.caseTier.bind fun effective =>
          (fromResponseContent json event.content).bind fun outcome =>
            if lacksRationale effective outcome.actionStr
                ((json.parse event.content).bind fun value => textField value "reasoning") then
              some "rationale_required"
            else none)

inductive SupersessionRefusal
  | targetMissing
  | caseMismatch
  | targetAlreadySuperseded
  | unauthorised
  deriving DecidableEq, Repr

def SupersessionRefusal.reason : SupersessionRefusal → String
  | targetMissing => "blocked: supersession_target_missing"
  | caseMismatch => "blocked: supersession_case_mismatch"
  | targetAlreadySuperseded => "blocked: supersession_target_already_superseded"
  | unauthorised => "blocked: supersession_unauthorised"

/-- The decision belongs to the case and is still effective; a successor is compared with
the event's own decision id. -/
def supersessionIngestRefusal (eventId caseId : String) (target : SupersededDecisionRow) :
    Option (Option SupersessionRefusal) :=
  if target.caseId ≠ caseId then some (some .caseMismatch)
  else
    match target.supersededBy with
    | none => some none
    | some successor =>
        (sliceDecisionId eventId).map fun own =>
          if successor ≠ own then some .targetAlreadySuperseded else none

/-- Whether a superseder may supersede the decision of a cited event. -/
def supersessionAuthorised (world : World) (event : NostrEvent) (caseId : String)
    (supersededEventId : String) : Option (Option SupersessionRefusal) :=
  if !world.hasDatabase then some (some .targetMissing)
  else
    (sliceDecisionId supersededEventId).bind fun decisionId =>
      match world.decision decisionId with
      | none => some (some .targetMissing)
      | some target =>
          (supersessionIngestRefusal event.id caseId target).map fun refusal =>
            refusal.or
              (if (supersedeAuthority target.brokerPubkey event.pubkey
                  (world.ranks target.brokerPubkey) (world.ranks event.pubkey)).isAuthorised then
                none
              else some .unauthorised)

def supersessionRefusal (world : World) (event : NostrEvent) :
    Option (Option SupersessionRefusal) :=
  if event.kind ≠ kindActionResponse then some none
  else
    match extractSupersedesTarget event.tags with
    | none => some none
    | some supersededEventId =>
        supersessionAuthorised world event ((extractDTag event.tags).getD "") supersededEventId

/-- An appeal names its case, in a tag that differs from its own key. -/
def appealShapeRefused (event : NostrEvent) : Bool :=
  let own := (extractDTag event.tags).getD ""
  match tagValue event "case" with
  | some case => case == "" || own == "" || case == own
  | none => true

/-! ## Projections -/

/-- What a request is projected into. -/
structure ProjectedRequest where
  id : String
  category : String
  subjectKind : String
  subjectId : String
  title : String
  summary : String
  priority : Nat
  createdBy : String
  nostrEventId : String
  createdAt : Nat
  boundary : RequestBoundary
deriving DecidableEq, Repr

def projectActionRequest (world : World) (event : NostrEvent) : Option (Option ProjectedRequest) :=
  if !world.hasDatabase then some none
  else
    let caseId := (extractDTag event.tags).getD event.id
    (planRequestBoundary json world.isCalibrationSample caseId event.pubkey event.tags
      event.content world.panelTags world.advertisedDefault).map fun boundary =>
        some
          { id := caseId
            category := (extractTag event.tags "category").getD "manual_submission"
            subjectKind := (extractTag event.tags "subject-kind").getD "opaque"
            subjectId := (extractTag event.tags "subject-id").getD ""
            title := (extractTag event.tags "title").getD "Untitled"
            summary := event.content
            priority := ((extractTag event.tags "priority").bind (Relay.parseUnsigned 32)).getD 50
            createdBy := event.pubkey
            nostrEventId := event.id
            createdAt := event.createdAt
            boundary }

/-- How the handling of an event ends. -/
inductive Handled
  | refused (message : String)
  | unprojected
  | requested (row : Option ProjectedRequest)
  | projected (remaining : Option Task)
  deriving DecidableEq, Repr

/-- A response, a supersession or an appeal, through its operations. -/
def projectDecision (world : World) (event : NostrEvent) (route : Route) : Option Handled :=
  if !world.hasDatabase then some (.projected none)
  else
    match correlate json event with
    | none => some (.projected none)
    | some correlation =>
        (Task.runSliced json world.situations 6 (.lookup event correlation route)).map .projected

def project (world : World) (event : NostrEvent) : Option Handled :=
  match routeOf event with
  | some route => projectDecision json world event route
  | none =>
      if event.kind = kindActionRequest then
        (projectActionRequest json world event).map .requested
      else some .unprojected

/-- The handling of a governance event; `none` is a panic. -/
def handleEvent (world : World) (event : NostrEvent) : Option Handled :=
  match (agentRefusal world event).or (responseRefusal json world event) with
  | some message => some (.refused message)
  | none =>
      (supersessionRefusal world event).bind fun refusal =>
        match refusal with
        | some refusal => some (.refused refusal.reason)
        | none =>
            if event.kind = kindActionRequest ∧ (extractAppealTarget event.tags).isSome ∧
                appealShapeRefused event then
              some (.refused "blocked: appeal_shape")
            else if !world.isSaved then some .unprojected
            else project json world event

/-! ## No panic -/

/-- The handling of an event returns, whatever the world answers. -/
def Returns (event : NostrEvent) : Prop :=
  ∀ world, ∃ handled, handleEvent json world event = some handled ∧
    ∀ task, handled ≠ .projected (some task)

/-- What the relay slices of an event ends at character boundaries. -/
structure SlicesAtBoundaries (event : NostrEvent) : Prop where
  superseded : event.kind = kindActionResponse →
    ∀ id ∈ extractSupersedesTarget event.tags, Sliceable id
  cited : event.kind = kindActionRequest → appealShapeRefused event = false →
    ∀ id ∈ extractAppealTarget event.tags, Sliceable id
  expiry : event.kind = kindActionRequest → extractAppealTarget event.tags = none →
    ∀ text ∈ slicedExpiry json event,
      19 ≤ text.utf8ByteSize → Lib.IsCharBoundary text.toList 19

/-- A verified id is hexadecimal, so its own slice is safe. -/
theorem sliceable_of_verified
    {primitives : Shared.Primitives}
    {event : NostrEvent}
    (verified : Shared.verifyEventStrict primitives event = .ok ()) :
    Sliceable event.id := by
  rw [(Shared.verifyEventStrict_eq_ok_iff.mp verified).1]
  refine sliceable_of_ascii fun char isChar => ?_
  unfold Shared.hexEncode at isChar
  rw [String.toList_ofList] at isChar
  exact Shared.utf8Size_of_mem_hexEncodeChars isChar

section Returning

variable {json}

theorem isSome_supersessionRefusal
    {event : NostrEvent}
    (world : World)
    (own : Sliceable event.id)
    (superseded : event.kind = kindActionResponse →
      ∀ id ∈ extractSupersedesTarget event.tags, Sliceable id) :
    (supersessionRefusal world event).isSome := by
  unfold supersessionRefusal
  split
  · rfl
  · rename_i isResponse
    split
    · rfl
    · rename_i supersededEventId isTarget
      unfold supersessionAuthorised
      split
      · rfl
      · obtain ⟨decisionId, sliced⟩ := Option.isSome_iff_exists.mp
          ((isSome_sliceDecisionId_iff supersededEventId).mpr
            (superseded (not_not.mp isResponse) supersededEventId isTarget))
        rw [sliced, Option.bind_some]
        split
        · rfl
        · rw [Option.isSome_map]
          unfold supersessionIngestRefusal
          split
          · rfl
          · split
            · rfl
            · rwa [Option.isSome_map, isSome_sliceDecisionId_iff]

/-- What a delivered event may slice in its projection. -/
theorem sliceable_of_route
    {event : NostrEvent}
    {route : Route}
    {correlation : ReceiptCorrelation}
    (own : Sliceable event.id)
    (shaped : event.kind = kindActionRequest → (extractAppealTarget event.tags).isSome →
      appealShapeRefused event = false)
    (slices : SlicesAtBoundaries json event)
    (routed : routeOf event = some route) :
    ∀ id ∈ (Task.lookup event correlation route).identifiers, Sliceable id := by
  unfold routeOf at routed
  split at routed
  · rename_i isResponse
    split at routed
    · rename_i supersededEventId isTarget
      cases routed
      intro id isId
      rcases List.mem_cons.mp isId with rfl | isOwn
      · exact slices.superseded isResponse id isTarget
      · rwa [List.mem_singleton.mp isOwn]
    · cases routed
      intro id isId
      rwa [List.mem_singleton.mp isId]
  · split at routed
    · rename_i isRequest
      obtain ⟨citedEventId, isCited, rfl⟩ := Option.map_eq_some_iff.mp routed
      intro id isId
      rw [List.mem_singleton.mp isId]
      have isAppeal : (extractAppealTarget event.tags).isSome := by
        rw [isCited]
        rfl
      exact slices.cited isRequest (shaped isRequest isAppeal) citedEventId isCited
    · cases routed

theorem project_returns
    {event : NostrEvent}
    (world : World)
    (own : Sliceable event.id)
    (shaped : event.kind = kindActionRequest → (extractAppealTarget event.tags).isSome →
      appealShapeRefused event = false)
    (slices : SlicesAtBoundaries json event) :
    ∃ handled, project json world event = some handled ∧
      ∀ task, handled ≠ .projected (some task) := by
  unfold project
  cases routed : routeOf event with
  | some route =>
      dsimp only
      unfold projectDecision
      split
      · refine ⟨_, rfl, ?_⟩
        rintro task ⟨⟩
      · split
        · refine ⟨_, rfl, ?_⟩
          rintro task ⟨⟩
        · rename_i correlation correlated
          rw [runSliced_ends json (sliceable_of_route own shaped slices routed) (Nat.le_refl 6)]
          refine ⟨_, rfl, ?_⟩
          rintro task ⟨⟩
  | none =>
      dsimp only
      split
      · rename_i isRequest
        have noAppeal : extractAppealTarget event.tags = none := by
          unfold routeOf at routed
          rw [if_neg (by rw [isRequest]; decide), if_pos isRequest, Option.map_eq_none_iff] at routed
          exact routed
        have projected : (projectActionRequest json world event).isSome := by
          unfold projectActionRequest
          split
          · rfl
          · rw [Option.isSome_map, isSome_planRequestBoundary_iff]
            exact slices.expiry isRequest noAppeal
        obtain ⟨row, isRow⟩ := Option.isSome_iff_exists.mp projected
        rw [isRow]
        refine ⟨_, rfl, ?_⟩
        rintro task ⟨⟩
      · refine ⟨_, rfl, ?_⟩
        rintro task ⟨⟩

theorem returns_of_slices
    {event : NostrEvent}
    (own : Sliceable event.id)
    (slices : SlicesAtBoundaries json event) :
    Returns json event := by
  intro world
  unfold handleEvent
  split
  · refine ⟨_, rfl, ?_⟩
    rintro task ⟨⟩
  · obtain ⟨refusal, isRefusal⟩ := Option.isSome_iff_exists.mp
      (isSome_supersessionRefusal world own slices.superseded)
    rw [isRefusal, Option.bind_some]
    split
    · refine ⟨_, rfl, ?_⟩
      rintro task ⟨⟩
    · split
      · refine ⟨_, rfl, ?_⟩
        rintro task ⟨⟩
      · rename_i shape
        split
        · refine ⟨_, rfl, ?_⟩
          rintro task ⟨⟩
        · refine project_returns world own (fun isRequest isAppeal => ?_) slices
          rw [← Bool.not_eq_true]
          exact fun refused => shape ⟨isRequest, isAppeal, refused⟩

end Returning

/-! ## Panics -/

/-- An operation that finds nothing and is answered. -/
def nothingFound : Situation where
  db := Database.empty
  fault := .answered
  now := 0
  ranks := fun _ => 0

/-- A world in which an admin, or an agent, publishes what it likes. -/
def openWorld : World where
  isAdmin := true
  isRegisteredAgent := true
  isReviewer := false
  isDelegated := false
  caseTier := none
  hasDatabase := true
  decision := fun _ => none
  ranks := fun _ => 0
  isSaved := true
  panelTags := none
  advertisedDefault := .medium
  isCalibrationSample := fun _ _ => false
  situations := fun _ => nothingFound

section Panicking

variable {json}

theorem handleEvent_openWorld
    (event : NostrEvent) :
    handleEvent json openWorld event =
      (supersessionRefusal openWorld event).bind fun refusal =>
        match refusal with
        | some refusal => some (.refused refusal.reason)
        | none =>
            if event.kind = kindActionRequest ∧ (extractAppealTarget event.tags).isSome ∧
                appealShapeRefused event then
              some (.refused "blocked: appeal_shape")
            else project json openWorld event := by
  have agent : agentRefusal openWorld event = none := by
    unfold agentRefusal openWorld
    rw [Bool.not_true, Bool.and_false]
    rfl
  have response : responseRefusal json openWorld event = none := by
    unfold responseRefusal
    split
    · rfl
    · dsimp only
      split <;> rfl
  unfold handleEvent
  rw [agent, response]
  rfl

theorem superseded_of_returns
    {event : NostrEvent}
    (returns : Returns json event)
    (isResponse : event.kind = kindActionResponse) :
    ∀ id ∈ extractSupersedesTarget event.tags, Sliceable id := by
  intro id isTarget
  obtain ⟨handled, isHandled, -⟩ := returns openWorld
  rw [handleEvent_openWorld] at isHandled
  obtain ⟨refusal, isRefusal, -⟩ := Option.bind_eq_some_iff.mp isHandled
  unfold supersessionRefusal at isRefusal
  rw [if_neg (not_not.mpr isResponse), isTarget] at isRefusal
  obtain ⟨decisionId, sliced, -⟩ := Option.bind_eq_some_iff.mp isRefusal
  rw [← isSome_sliceDecisionId_iff, sliced]
  rfl

/-- The projection of a request is reached. -/
theorem project_of_returns
    {event : NostrEvent}
    (returns : Returns json event)
    (isRequest : event.kind = kindActionRequest)
    (shaped : (extractAppealTarget event.tags).isSome → appealShapeRefused event = false) :
    (project json openWorld event).isSome := by
  obtain ⟨handled, isHandled, -⟩ := returns openWorld
  rw [handleEvent_openWorld] at isHandled
  have noResponse : supersessionRefusal openWorld event = some none := by
    unfold supersessionRefusal
    rw [if_pos (by rw [isRequest]; decide)]
  rw [noResponse, Option.bind_some] at isHandled
  dsimp only at isHandled
  rw [if_neg] at isHandled
  · rw [isHandled]
    rfl
  · rintro ⟨-, isAppeal, refused⟩
    rw [shaped isAppeal] at refused
    cases refused

theorem isSome_correlate_of_shape
    {event : NostrEvent}
    (shaped : appealShapeRefused event = false) :
    (correlate json event).isSome := by
  unfold appealShapeRefused at shaped
  unfold correlate
  cases own : extractDTag event.tags with
  | none =>
      rw [own] at shaped
      split at shaped
      · simp at shaped
      · cases shaped
  | some caseId =>
      rw [own] at shaped
      split at shaped
      · dsimp only
        rw [if_neg]
        · rfl
        · rintro rfl
          simp at shaped
      · cases shaped

theorem cited_of_returns
    {event : NostrEvent}
    (returns : Returns json event)
    (isRequest : event.kind = kindActionRequest)
    (shaped : appealShapeRefused event = false) :
    ∀ id ∈ extractAppealTarget event.tags, Sliceable id := by
  intro id isCited
  have reached := project_of_returns returns isRequest fun _ => shaped
  have routed : routeOf event = some (.appeal id) := by
    unfold routeOf
    rw [if_neg (by rw [isRequest]; decide), if_pos isRequest, isCited]
    rfl
  have correlates : (correlate json event).isSome := isSome_correlate_of_shape shaped
  obtain ⟨correlation, correlated⟩ := Option.isSome_iff_exists.mp correlates
  unfold project at reached
  rw [routed] at reached
  simp only [projectDecision] at reached
  rw [correlated, if_neg (by decide)] at reached
  dsimp only at reached
  rw [Option.isSome_map] at reached
  -- The lookup finds no receipt, and the next operation slices the cited id.
  have looked : Task.stepSliced json nothingFound.db nothingFound.fault nothingFound.now
      nothingFound.ranks (.lookup event correlation (.appeal id)) =
        some (Database.empty, some (.readAppealed event correlation id)) := rfl
  rw [Task.runSliced] at reached
  obtain ⟨rest, isRest⟩ := Option.isSome_iff_exists.mp reached
  obtain ⟨result, isResult, isRest⟩ := Option.bind_eq_some_iff.mp isRest
  cases looked.symm.trans isResult
  dsimp only at isRest
  rw [Task.runSliced] at isRest
  obtain ⟨result, isResult, -⟩ := Option.bind_eq_some_iff.mp isRest
  obtain ⟨decisionId, sliced, -⟩ := Option.map_eq_some_iff.mp isResult
  rw [← isSome_sliceDecisionId_iff, sliced]
  rfl

theorem expiry_of_returns
    {event : NostrEvent}
    (returns : Returns json event)
    (isRequest : event.kind = kindActionRequest)
    (noAppeal : extractAppealTarget event.tags = none) :
    ∀ text ∈ slicedExpiry json event,
      19 ≤ text.utf8ByteSize → Lib.IsCharBoundary text.toList 19 := by
  have reached := project_of_returns returns isRequest fun isAppeal => by
    rw [noAppeal] at isAppeal
    cases isAppeal
  have routed : routeOf event = none := by
    unfold routeOf
    rw [if_neg (by rw [isRequest]; decide), if_pos isRequest, noAppeal]
    rfl
  unfold project at reached
  rw [routed] at reached
  dsimp only at reached
  rw [if_pos isRequest, Option.isSome_map] at reached
  unfold projectActionRequest at reached
  rw [if_neg (by decide), Option.isSome_map, isSome_planRequestBoundary_iff] at reached
  exact reached

end Panicking

/-! ## The relay returns -/

/-- A signed event is handled without a panic exactly when the ids that it cites and the
expiry that it states are sliced at character boundaries. -/
theorem handleEvent_returns_iff
    (primitives : Shared.Primitives)
    (event : NostrEvent)
    (verified : Shared.verifyEventStrict primitives event = .ok ()) :
    Returns json event ↔ SlicesAtBoundaries json event := by
  constructor
  · intro returns
    exact
      { superseded := superseded_of_returns returns
        cited := cited_of_returns returns
        expiry := expiry_of_returns returns }
  · exact returns_of_slices (sliceable_of_verified verified)

namespace Sample

/-- A digest of zeros, on a curve that accepts any signature. -/
def primitives : Shared.Primitives where
  sha256 _ := List.replicate 32 0
  isPoint _ := true
  isSignature _ := true
  verifyRaw _ _ _ := true

/-- An admin supersedes the decision of a cited event. -/
def supersession (citedEventId : String) : NostrEvent where
  id := hex '0'
  pubkey := hex 'c'
  createdAt := 1700000000
  kind := kindActionResponse
  tags := [["d", "case-1"], ["e", citedEventId, "", "supersedes"]]
  content := approval
  sig := hex '0' ++ hex '0'

theorem supersession_verified
    (citedEventId : String) :
    Shared.verifyEventStrict primitives (supersession citedEventId) = .ok () := by
  have isKey : Shared.hexDecodeSized 32 (hex 'c') = some (List.replicate 32 0xcc) := by
    decide +kernel
  have isSignature : Shared.hexDecodeSized 64 (hex '0' ++ hex '0') =
      some (List.replicate 64 0) := by
    decide +kernel
  have sameId : hex '0' = Shared.hexEncode (List.replicate 32 0) := by
    decide +kernel
  exact Shared.verifyEventStrict_eq_ok_iff.mpr
    ⟨sameId, List.replicate 32 0xcc, List.replicate 64 0, isKey, rfl, isSignature, rfl, rfl⟩

end Sample

/-- A supersession of an ordinary event is handled. -/
theorem handleEvent_returns_iff_hexadecimal :
    Returns Sample.parser (Sample.supersession (Sample.hex 'd')) ↔
      SlicesAtBoundaries Sample.parser (Sample.supersession (Sample.hex 'd')) :=
  handleEvent_returns_iff Sample.parser Sample.primitives (Sample.supersession (Sample.hex 'd'))
    (Sample.supersession_verified (Sample.hex 'd'))

/-- The sixteenth byte of the cited id is the first of two bytes of one character. -/
theorem accented_citation_panics :
    Shared.verifyEventStrict Sample.primitives (Sample.supersession "aaaaaaaaaaaaaaaé") = .ok () ∧
      handleEvent Sample.parser openWorld (Sample.supersession "aaaaaaaaaaaaaaaé") = none :=
  ⟨Sample.supersession_verified "aaaaaaaaaaaaaaaé", by decide +kernel⟩

end Governance
end NostrBbs
