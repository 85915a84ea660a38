import NostrBbs.Governance.Ingress
import NostrBbs.Relay.Store
import Mathlib.Data.List.MinMax

/-!
# The panel of a request

The panel that tightens a request is the one that the tags of the request resolve to.
What a case stores is as tight as a panel only where that panel, the request itself or
its level is.
-/

namespace NostrBbs
namespace Governance

open Relay (EventRow NostrEvent Store Tag TagTrigger)

/-! ## Tightness -/

/-- The legs of a triple. -/
inductive Leg
  | verifiability
  | reversibility
  | stakes
  deriving DecidableEq, Repr

namespace TaskProperties

/-- How tight a triple is on a leg. -/
def strength (props : TaskProperties) : Leg → Nat
  | .verifiability => props.verifiability.rank
  | .reversibility => props.reversibility.rank
  | .stakes => props.stakes.rank

/-- How tight a declaration is on a leg; none at all is the loosest. -/
def strengthOf (declared : Option TaskProperties) (leg : Leg) : Nat :=
  (declared.map fun props => props.strength leg).getD 0

end TaskProperties

open TaskProperties

theorem rank_tighter
    {Value : Type}
    (rank : Value → Nat)
    (first second : Value) :
    rank (tighter rank first second) = max (rank first) (rank second) := by
  unfold tighter
  split <;> omega

@[simp] theorem strengthOf_none (leg : Leg) : strengthOf none leg = 0 := rfl

@[simp] theorem strengthOf_some
    (props : TaskProperties)
    (leg : Leg) :
    strengthOf (some props) leg = props.strength leg := rfl

theorem strength_merge
    (panel request : TaskProperties)
    (leg : Leg) :
    (merge panel request).strength leg = max (panel.strength leg) (request.strength leg) := by
  cases leg with
  | verifiability => exact rank_tighter Verifiability.rank _ _
  | reversibility => exact rank_tighter Reversibility.rank _ _
  | stakes => exact rank_tighter Stakes.rank _ _

/-- A merge is as tight on a leg as the tighter of its sides. -/
theorem strengthOf_mergeOpt
    (panel request : Option TaskProperties)
    (leg : Leg) :
    strengthOf (mergeOpt panel request) leg =
      max (strengthOf panel leg) (strengthOf request leg) := by
  cases panel with
  | none => cases request <;> simp [mergeOpt]
  | some panel =>
      cases request with
      | none => simp [mergeOpt]
      | some request => exact strength_merge panel request leg

/-- The tier that a triple permits, by its legs. -/
theorem rank_tierFloor (props : TaskProperties) :
    props.tierFloor.rank =
      if 2 ≤ props.strength .reversibility ∨ 2 ≤ props.strength .stakes then 2
      else if 2 ≤ props.strength .verifiability then 1
      else 0 := by
  obtain ⟨verifiability, reversibility, stakes⟩ := props
  cases verifiability <;> cases reversibility <;> cases stakes <;> rfl

/-- A tighter triple permits no lower tier. -/
theorem tierFloor_mono
    {floor props : TaskProperties}
    (atLeast : ∀ leg, floor.strength leg ≤ props.strength leg) :
    floor.tierFloor.rank ≤ props.tierFloor.rank := by
  have verifiability := atLeast .verifiability
  have reversibility := atLeast .reversibility
  have stakes := atLeast .stakes
  rw [rank_tierFloor, rank_tierFloor]
  split_ifs <;> omega

/-- The tier of a case is no lower than a triple permits that the merged legs reach. -/
theorem tierFloor_le_effectiveTier
    {floor : TaskProperties}
    {panelProps requestProps : Option TaskProperties}
    (declared : Option RiskTier)
    (advertisedDefault : RiskTier)
    (reached : ∀ leg, floor.strength leg ≤ strengthOf (mergeOpt panelProps requestProps) leg) :
    floor.tierFloor.rank ≤
      (effectiveTier panelProps requestProps declared advertisedDefault).rank := by
  unfold effectiveTier
  cases isMerged : mergeOpt panelProps requestProps with
  | none =>
      have loosest : floor.tierFloor.rank = 0 := by
        have verifiability := reached .verifiability
        have reversibility := reached .reversibility
        have stakes := reached .stakes
        rw [isMerged, strengthOf_none] at verifiability reversibility stakes
        rw [rank_tierFloor, if_neg (by omega), if_neg (by omega)]
      rw [loosest]
      exact Nat.zero_le _
  | some props =>
      have permitted : floor.tierFloor.rank ≤ props.tierFloor.rank := by
        apply tierFloor_mono
        intro leg
        have atLeast := reached leg
        rwa [isMerged, strengthOf_some] at atLeast
      cases declared <;>
      · dsimp only
        rw [rank_tighter RiskTier.rank]
        omega

/-! ## The panel that a request resolves to -/

def kindPanelDefinition : Nat := 31400

/-- The author and the `d` tag that the `a` tag of a request addresses. -/
def addressedPanel (tags : List Tag) : Option (String × String) :=
  (extractTag tags "a").bind fun address =>
    match address.toList.splitOn ':' with
    | kind :: pubkey :: first :: more =>
        if Relay.parseUnsigned 64 (String.ofList kind) = some kindPanelDefinition then
          some (String.ofList pubkey, String.ofList ([':'].intercalate (first :: more)))
        else none
    | _ => none

/-- The panel of its author that a request names. -/
def namedPanel (event : NostrEvent) : Option (String × String) :=
  (extractTag event.tags "panel").map fun d => (event.pubkey, d)

/-- A case as a request leaves it and as decisions move it. -/
structure RequestedCase where
  request : ProjectedRequest
  state : String
  updatedAt : Nat
deriving DecidableEq, Repr

namespace RequestedCase

def id (row : RequestedCase) : String :=
  row.request.id

/-- A case on a newer request of its author; it keeps its age, its mark and its probe. -/
def follow (held : RequestedCase) (request : ProjectedRequest) : RequestedCase where
  request :=
    { request with
      id := held.request.id
      createdBy := held.request.createdBy
      createdAt := held.request.createdAt
      boundary :=
        { request.boundary with
          calibrationSample := held.request.boundary.calibrationSample
          probeDigest := held.request.boundary.probeDigest } }
  state := held.state
  updatedAt := Relay.asF64 request.createdAt

/-- The tier and every leg of the stored triple are at least those of a triple. -/
def Meets (row : RequestedCase) (triple : TaskProperties) : Prop :=
  triple.tierFloor.rank ≤ row.request.boundary.effective.rank ∧
    ∀ leg, triple.strength leg ≤ strengthOf row.request.boundary.props leg

end RequestedCase

/-- The stored events and the cases. -/
structure Docket (trigger : TagTrigger) where
  store : Store trigger
  cases : Lib.Table RequestedCase RequestedCase.id

/-- What the database answers while a request is projected. -/
structure Answers where
  panelRead : Bool
  caseWritten : Bool

namespace Docket

variable {trigger : TagTrigger} (docket : Docket trigger)

/-- The newest panel of an author that a condition names. -/
def newestPanel (pubkey : String) (named : EventRow → Bool) : Option EventRow :=
  (docket.store.events.filter fun row =>
    row.kind == kindPanelDefinition && row.pubkey == pubkey && named row).argmax
    EventRow.createdAt

def panelRow (event : NostrEvent) : Option EventRow :=
  match (addressedPanel event.tags).or (namedPanel event) with
  | some (pubkey, d) => docket.newestPanel pubkey fun row => row.dTag == d
  | none => docket.newestPanel event.pubkey fun _ => true

def resolvePanelTags (answers : Answers) (event : NostrEvent) : Option (List Tag) :=
  if answers.panelRead then (docket.panelRow event).map EventRow.tags else none

/-! ## The stored case -/

/-- When the event of a case was signed, as far as it is stored. -/
def heldAt (held : RequestedCase) : Nat :=
  ((docket.store.events.find? fun row => row.id == held.request.nostrEventId).map
    EventRow.createdAt).getD 0

/-- A case follows a newer request of its author while it is undecided. -/
def follows (request : ProjectedRequest) (held : RequestedCase) : Bool :=
  held.id == request.id && held.request.createdBy == request.createdBy &&
    pendingStates.contains held.state && held.request.nostrEventId != request.nostrEventId &&
    decide (docket.heldAt held < Relay.asF64 request.createdAt)

def upsert (request : ProjectedRequest) : Lib.Table RequestedCase RequestedCase.id :=
  match docket.cases.insert
      { request, state := CaseState.open.asStr, updatedAt := Relay.asF64 request.createdAt } with
  | some cases => cases
  | none =>
      docket.cases.updateWhere (docket.follows request) (fun held => held.follow request)
        fun _ => rfl

/-- The cases after a request is projected; `none` is a panic. -/
def projectRequest (json : JsonParser) (world : World) (answers : Answers) (event : NostrEvent) :
    Option (Lib.Table RequestedCase RequestedCase.id) :=
  let panelTags := docket.resolvePanelTags answers event
  (projectActionRequest json { world with panelTags } event).map fun projected =>
    match projected with
    | some request => if answers.caseWritten then docket.upsert request else docket.cases
    | none => docket.cases

/-- What a request writes to a case is as tight as each panel of its author. -/
def KeepsBoundary (json : JsonParser) (world : World) (answers : Answers) (event : NostrEvent) :
    Prop :=
  ∀ panel ∈ docket.store.events, panel.kind = kindPanelDefinition → panel.pubkey = event.pubkey →
    ∀ triple, fromTags panel.tags = some triple →
      ∀ cases, docket.projectRequest json world answers event = some cases →
        ∀ row ∈ cases.rows, row ∉ docket.cases.rows → row.Meets triple

/-! ## When a request is written -/

def caseIdOf (event : NostrEvent) : String :=
  (extractDTag event.tags).getD event.id

/-- The request of an event, with a boundary. -/
def requestOf (event : NostrEvent) (boundary : RequestBoundary) : ProjectedRequest where
  id := caseIdOf event
  category := (extractTag event.tags "category").getD "manual_submission"
  subjectKind := (extractTag event.tags "subject-kind").getD "opaque"
  subjectId := (extractTag event.tags "subject-id").getD ""
  title := (extractTag event.tags "title").getD "Untitled"
  summary := event.content
  priority := ((extractTag event.tags "priority").bind (Relay.parseUnsigned 32)).getD 50
  createdBy := event.pubkey
  nostrEventId := event.id
  createdAt := event.createdAt
  boundary

/-- No case is held under the id of a request, or one that follows the request. -/
def Awaits (event : NostrEvent) : Prop :=
  ∀ held ∈ docket.cases.rows, held.id = caseIdOf event →
    held.request.createdBy = event.pubkey ∧ held.state ∈ pendingStates ∧
      held.request.nostrEventId ≠ event.id ∧
      docket.heldAt held < Relay.asF64 event.createdAt

/-- The request is projected and its case awaits it. -/
structure Writes (json : JsonParser) (world : World) (answers : Answers) (event : NostrEvent) :
    Prop where
  hasDatabase : world.hasDatabase = true
  caseWritten : answers.caseWritten = true
  sliceable : ∀ text ∈ slicedExpiry json event,
    19 ≤ text.utf8ByteSize → Lib.IsCharBoundary text.toList 19
  awaits : docket.Awaits event

/-- On each leg a triple is no tighter than the panel that a request resolves to, than
its own tags or than its level. -/
def Covers (answers : Answers) (event : NostrEvent) (triple : TaskProperties) : Prop :=
  ∀ leg,
    triple.strength leg ≤
        strengthOf ((docket.resolvePanelTags answers event).bind fromTags) leg ∨
      triple.strength leg ≤ strengthOf (fromTags event.tags) leg ∨
      triple.strength leg ≤ strengthOf (levelPropertyFloor event.tags) leg

section

variable {docket} {json : JsonParser} {world : World} {answers : Answers} {event : NostrEvent}
  {request : ProjectedRequest}

/-- A row that an upsert writes has the tier and the triple of the request. -/
theorem boundary_of_mem_upsert
    {row : RequestedCase}
    (held : row ∈ (docket.upsert request).rows)
    (written : row ∉ docket.cases.rows) :
    row.request.boundary.effective = request.boundary.effective ∧
      row.request.boundary.props = request.boundary.props := by
  unfold upsert at held
  split at held
  · rename_i inserted
    rcases (Lib.Table.mem_of_insert inserted).mp held with old | rfl
    · exact absurd old written
    · exact ⟨rfl, rfl⟩
  · obtain ⟨old, oldHeld, changed⟩ := Lib.Table.mem_updateWhere.mp held
    split at changed
    · rw [← changed]
      exact ⟨rfl, rfl⟩
    · rw [← changed] at written
      exact absurd oldHeld written

/-- A case that awaits a request is written. -/
theorem exists_written
    (awaits : ∀ held ∈ docket.cases.rows, held.id = request.id → docket.follows request held) :
    ∃ row ∈ (docket.upsert request).rows, row ∉ docket.cases.rows := by
  unfold upsert
  split
  · rename_i inserted
    obtain ⟨fresh, -⟩ := Lib.Table.insert_eq_some inserted
    refine ⟨_, (Lib.Table.mem_of_insert inserted).mpr (.inr rfl), ?_⟩
    intro held
    exact fresh (List.mem_map.mpr ⟨_, held, rfl⟩)
  · rename_i taken
    obtain ⟨held, isHeld, sameId⟩ := List.mem_map.mp (Lib.Table.insert_eq_none_iff.mp taken)
    have isFollowing := awaits held isHeld sameId
    refine ⟨held.follow request, Lib.Table.mem_updateWhere.mpr ⟨held, isHeld, ?_⟩, ?_⟩
    · rw [if_pos isFollowing]
    · intro old
      have same : held.follow request = held := docket.cases.eq_of_key old isHeld rfl
      have sameEvent : request.nostrEventId = held.request.nostrEventId :=
        congrArg (fun row => row.request.nostrEventId) same
      simp [follows, sameEvent] at isFollowing

/-- A case that does not await a request is left. -/
theorem mem_of_mem_upsert
    {held row : RequestedCase}
    (isHeld : held ∈ docket.cases.rows)
    (sameId : held.id = request.id)
    (refused : docket.follows request held = false)
    (isAfter : row ∈ (docket.upsert request).rows) :
    row ∈ docket.cases.rows := by
  unfold upsert at isAfter
  split at isAfter
  · rename_i inserted
    obtain ⟨fresh, -⟩ := Lib.Table.insert_eq_some inserted
    exact absurd (List.mem_map.mpr ⟨held, isHeld, sameId⟩) fresh
  · obtain ⟨old, oldHeld, changed⟩ := Lib.Table.mem_updateWhere.mp isAfter
    split at changed
    · rename_i isFollowing
      have oldId : old.id = request.id := by
        simp only [follows, Bool.and_eq_true, beq_iff_eq] at isFollowing
        exact isFollowing.1.1.1.1
      rw [docket.cases.eq_of_key oldHeld isHeld (oldId.trans sameId.symm), refused] at isFollowing
      cases isFollowing
    · rwa [← changed]

/-- What a request is projected into. -/
theorem projectRequest_eq
    (hasDatabase : world.hasDatabase = true) :
    docket.projectRequest json world answers event =
      (planRequestBoundary json world.isCalibrationSample (caseIdOf event) event.pubkey event.tags
        event.content (docket.resolvePanelTags answers event) world.advertisedDefault).map
        fun boundary =>
          if answers.caseWritten then docket.upsert (requestOf event boundary) else docket.cases := by
  unfold projectRequest projectActionRequest
  dsimp only
  rw [hasDatabase, Bool.not_true, if_neg Bool.false_ne_true, Option.map_map]
  rfl

theorem follows_requestOf_iff
    {boundary : RequestBoundary}
    {held : RequestedCase} :
    docket.follows (requestOf event boundary) held ↔
      held.id = caseIdOf event ∧ held.request.createdBy = event.pubkey ∧
        held.state ∈ pendingStates ∧ held.request.nostrEventId ≠ event.id ∧
        docket.heldAt held < Relay.asF64 event.createdAt := by
  simp only [follows, Bool.and_eq_true, beq_iff_eq, bne_iff_ne, decide_eq_true_eq,
    List.contains_iff_mem, and_assoc]
  exact Iff.rfl

/-- A written case is as tight as what its request resolves to and declares. -/
theorem meets_iff_covers
    {boundary : RequestBoundary}
    {row : RequestedCase}
    {triple : TaskProperties}
    (planned : planRequestBoundary json world.isCalibrationSample (caseIdOf event) event.pubkey
      event.tags event.content (docket.resolvePanelTags answers event) world.advertisedDefault =
        some boundary)
    (tier : row.request.boundary.effective = boundary.effective)
    (props : row.request.boundary.props = boundary.props) :
    row.Meets triple ↔ docket.Covers answers event triple := by
  obtain ⟨staleAfter, -, isBoundary⟩ := Option.map_eq_some_iff.mp planned
  unfold RequestedCase.Meets Covers
  rw [tier, props, ← isBoundary]
  dsimp only
  have reached : (∀ leg, triple.strength leg ≤ strengthOf
      (mergeOpt ((docket.resolvePanelTags answers event).bind fromTags)
        (mergeOpt (fromTags event.tags) (levelPropertyFloor event.tags))) leg) ↔
      ∀ leg,
        triple.strength leg ≤
            strengthOf ((docket.resolvePanelTags answers event).bind fromTags) leg ∨
          triple.strength leg ≤ strengthOf (fromTags event.tags) leg ∨
          triple.strength leg ≤ strengthOf (levelPropertyFloor event.tags) leg := by
    apply forall_congr'
    intro leg
    rw [strengthOf_mergeOpt, strengthOf_mergeOpt, le_max_iff, le_max_iff]
  rw [← reached]
  constructor
  · rintro ⟨-, legs⟩
    exact legs
  · intro legs
    exact ⟨tierFloor_le_effectiveTier _ _ legs, legs⟩

/-- A request that writes to a case is projected, and its case awaits it. -/
theorem writes_of_written
    {cases : Lib.Table RequestedCase RequestedCase.id}
    {row : RequestedCase}
    (projected : docket.projectRequest json world answers event = some cases)
    (held : row ∈ cases.rows)
    (written : row ∉ docket.cases.rows) :
    docket.Writes json world answers event := by
  have hasDatabase : world.hasDatabase = true := by
    by_contra unbound
    unfold projectRequest projectActionRequest at projected
    dsimp only at projected
    rw [Bool.not_eq_true] at unbound
    rw [unbound, Bool.not_false, if_pos rfl] at projected
    cases projected
    exact written held
  rw [projectRequest_eq hasDatabase] at projected
  obtain ⟨boundary, planned, isCases⟩ := Option.map_eq_some_iff.mp projected
  have caseWritten : answers.caseWritten = true := by
    by_contra failed
    rw [if_neg failed] at isCases
    rw [← isCases] at held
    exact written held
  rw [if_pos caseWritten] at isCases
  rw [← isCases] at held
  refine ⟨hasDatabase, caseWritten, ?_, ?_⟩
  · exact (isSome_planRequestBoundary_iff json _ _ event _ _).mp
      (Option.isSome_iff_exists.mpr ⟨boundary, planned⟩)
  · intro other otherHeld sameId
    by_cases isFollowing : docket.follows (requestOf event boundary) other
    · exact (follows_requestOf_iff.mp isFollowing).2
    · rw [Bool.not_eq_true] at isFollowing
      exact absurd (mem_of_mem_upsert otherHeld sameId isFollowing held) written

/-- What a request writes keeps the boundary of every panel of its author exactly when,
should it write at all, each panel is covered by what the request resolves to and
declares. -/
theorem keepsBoundary_iff
    (docket : Docket trigger)
    (json : JsonParser)
    (world : World)
    (answers : Answers)
    (event : NostrEvent) :
    docket.KeepsBoundary json world answers event ↔
      (docket.Writes json world answers event →
        ∀ panel ∈ docket.store.events, panel.kind = kindPanelDefinition →
          panel.pubkey = event.pubkey → ∀ triple, fromTags panel.tags = some triple →
            docket.Covers answers event triple) := by
  constructor
  · intro keeps writes panel stored isPanel isOwn triple declares
    obtain ⟨boundary, planned⟩ := Option.isSome_iff_exists.mp
      ((isSome_planRequestBoundary_iff json world.isCalibrationSample (caseIdOf event) event
        (docket.resolvePanelTags answers event) world.advertisedDefault).mpr writes.sliceable)
    have projected : docket.projectRequest json world answers event =
        some (docket.upsert (requestOf event boundary)) := by
      rw [projectRequest_eq writes.hasDatabase, planned, Option.map_some,
        if_pos writes.caseWritten]
    obtain ⟨row, held, written⟩ := exists_written fun other otherHeld sameId =>
      follows_requestOf_iff.mpr ⟨sameId, writes.awaits other otherHeld sameId⟩
    obtain ⟨tier, props⟩ := boundary_of_mem_upsert held written
    exact (meets_iff_covers planned tier props).mp
      (keeps panel stored isPanel isOwn triple declares _ projected row held written)
  · intro covers panel stored isPanel isOwn triple declares cases projected row held written
    have writes := writes_of_written projected held written
    rw [projectRequest_eq writes.hasDatabase] at projected
    obtain ⟨boundary, planned, isCases⟩ := Option.map_eq_some_iff.mp projected
    rw [if_pos writes.caseWritten] at isCases
    rw [← isCases] at held
    obtain ⟨tier, props⟩ := boundary_of_mem_upsert held written
    exact (meets_iff_covers planned tier props).mpr
      (covers writes panel stored isPanel isOwn triple declares)

end

end Docket

namespace Sample

/-- An agent publishes a panel of irreversible work. -/
def panelDefinition : NostrEvent where
  id := hex 'b'
  pubkey := hex 'a'
  createdAt := 1700000000
  kind := kindPanelDefinition
  tags := [["d", "deploys"], ["tp-reversibility", "irreversible"]]
  content := ""
  sig := hex '0' ++ hex '0'

/-- A request of low risk that addresses a panel which nobody has published. -/
def strayRequest : NostrEvent where
  id := hex 'd'
  pubkey := hex 'a'
  createdAt := 1700000050
  kind := kindActionRequest
  tags := [["d", "case-1"], ["a", "31400:" ++ hex 'a' ++ ":other"], ["risk-tier", "low"]]
  content := ""
  sig := hex '0' ++ hex '0'

def panelDocket : Docket .probeBlind where
  store := Store.empty.saveEvent panelDefinition .parameterizedReplaceable 1700000000
  cases := Lib.Table.empty

/-- The case of the request: no triple, and the tier that the request declares. -/
def strayCase : RequestedCase where
  request := Docket.requestOf strayRequest
    { declared := some .low
      effective := .low
      props := none
      calibrationSample := false
      probeDigest := none
      maxPendingHours := 72
      staleAfter := none }
  state := "open"
  updatedAt := 1700000050

end Sample

/-- The case of a request that addresses no stored panel stores the tier that the
request declares. -/
theorem stray_address_escapes :
    ¬Sample.panelDocket.KeepsBoundary Sample.parser openWorld ⟨true, true⟩
      Sample.strayRequest := by
  intro keeps
  have stored : EventRow.ofEvent Sample.panelDefinition 1700000000 ∈
      Sample.panelDocket.store.events := by
    decide +kernel
  have declares : fromTags (EventRow.ofEvent Sample.panelDefinition 1700000000).tags =
      some ⟨.inspectable, .irreversible, .bounded⟩ := by
    decide +kernel
  have projected : Sample.panelDocket.projectRequest Sample.parser openWorld ⟨true, true⟩
      Sample.strayRequest = some ⟨[Sample.strayCase], List.nodup_singleton _⟩ := by
    decide +kernel
  have meets := keeps _ stored rfl rfl _ declares _ projected Sample.strayCase
    (List.mem_singleton_self _) List.not_mem_nil
  exact absurd meets.1 (by decide)

end Governance
end NostrBbs
