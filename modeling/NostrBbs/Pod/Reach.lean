import NostrBbs.Pod.Worker

/-!
# What a request can reach

The keys that each part of a request may write, and the policy that it was let through
by.
-/

namespace NostrBbs
namespace Pod

open Lib.Program (call)

/-! ## Writes -/

/-- The key that an operation writes or deletes. -/
def Op.written : Op → Option ObjectKey
  | put object => some object.key
  | delete key => some key
  | _ => none

/-- A write changes what is stored under its own key alone. -/
theorem stored_after
    {storage : Storage}
    {op : Op}
    {key : ObjectKey}
    (elsewhere : op.written ≠ some key) :
    (storage.after op).stored key = storage.stored key := by
  cases op with
  | put object =>
      have different : key ≠ object.key := fun same => elsewhere (congrArg some same.symm)
      unfold Storage.stored Storage.after
      rw [Lib.Table.find?_put, if_neg different]
  | delete unwanted =>
      have different : key ≠ unwanted := fun same => elsewhere (congrArg some same.symm)
      unfold Storage.stored Storage.after
      rw [Lib.Table.find?_erase, if_neg different]
  | updateUsage account delta now =>
      unfold Storage.stored Storage.after Storage.updateUsage
      dsimp only
      split
      · split <;> rfl
      · rfl
  | _ => rfl

/-- An operation writes a key that a condition allows, or none. -/
def Op.MayWrite (allowed : ObjectKey → Prop) (op : Op) : Prop :=
  ∀ key ∈ op.written, allowed key

/-- A program writes keys that a condition allows only. -/
def Writes {Result : Type} (allowed : ObjectKey → Prop) (program : PodProgram Result) : Prop :=
  program.Always (Op.MayWrite allowed)

/-- What is stored under the other keys is kept. -/
theorem Writes.keeps
    {Result : Type}
    {allowed : ObjectKey → Prop}
    {program : PodProgram Result}
    (writes : Writes allowed program)
    {key : ObjectKey}
    (others : ¬allowed key)
    (world : World) :
    (program.run World.answer world).1.storage.stored key = world.storage.stored key := by
  have kept : ∀ (current : World) (op : Op),
      current.storage.stored key = world.storage.stored key →
        op.MayWrite allowed →
          (current.answer op).1.storage.stored key = world.storage.stored key := by
    intro current op same isAllowed
    rcases current.answer_storage op with carriedOut | unchanged
    · rw [carriedOut, stored_after, same]
      intro isWritten
      exact others (isAllowed key isWritten)
    · rw [unchanged, same]
  exact Lib.Program.invariant_of_always kept writes rfl

section Writes

variable {Value Result : Type} {allowed weaker : ObjectKey → Prop}

theorem Writes.mono
    {program : PodProgram Result}
    (writes : Writes allowed program)
    (implies : ∀ key, allowed key → weaker key) :
    Writes weaker program :=
  Lib.Program.Always.mono writes fun _ mayWrite key isWritten =>
    implies key (mayWrite key isWritten)

theorem writes_done (result : Result) : Writes allowed (.done result) :=
  trivial

theorem Writes.bind
    {program : PodProgram Value}
    {continuation : Value → PodProgram Result}
    (first : Writes allowed program)
    (rest : ∀ value, Writes allowed (continuation value)) :
    Writes allowed (program >>= continuation) :=
  Lib.Program.always_bind first rest

/-- An operation that writes nothing may be performed. -/
theorem writes_read
    {op : Op}
    {continuation : op.Answer → PodProgram Result}
    (reads : op.written = none)
    (rest : ∀ answer, Writes allowed (continuation answer)) :
    Writes allowed (call op >>= continuation) := by
  refine ⟨?_, rest⟩
  unfold Op.MayWrite
  rw [reads]
  rintro key ⟨⟩

theorem writes_key
    {op : Op}
    {continuation : op.Answer → PodProgram Result}
    {key : ObjectKey}
    (isWritten : op.written = some key)
    (isAllowed : allowed key)
    (rest : ∀ answer, Writes allowed (continuation answer)) :
    Writes allowed (call op >>= continuation) := by
  refine ⟨?_, rest⟩
  unfold Op.MayWrite
  rw [isWritten]
  rintro other ⟨⟩
  exact isAllowed

end Writes

/-! ## The parts of a request -/

section Parts

variable (upstream : Upstream) (allowed : ObjectKey → Prop)

theorem walkSidecars_writes
    (ownerPubkey : String)
    (probes : List (String × Bool)) :
    Writes allowed (upstream.walkSidecars ownerPubkey probes) := by
  induction probes with
  | nil => exact writes_done _
  | cons probe probes inductionHypothesis =>
      unfold Upstream.walkSidecars
      apply writes_read rfl
      intro answer
      split
      · exact inductionHypothesis
      · exact writes_done _
      · exact writes_done _

theorem findEffectiveAcl_writes
    (ownerPubkey resourcePath : String) :
    Writes allowed (upstream.findEffectiveAcl ownerPubkey resourcePath) := by
  unfold Upstream.findEffectiveAcl
  apply Writes.bind (walkSidecars_writes upstream allowed ownerPubkey _)
  intro settled
  split
  · exact writes_done _
  · apply writes_read rfl
    intro answer
    split
    · exact writes_done _
    · exact writes_done _
    · exact writes_done _

theorem checkAndReserveWithLimit_writes
    (account : String)
    (bytes limit now : Nat) :
    Writes allowed (checkAndReserveWithLimit account bytes limit now) := by
  unfold checkAndReserveWithLimit
  apply writes_read rfl
  intro ensured
  split
  · exact writes_done _
  · apply writes_read rfl
    intro rows
    split
    · exact writes_done _
    · apply writes_read rfl
      intro info
      split
      · exact writes_done _
      · exact writes_done _
    · exact writes_done _

theorem handleGet_writes
    (request : Request)
    (ownerPubkey resourcePath : String) :
    Writes allowed (upstream.handleGet request ownerPubkey resourcePath) := by
  unfold Upstream.handleGet
  split
  · apply writes_read rfl
    intro listed
    split
    · exact writes_done _
    · exact writes_done _
  · apply writes_read rfl
    intro found
    split
    · exact writes_done _
    · split
      · exact writes_done _
      · exact writes_done _
    · split
      · exact writes_done _
      · dsimp only
        split
        · exact writes_done _
        · exact writes_done _

theorem handleAclRead_writes
    (request : Request)
    (ownerPubkey aclPath : String)
    (parentAcl : Option AclDocument) :
    Writes allowed (upstream.handleAclRead request ownerPubkey aclPath parentAcl) := by
  unfold Upstream.handleAclRead
  dsimp only
  split
  · exact writes_done _
  · apply writes_read rfl
    intro found
    split
    · exact writes_done _
    · exact writes_done _
    · split
      · exact writes_done _
      · exact writes_done _

/-! ### The methods that write one key -/

variable {allowed} {ownerPubkey path : String}

theorem handlePut_writes
    (request : Request)
    (isAllowed : allowed ⟨ownerPubkey, path⟩) :
    Writes allowed (upstream.handlePut request ownerPubkey path) := by
  unfold Upstream.handlePut
  split
  · exact writes_done _
  · split
    · exact writes_done _
    · apply writes_read rfl
      intro existing
      split
      · exact writes_done _
      · apply Writes.bind (checkAndReserveWithLimit_writes allowed _ _ _ _)
        intro refused
        split
        · exact writes_done _
        · split
          · exact writes_done _
          · apply writes_key rfl isAllowed
            intro isStored
            split
            · exact writes_done _
            · exact writes_done _

theorem handlePostResource_writes
    (request : Request)
    (isAllowed : allowed ⟨ownerPubkey, path⟩) :
    Writes allowed (Upstream.handlePostResource request ownerPubkey path) := by
  unfold Upstream.handlePostResource
  split
  · exact writes_done _
  · apply Writes.bind (checkAndReserveWithLimit_writes allowed _ _ _ _)
    intro refused
    split
    · exact writes_done _
    · apply writes_key rfl isAllowed
      intro isStored
      split
      · exact writes_done _
      · exact writes_done _

theorem handlePostContainer_writes
    (request : Request)
    (isAllowed : allowed ⟨ownerPubkey, resolveSlug path request.slug request.now⟩) :
    Writes allowed (Upstream.handlePostContainer request ownerPubkey path) := by
  unfold Upstream.handlePostContainer
  split
  · exact writes_done _
  · apply Writes.bind (checkAndReserveWithLimit_writes allowed _ _ _ _)
    intro refused
    split
    · exact writes_done _
    · dsimp only
      split
      · exact writes_done _
      · apply writes_key rfl isAllowed
        intro isStored
        split
        · exact writes_done _
        · exact writes_done _

theorem finishPatch_writes
    (request : Request)
    (current : StoredObject)
    (updated : Bytes)
    (refused : Option String)
    (isAllowed : allowed ⟨ownerPubkey, path⟩) :
    Writes allowed (upstream.finishPatch request ownerPubkey path current updated refused) := by
  unfold Upstream.finishPatch
  split
  · exact writes_done _
  · split
    · exact writes_done _
    · unfold Upstream.storePatched
      apply writes_key rfl isAllowed
      intro isStored
      split
      · exact writes_done _
      · split
        · apply writes_read rfl
          intro released
          exact writes_done _
        · exact writes_done _

theorem patchObject_writes
    (request : Request)
    (apply : Bytes → Except String Bytes)
    (current : StoredObject)
    (isAllowed : allowed ⟨ownerPubkey, path⟩) :
    Writes allowed (upstream.patchObject request ownerPubkey path apply current) := by
  unfold Upstream.patchObject
  split
  · exact writes_done _
  · split
    · apply Writes.bind (checkAndReserveWithLimit_writes allowed _ _ _ _)
      intro refused
      exact finishPatch_writes upstream request current _ refused isAllowed
    · exact finishPatch_writes upstream request current _ none isAllowed

theorem handlePatch_writes
    (request : Request)
    (isAllowed : allowed ⟨ownerPubkey, path⟩) :
    Writes allowed (upstream.handlePatch request ownerPubkey path) := by
  unfold Upstream.handlePatch
  split
  · exact writes_done _
  · split
    · exact writes_done _
    · apply writes_read rfl
      intro found
      split
      · exact writes_done _
      · exact writes_done _
      · exact patchObject_writes upstream request _ _ isAllowed

theorem handleDelete_writes
    (request : Request)
    (isAllowed : allowed ⟨ownerPubkey, path⟩) :
    Writes allowed (Upstream.handleDelete request ownerPubkey path) := by
  unfold Upstream.handleDelete
  apply writes_read rfl
  intro found
  split
  · exact writes_done _
  · exact writes_done _
  · apply writes_key rfl isAllowed
    intro isDeleted
    split
    · exact writes_done _
    · apply writes_read rfl
      intro released
      exact writes_done _

theorem handleAclPut_writes
    (request : Request)
    (parentAcl : Option AclDocument)
    (isAllowed : upstream.evaluateAccess parentAcl (upstream.agentUri request)
        (upstream.protectedResource path) .control = true → allowed ⟨ownerPubkey, path⟩) :
    Writes allowed (upstream.handleAclPut request ownerPubkey path parentAcl) := by
  unfold Upstream.handleAclPut
  dsimp only
  split
  · exact writes_done _
  · rename_i granted
    rw [Bool.not_eq_true, Bool.not_eq_false'] at granted
    split
    · exact writes_done _
    · split
      · exact writes_done _
      · split
        · exact writes_done _
        · split
          · exact writes_done _
          · apply writes_key rfl (isAllowed granted)
            intro isStored
            split
            · exact writes_done _
            · exact writes_done _

theorem handleAclDelete_writes
    (request : Request)
    (parentAcl : Option AclDocument)
    (isAllowed : upstream.evaluateAccess parentAcl (upstream.agentUri request)
        (upstream.protectedResource path) .control = true → allowed ⟨ownerPubkey, path⟩) :
    Writes allowed (upstream.handleAclDelete request ownerPubkey path parentAcl) := by
  unfold Upstream.handleAclDelete
  dsimp only
  split
  · exact writes_done _
  · rename_i granted
    rw [Bool.not_eq_true, Bool.not_eq_false'] at granted
    apply writes_read rfl
    intro found
    split
    · exact writes_done _
    · exact writes_done _
    · apply writes_key rfl (isAllowed granted)
      intro isDeleted
      split
      · exact writes_done _
      · exact writes_done _

/-! ### Provisioning -/

theorem putAll_writes
    (objects : List StoredObject)
    (areAllowed : ∀ object ∈ objects, allowed object.key) :
    Writes allowed (Upstream.putAll objects) := by
  induction objects with
  | nil => exact writes_done _
  | cons object objects inductionHypothesis =>
      unfold Upstream.putAll
      apply writes_key rfl (areAllowed object List.mem_cons_self)
      intro isStored
      split
      · exact writes_done _
      · exact inductionHypothesis fun other member =>
          areAllowed other (List.mem_cons_of_mem object member)

theorem owner_of_provisioned
    {displayName : Option String}
    {object : StoredObject}
    (isProvisioned : object ∈ upstream.provisionedObjects ownerPubkey displayName) :
    object.key.owner = ownerPubkey := by
  have all : (upstream.provisionedObjects ownerPubkey displayName).all
      (fun object => object.key.owner = ownerPubkey) := by
    simp [Upstream.provisionedObjects, Upstream.defaultContainers]
  simpa using List.all_eq_true.mp all object isProvisioned

theorem provisionPod_writes
    (displayName : Option String)
    (answer : Response) :
    Writes (fun key => key.owner = ownerPubkey)
      (upstream.provisionPod ownerPubkey displayName answer) := by
  unfold Upstream.provisionPod
  apply Writes.bind (putAll_writes _ fun object isProvisioned =>
    owner_of_provisioned upstream isProvisioned)
  intro isProvisioned
  split
  · exact writes_done _
  · exact writes_done _

theorem deleteAll_writes
    (listed : List (String × Nat)) :
    Writes (fun key => key.owner = ownerPubkey) (Upstream.deleteAll ownerPubkey listed) := by
  induction listed with
  | nil => exact writes_done _
  | cons entry listed inductionHypothesis =>
      have isOwn : (fun key : ObjectKey => key.owner = ownerPubkey) ⟨ownerPubkey, entry.1⟩ := rfl
      unfold Upstream.deleteAll
      apply writes_key rfl isOwn
      intro isDeleted
      split
      · exact writes_done _
      · exact inductionHypothesis

theorem tearDown_writes
    (request : Request) :
    Writes (fun key => key.owner = ownerPubkey) (Upstream.tearDown request ownerPubkey) := by
  unfold Upstream.tearDown
  apply writes_read rfl
  intro listed
  split
  · exact writes_done _
  · apply Writes.bind (deleteAll_writes _)
    intro isDeleted
    split
    · exact writes_done _
    · dsimp only
      split
      · apply writes_read rfl
        intro released
        exact writes_done _
      · exact writes_done _

theorem createPod_writes
    (displayName : Option String)
    (answer : Response) :
    Writes (fun key => key.owner = ownerPubkey)
      (upstream.createPod ownerPubkey displayName answer) := by
  unfold Upstream.createPod Upstream.podExists
  apply Writes.bind
  · apply writes_read rfl
    intro found
    split
    · exact writes_done _
    · exact writes_done _
  · intro isThere
    split
    · exact writes_done _
    · exact provisionPod_writes upstream displayName answer

end Parts

/-! ## The route to a resource -/

/-- The owner and the path of the resource that a request is for, when no other route
takes it. -/
def Request.targetResource (request : Request) : Option (String × String) :=
  if request.method = .options || request.path = "/.pods" || request.authorization.mismatched then
    none
  else
    (parsePodRoute request.path).filter fun route =>
      !(isDotGitPath route.2 || isGitRequest route.2 || isProvisionPath route.2 ||
        isDeprovisionPath route.2 || isAclPath route.2)

theorem fetch_of_targetResource
    (upstream : Upstream)
    {request : Request}
    {ownerPubkey path : String}
    (isTarget : request.targetResource = some (ownerPubkey, path)) :
    upstream.fetch request = upstream.handleResource request ownerPubkey path := by
  unfold Request.targetResource at isTarget
  split at isTarget
  · cases isTarget
  · rename_i notElsewhere
    obtain ⟨isRoute, isResource⟩ := Option.filter_eq_some_iff.mp isTarget
    simp only [Bool.or_eq_true, decide_eq_true_eq, not_or, Bool.not_eq_true] at notElsewhere
    simp only [Bool.not_eq_true', Bool.or_eq_false_iff] at isResource
    unfold Upstream.fetch Upstream.handlePod
    rw [if_neg notElsewhere.1.1, if_neg notElsewhere.1.2, isRoute]
    dsimp only
    rw [isResource.1.1.1.1, isResource.1.1.1.2, isResource.1.1.2, isResource.1.2,
      isResource.2, notElsewhere.2]
    rfl

/-! ## The policy that lets a request through -/

section Lookup

variable (upstream : Upstream) (ownerPubkey : String)

/-- A read that is answered tells what is stored; one that is not tells nothing. -/
theorem get_answer
    (world : World)
    (key : ObjectKey) :
    (world.answer (.get key)).1.storage = world.storage ∧
      ((world.answer (.get key)).2 = some (world.storage.bucket.find? key) ∨
        (world.answer (.get key)).2 = none) := by
  refine ⟨World.answer_of_reads (fun _ => rfl) world, ?_⟩
  rcases world.answer_reply (.get key) with ⟨-, answered⟩ | failed
  · exact Or.inl answered
  · exact Or.inr failed

/-- Only an admin is taken for one. -/
theorem isAdmin_answer
    (world : World)
    (pubkey : String) :
    (world.answer (.isAdmin pubkey)).1.storage = world.storage ∧
      ((world.answer (.isAdmin pubkey)).2 = true → pubkey ∈ world.storage.admins) := by
  refine ⟨World.answer_of_reads (fun _ => rfl) world, ?_⟩
  intro isAdmin
  rcases world.answer_reply (.isAdmin pubkey) with ⟨-, answered⟩ | failed
  · rw [answered] at isAdmin
    exact List.contains_iff_mem.mp isAdmin
  · rw [failed] at isAdmin
    cases isAdmin

theorem kvGet_answer
    (world : World)
    (key : String) :
    (world.answer (.kvGet key)).1.storage = world.storage ∧
      ((world.answer (.kvGet key)).2 = some (world.storage.kv key) ∨
        (world.answer (.kvGet key)).2 = none) := by
  refine ⟨World.answer_of_reads (fun _ => rfl) world, ?_⟩
  rcases world.answer_reply (.kvGet key) with ⟨-, answered⟩ | failed
  · exact Or.inl answered
  · exact Or.inr failed

/-- What the sidecars are found to say is what they say; only when all are absent do
they say nothing. -/
theorem walkSidecars_run
    (probes : List (String × Bool))
    (world : World) :
    let ran := (upstream.walkSidecars ownerPubkey probes).run World.answer world
    ran.1.storage = world.storage ∧
      (ran.2 = none → upstream.settledSidecar world.storage ownerPubkey probes = none) ∧
      ∀ document, ran.2 = some (some document) →
        upstream.settledSidecar world.storage ownerPubkey probes = some (some document) := by
  induction probes generalizing world with
  | nil =>
      refine ⟨rfl, fun _ => rfl, ?_⟩
      rintro document ⟨⟩
  | cons probe probes inductionHypothesis =>
      obtain ⟨probePath, inherited⟩ := probe
      obtain ⟨sameStorage, answer⟩ := get_answer world ⟨ownerPubkey, probePath⟩
      unfold Upstream.walkSidecars Upstream.settledSidecar Storage.stored
      rw [Lib.Program.call_bind, Lib.Program.run_perform]
      rcases answer with answered | failed
      · rw [answered]
        cases world.storage.bucket.find? ⟨ownerPubkey, probePath⟩ with
        | none =>
            have rest := inductionHypothesis (world.answer (.get ⟨ownerPubkey, probePath⟩)).1
            rw [sameStorage] at rest
            exact rest
        | some object =>
            refine ⟨sameStorage, ?_, ?_⟩
            · rintro ⟨⟩
            · intro document found
              exact found
      · rw [failed]
        refine ⟨sameStorage, ?_, ?_⟩
        · rintro ⟨⟩
        · rintro document ⟨⟩

/-- A policy that is found is the effective one. -/
theorem findEffectiveAcl_run
    (resourcePath : String)
    (world : World) :
    let ran := (upstream.findEffectiveAcl ownerPubkey resourcePath).run World.answer world
    ran.1.storage = world.storage ∧
      ∀ document, ran.2 = some document →
        upstream.effectiveAcl world.storage ownerPubkey resourcePath = some document := by
  obtain ⟨sameStorage, absent, present⟩ := walkSidecars_run upstream ownerPubkey
    (aclProbeSequence resourcePath) world
  unfold Upstream.findEffectiveAcl Upstream.effectiveAcl
  rw [Lib.Program.run_bind]
  cases walked : ((upstream.walkSidecars ownerPubkey (aclProbeSequence resourcePath)).run
      World.answer world).2 with
  | some settled =>
      refine ⟨sameStorage, ?_⟩
      intro document found
      have isFound : settled = some document := found
      rw [present document (by rw [walked, isFound])]
      rfl
  | none =>
      rw [absent walked]
      dsimp only
      rw [Lib.Program.call_bind, Lib.Program.run_perform]
      obtain ⟨unchanged, answer⟩ := kvGet_answer
        ((upstream.walkSidecars ownerPubkey (aclProbeSequence resourcePath)).run
          World.answer world).1 s!"acl:{ownerPubkey}"
      rw [sameStorage] at unchanged answer
      rcases answer with answered | failed
      · rw [answered]
        cases world.storage.kv s!"acl:{ownerPubkey}" with
        | none =>
            refine ⟨unchanged, ?_⟩
            rintro document ⟨⟩
        | some text => exact ⟨unchanged, fun document found => found⟩
      · rw [failed]
        refine ⟨unchanged, ?_⟩
        rintro document ⟨⟩

/-- Who is let through by the policy that is found is let through by the effective
one. -/
theorem evaluateAccess_of_found
    {resourcePath agentPath : String}
    {agent : Option String}
    {mode : AccessMode}
    {world : World}
    (isGranted : upstream.evaluateAccess
      ((upstream.findEffectiveAcl ownerPubkey resourcePath).run World.answer world).2
      agent agentPath mode = true) :
    upstream.evaluateAccess (upstream.effectiveAcl world.storage ownerPubkey resourcePath)
      agent agentPath mode = true := by
  have found := (findEffectiveAcl_run upstream ownerPubkey resourcePath world).2
  cases isFound : ((upstream.findEffectiveAcl ownerPubkey resourcePath).run
      World.answer world).2 with
  | none =>
      rw [isFound, upstream.evaluateAccess_none] at isGranted
      cases isGranted
  | some document =>
      rw [isFound] at isGranted
      rw [found document isFound]
      exact isGranted

end Lookup

end Pod
end NostrBbs
