import NostrBbs.Lib.Run
import NostrBbs.Pod.Reach

/-!
# Who changes a policy

A sidecar is written by its own handler, which asks for control of the resource that it
protects, by the provisioning and the teardown of its pod, which ask for the owner or an
admin, and by what is posted to a container under the name of a sidecar.
-/

namespace NostrBbs
namespace Pod

open Lib.Program (call)

/-! ## Names of sidecars -/

theorem endsWith_iff
    {ending text : String} :
    endsWith ending text = true ↔ ending.toList <:+ text.toList := by
  unfold endsWith
  exact List.isSuffixOf_iff_suffix

theorem slash_ends_container
    {path : String}
    (container : isContainer path = true) :
    ['/'] <:+ path.toList := by
  unfold isContainer at container
  rw [Bool.or_eq_true, beq_iff_eq] at container
  rcases container with isRoot | isSlashed
  · rw [isRoot]
    decide
  · exact endsWith_iff.mp isSlashed

/-- An ending without a slash cannot reach into the container. -/
theorem suffix_child
    {ending start name : List Char}
    (noSlash : '/' ∉ ending)
    (slashed : ['/'] <:+ start)
    (isEnding : ending <:+ start ++ name) :
    ending <:+ name := by
  rcases List.suffix_or_suffix_of_suffix isEnding (List.suffix_append start name) with
    inName | ⟨rest, rfl⟩
  · exact inName
  · have restEnds : rest <:+ start := by
      obtain ⟨front, whole⟩ := isEnding
      rw [← List.append_assoc, List.append_left_inj] at whole
      exact ⟨front, whole⟩
    rcases List.suffix_or_suffix_of_suffix restEnds slashed with short | long
    · rcases List.suffix_cons_iff.mp short with isSlash | isNil
      · rw [isSlash] at noSlash
        simp at noSlash
      · rw [List.suffix_nil] at isNil
        rw [isNil, List.nil_append]
    · have member : '/' ∈ rest := long.subset (List.mem_singleton.mpr rfl)
      exact absurd (List.mem_append_left name member) noSlash

/-- A child of a container is a sidecar by its own name alone. -/
theorem isAclPath_child
    {path name : String}
    (container : isContainer path = true)
    (isAcl : isAclPath (path ++ name) = true) :
    isAclPath name = true := by
  unfold isAclPath at isAcl ⊢
  rw [endsWith_iff] at isAcl ⊢
  rw [String.toList_append] at isAcl
  exact suffix_child (by decide) (slash_ends_container container) isAcl

theorem hexDigit_ne_l
    (value : Nat) :
    hexDigit value ≠ 'l' := by
  have small : value % 16 < 16 := Nat.mod_lt value (by decide)
  unfold hexDigit
  generalize value % 16 = digit at small
  interval_cases digit <;> decide

/-- A name that is made of the time ends with a hexadecimal digit, and is no
sidecar's. -/
theorem isAclPath_generateId
    (now : Nat) :
    isAclPath (generateId now) = false := by
  rw [Bool.eq_false_iff]
  intro isAcl
  unfold isAclPath at isAcl
  rw [endsWith_iff] at isAcl
  have ending : ['l'] <:+ (generateId now).toList :=
    List.IsSuffix.trans (by decide) isAcl
  have digits : ∃ front value, (generateId now).toList = front ++ [hexDigit value] := by
    unfold generateId
    rw [String.toList_ofList]
    exact ⟨_, idByte now 15,
      (List.append_assoc _ [hexDigit (idByte now 15 / 16)] [hexDigit (idByte now 15)]).symm⟩
  obtain ⟨front, value, whole⟩ := digits
  rw [whole] at ending
  obtain ⟨start, same⟩ := ending
  have lastIs := (List.append_inj' same rfl).2
  rw [List.cons.injEq] at lastIs
  exact hexDigit_ne_l value lastIs.1.symm

/-! ## What is claimed, and what holds by design -/

section

variable (upstream : Upstream)

/-- A request, with how its operations go. -/
abbrev Input := Request × List Outcome

/-- What a request leaves that is answered alone. -/
def Upstream.step (storage : Storage) (input : Input) : Storage :=
  (upstream.respond ⟨storage, input.2⟩ input.1).1.storage

/-- The agent of a request holds control of what a sidecar protects. -/
def HoldsControl (storage : Storage) (request : Request) (key : ObjectKey) : Prop :=
  let target := upstream.protectedResource key.path
  upstream.evaluateAccess (upstream.effectiveAcl storage key.owner target)
    (upstream.agentUri request) target .control = true

/-- A sidecar changes for agents with control only. -/
def ControlsPolicies (storage : Storage) (input : Input) : Prop :=
  ∀ key, isAclPath key.path = true →
    (upstream.step storage input).stored key ≠ storage.stored key →
      HoldsControl upstream storage input.1 key

/-- Who is let manage a pod: its owner, or an admin. -/
def MayManage (storage : Storage) (request : Request) (owner : String) : Prop :=
  ∃ pubkey, request.requesterPubkey = some pubkey ∧ (pubkey = owner ∨ pubkey ∈ storage.admins)

/-- The provisioning or the teardown of a pod, by its owner or an admin. -/
def ManagesPod (storage : Storage) (request : Request) (owner : String) : Prop :=
  (request.path = "/.pods" ∧ request.requesterPubkey = some owner) ∨
    ∃ path, parsePodRoute request.path = some (owner, path) ∧
      (isProvisionPath path || isDeprovisionPath path) = true ∧ MayManage storage request owner

/-- A sidecar changes for agents with control only, and with its pod. -/
def ControlsPoliciesOrPod (storage : Storage) (input : Input) : Prop :=
  ∀ key, isAclPath key.path = true →
    (upstream.step storage input).stored key ≠ storage.stored key →
      HoldsControl upstream storage input.1 key ∨ ManagesPod storage input.1 key.owner

/-- What is posted to a container under a sidecar's name. -/
def SlugsSidecar (request : Request) : Prop :=
  request.method = .post ∧ (request.slug.filter slugAccepted).any isAclPath = true ∧
    ∃ owner path, parsePodRoute request.path = some (owner, path) ∧ isContainer path = true

end

/-! ## The parts of a request -/

section

variable (upstream : Upstream) {world : World} {request : Request} {ownerPubkey path : String}
  {key : ObjectKey}

/-- The child that a container is posted is no sidecar, unless its name is one's. -/
theorem isAclPath_resolveSlug
    (container : isContainer path = true)
    (slug : Option String)
    (now : Nat)
    (isAcl : isAclPath (resolveSlug path slug now) = true) :
    (slug.filter slugAccepted).any isAclPath = true := by
  unfold resolveSlug at isAcl
  have name := isAclPath_child container isAcl
  cases accepted : slug.filter slugAccepted with
  | none =>
      rw [accepted, Option.getD_none, isAclPath_generateId] at name
      cases name
  | some given =>
      rw [accepted, Option.getD_some] at name
      rw [Option.any_some]
      exact name

/-- The methods on resources leave the sidecars. -/
theorem handleResource_writes
    (notAcl : isAclPath path = false)
    (noSlug : ¬(request.method = .post ∧ isContainer path = true ∧
      (request.slug.filter slugAccepted).any isAclPath = true)) :
    Writes (fun key => isAclPath key.path = false)
      (upstream.handleResource request ownerPubkey path) := by
  unfold Upstream.handleResource
  apply Writes.bind (findEffectiveAcl_writes upstream _ ownerPubkey path)
  intro aclDoc
  split
  · split
    · exact writes_done _
    · exact writes_done _
  · cases isMethod : request.method with
    | get => exact handleGet_writes upstream _ request ownerPubkey path
    | head => exact handleGet_writes upstream _ request ownerPubkey path
    | put => exact handlePut_writes upstream request notAcl
    | post =>
        dsimp only
        split
        · rename_i container
          apply handlePostContainer_writes request
          rw [Bool.eq_false_iff]
          intro isAcl
          exact noSlug ⟨isMethod, container, isAclPath_resolveSlug container _ _ isAcl⟩
        · exact handlePostResource_writes request notAcl
    | patch => exact handlePatch_writes upstream request notAcl
    | delete => exact handleDelete_writes request notAcl
    | options => exact writes_done _
    | connect => exact writes_done _
    | trace => exact writes_done _

/-- The handler of sidecars writes the one it is for, and only for agents with
control. -/
theorem handleAclRequest_controls
    (changed : ((upstream.handleAclRequest request ownerPubkey path).run World.answer
      world).1.storage.stored key ≠ world.storage.stored key) :
    HoldsControl upstream world.storage request key := by
  have sameStorage := (findEffectiveAcl_run upstream ownerPubkey
    (upstream.protectedResource path) world).1
  by_contra noControl
  have kept : ∀ parentAcl (program : PodProgram Response) (current : World),
      upstream.evaluateAccess parentAcl (upstream.agentUri request)
          (upstream.protectedResource path) .control = false ∨ key ≠ ⟨ownerPubkey, path⟩ →
        Writes (fun other => other = ⟨ownerPubkey, path⟩ ∧ upstream.evaluateAccess parentAcl
          (upstream.agentUri request) (upstream.protectedResource path) .control = true)
          program →
        (program.run World.answer current).1.storage.stored key =
          current.storage.stored key := by
    intro parentAcl program current refused writes
    apply writes.keeps
    rintro ⟨sameKey, granted⟩
    rcases refused with denied | otherKey
    · rw [granted] at denied
      cases denied
    · exact otherKey sameKey
  apply changed
  unfold Upstream.handleAclRequest
  rw [Lib.Program.run_bind]
  refine (kept ((upstream.findEffectiveAcl ownerPubkey (upstream.protectedResource path)).run
    World.answer world).2 _ _ ?refused ?writes).trans
    (congrArg (fun storage => storage.stored key) sameStorage)
  case refused =>
    by_contra both
    rw [not_or, Bool.not_eq_false, not_not] at both
    obtain ⟨granted, rfl⟩ := both
    exact noControl (evaluateAccess_of_found upstream ownerPubkey granted)
  case writes =>
    split
    · exact handleAclRead_writes upstream _ request ownerPubkey path _
    · exact handleAclRead_writes upstream _ request ownerPubkey path _
    · exact handleAclPut_writes upstream request _ fun granted => ⟨rfl, granted⟩
    · exact handleAclDelete_writes upstream request _ fun granted => ⟨rfl, granted⟩
    · exact writes_done _

/-! ## The routes -/

/-- A program that looks up an admin first, and writes in one pod for admins only. -/
theorem mayManage_of_isAdmin
    {pubkey : String}
    {continuation : (Op.isAdmin pubkey).Answer → PodProgram Response}
    (requester : request.requesterPubkey = some pubkey)
    (writes : ∀ isAdmin, Writes
      (fun key => key.owner = ownerPubkey ∧ (pubkey = ownerPubkey ∨ isAdmin = true))
      (continuation isAdmin))
    (changed : ((call (Op.isAdmin pubkey) >>= continuation).run World.answer
      world).1.storage.stored key ≠ world.storage.stored key) :
    key.owner = ownerPubkey ∧ MayManage world.storage request ownerPubkey := by
  obtain ⟨sameStorage, onlyAdmins⟩ := isAdmin_answer world pubkey
  by_contra notManaged
  apply changed
  rw [Lib.Program.call_bind, Lib.Program.run_perform]
  refine ((writes _).keeps ?_ _).trans (congrArg (fun storage => storage.stored key) sameStorage)
  rintro ⟨isOwn, isOwner | isAdmin⟩
  · exact notManaged ⟨isOwn, pubkey, requester, Or.inl isOwner⟩
  · exact notManaged ⟨isOwn, pubkey, requester, Or.inr (onlyAdmins isAdmin)⟩

theorem handleProvision_manages
    (changed : ((upstream.handleProvision request ownerPubkey).run World.answer
      world).1.storage.stored key ≠ world.storage.stored key) :
    key.owner = ownerPubkey ∧ MayManage world.storage request ownerPubkey := by
  unfold Upstream.handleProvision at changed
  split at changed
  · exact absurd rfl changed
  · split at changed
    · exact absurd rfl changed
    · rename_i pubkey requester
      refine mayManage_of_isAdmin requester ?_ changed
      intro isAdmin
      split
      · exact writes_done _
      · rename_i isManager
        have manager : pubkey = ownerPubkey ∨ isAdmin = true := by
          simpa [or_iff_not_imp_left] using isManager
        exact (createPod_writes upstream _ _).mono fun key inPod => ⟨inPod, manager⟩

theorem handleDeprovision_manages
    (changed : ((Upstream.handleDeprovision request ownerPubkey).run World.answer
      world).1.storage.stored key ≠ world.storage.stored key) :
    key.owner = ownerPubkey ∧ MayManage world.storage request ownerPubkey := by
  unfold Upstream.handleDeprovision at changed
  split at changed
  · exact absurd rfl changed
  · split at changed
    · exact absurd rfl changed
    · rename_i pubkey requester
      split at changed
      · rename_i isOwner
        by_contra notManaged
        exact changed ((tearDown_writes request).keeps
          (fun inPod => notManaged ⟨inPod, pubkey, requester, Or.inl isOwner⟩) world)
      · refine mayManage_of_isAdmin requester ?_ changed
        intro isAdmin
        split
        · exact writes_done _
        · exact (tearDown_writes request).mono fun key inPod => ⟨inPod, Or.inr rfl⟩

theorem handlePods_manages
    (changed : ((upstream.handlePods request).run World.answer
      world).1.storage.stored key ≠ world.storage.stored key) :
    request.requesterPubkey = some key.owner := by
  unfold Upstream.handlePods at changed
  split at changed
  · exact absurd rfl changed
  · split at changed
    · exact absurd rfl changed
    · dsimp only at changed
      split at changed
      · exact absurd rfl changed
      · split at changed
        · exact absurd rfl changed
        · rename_i requester
          rw [ne_eq, not_not] at requester
          by_contra notOwner
          refine changed ((createPod_writes upstream _ _).keeps ?_ world)
          intro isOwner
          rw [← isOwner] at requester
          exact notOwner requester

/-- A request to a pod changes a sidecar with control of what it protects, with the pod,
or under a slug that names it. -/
theorem handlePod_controls
    (isRoute : parsePodRoute request.path = some (ownerPubkey, path))
    (noSlug : ¬SlugsSidecar request)
    (isAcl : isAclPath key.path = true)
    (changed : ((upstream.handlePod request ownerPubkey path).run World.answer
      world).1.storage.stored key ≠ world.storage.stored key) :
    HoldsControl upstream world.storage request key ∨
      ManagesPod world.storage request key.owner := by
  unfold Upstream.handlePod at changed
  split at changed
  · exact absurd rfl changed
  · split at changed
    · exact absurd rfl changed
    · split at changed
      · exact absurd rfl changed
      · split at changed
        · rename_i provisions
          obtain ⟨isOwn, manager⟩ := handleProvision_manages upstream changed
          rw [isOwn]
          exact Or.inr (Or.inr ⟨path, isRoute, by rw [provisions, Bool.true_or], manager⟩)
        · split at changed
          · rename_i tearsDown
            obtain ⟨isOwn, manager⟩ := handleDeprovision_manages changed
            rw [isOwn]
            exact Or.inr (Or.inr ⟨path, isRoute, by rw [tearsDown, Bool.or_true], manager⟩)
          · split at changed
            · exact Or.inl (handleAclRequest_controls upstream changed)
            · rename_i notAcl
              rw [Bool.not_eq_true] at notAcl
              have unnamed : ¬(request.method = .post ∧ isContainer path = true ∧
                  (request.slug.filter slugAccepted).any isAclPath = true) :=
                fun ⟨isPost, container, slugged⟩ =>
                  noSlug ⟨isPost, slugged, ownerPubkey, path, isRoute, container⟩
              refine absurd ((handleResource_writes upstream notAcl unnamed).keeps ?_ world) changed
              rw [isAcl]
              decide

/-- A request that does not post to a container under a sidecar's name changes sidecars
with control of what they protect, or with their pod. -/
theorem step_controls
    (storage : Storage)
    (input : Input)
    (noSlug : ¬SlugsSidecar input.1) :
    ControlsPoliciesOrPod upstream storage input := by
  intro key isAcl changed
  unfold Upstream.step Upstream.respond Upstream.fetch at changed
  split at changed
  · exact absurd rfl changed
  · split at changed
    · rename_i isPods
      exact Or.inr (Or.inl ⟨isPods, handlePods_manages upstream changed⟩)
    · split at changed
      · exact absurd rfl changed
      · rename_i isRoute
        exact handlePod_controls upstream isRoute noSlug isAcl changed

/-- Along every run of requests, whatever becomes of their operations, a sidecar changes
for agents with control of what it protects, or with its pod, unless a request posts to a
container under a sidecar's name. -/
theorem controlsPolicies_run
    (start : Storage)
    (inputs : List Input) :
    Lib.Along upstream.step
      (fun storage input => ¬SlugsSidecar input.1 → ControlsPoliciesOrPod upstream storage input)
      start inputs := by
  induction inputs generalizing start with
  | nil => trivial
  | cons input inputs inductionHypothesis =>
      exact ⟨step_controls upstream start input, inductionHypothesis _⟩

end

/-! ## A pod is provisioned, and an inbox is taken over -/

namespace Sample

def owner : String :=
  "aaaaaaaaaaaaaaaaaaaaaaaaaaaaaaaaaaaaaaaaaaaaaaaaaaaaaaaaaaaaaaaa"

def visitor : String :=
  "bbbbbbbbbbbbbbbbbbbbbbbbbbbbbbbbbbbbbbbbbbbbbbbbbbbbbbbbbbbbbbbb"

/-- An evaluator for policies that name single agents, or every authenticated agent. -/
def evaluate (document : Option AclDocument) (agent : Option String) (_ : String)
    (mode : AccessMode) : Bool :=
  document.any fun document => document.graph.any fun authorization =>
    (authorization.agent = agent.map IdOrIds.single ||
      authorization.agentClass = some (.single "acl:AuthenticatedAgent")) && agent.isSome &&
    authorization.mode = Upstream.modesValue [mode]

/-- The policy of an inbox: authenticated agents may append. -/
def appendPolicy : AclDocument :=
  ⟨[⟨none, none, none, some (.single "acl:AuthenticatedAgent"), none, none,
    some (.single "acl:Append")⟩], false⟩

def upstream : Upstream where
  parseJson _ := none
  toVec _ := [1]
  serializeAcl _ := [2]
  classifyPolicy body _ := if body = [1] then some appendPolicy else none
  evaluateAccess := evaluate
  evaluateAccess_none _ _ _ := rfl
  methodToMode method := if method = "POST" then .append else if method = "GET" then .read else .write
  effectiveAclTarget path mode :=
    if isAclPath path then (String.ofList (path.toList.take (path.toList.length - 4)), .control)
    else (path, mode)
  didNostr pubkey := some ("did:nostr:" ++ pubkey)
  etag _ := "etag"
  parsePatch _ := none
  validateWebidHtml _ := none
  webidHtml _ _ _ := [3]
  podBase := "https://pods.example"

def posts (signer path : String) (slug : Option String) (body : Bytes) : Request where
  method := .post
  path := "/pods/" ++ owner ++ path
  authorization := .verified signer true
  slug := slug
  contentType := none
  contentLength := none
  ifMatch := none
  ifNoneMatch := none
  body := some body
  now := 0

end Sample

/-- The owner of a pod that is provisioned holds no control before its policies are
there. -/
theorem provisioned_without_control :
    ¬Lib.Along Sample.upstream.step (ControlsPolicies Sample.upstream) Storage.empty
      [(Sample.posts Sample.owner "/.provision" none [], [])] := by
  rintro ⟨controls, -⟩
  have isAcl : isAclPath "/.acl" = true := by decide
  have holds := controls ⟨Sample.owner, "/.acl"⟩ isAcl (by decide +kernel)
  have unheld : ¬HoldsControl Sample.upstream Storage.empty
      (Sample.posts Sample.owner "/.provision" none []) ⟨Sample.owner, "/.acl"⟩ := by
    unfold HoldsControl
    decide +kernel
  exact unheld holds

/-- A visitor who may append to an inbox puts a policy of their own in its place. -/
example :
    let inbox : Storage := (Storage.empty.after
      (.put ⟨⟨Sample.owner, "/inbox/.acl"⟩, [1], "application/ld+json"⟩))
    let request := Sample.posts Sample.visitor "/inbox/" (some ".acl") [7]
    (Sample.upstream.step inbox (request, [])).stored ⟨Sample.owner, "/inbox/.acl"⟩ = some [7] := by
  decide +kernel

end Pod
end NostrBbs
