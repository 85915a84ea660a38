import NostrBbs.Pod.Storage

/-!
# Policies

The policy of a resource is the first sidecar that is present, the most specific first,
or else the pod's older policy.  Parsing a policy and evaluating it are done elsewhere.
-/

namespace NostrBbs
namespace Pod

open Relay (JsonValue)

inductive AccessMode where
  | read
  | write
  | append
  | control
deriving DecidableEq

inductive IdOrIds where
  | single (id : String)
  | multiple (ids : List String)
deriving DecidableEq

structure AclAuthorization where
  id : Option String
  type : Option String
  agent : Option IdOrIds
  agentClass : Option IdOrIds
  accessTo : Option IdOrIds
  default : Option IdOrIds
  mode : Option IdOrIds
deriving DecidableEq

structure AclDocument where
  graph : List AclAuthorization
  inherited : Bool
deriving DecidableEq

/-- What the pod worker takes from the libraries that it is built on and from the
deployment.  Without a policy nothing is granted.  How a patch changes a document, and
whether a document is a WebID profile, are taken as given too. -/
structure Upstream where
  parseJson : Bytes → Option JsonValue
  toVec : JsonValue → Bytes
  serializeAcl : AclDocument → Bytes
  classifyPolicy : Bytes → Bool → Option AclDocument
  evaluateAccess : Option AclDocument → Option String → String → AccessMode → Bool
  evaluateAccess_none : ∀ agent path mode, evaluateAccess none agent path mode = false
  methodToMode : String → AccessMode
  effectiveAclTarget : String → AccessMode → String × AccessMode
  didNostr : String → Option String
  etag : Bytes → String
  parsePatch : Bytes → Option (Bytes → Except String Bytes)
  validateWebidHtml : Bytes → Option String
  webidHtml : String → Option String → String → Bytes
  podBase : String

/-- Hard cap on the size of a policy. -/
def maxAclDocBytes : Nat :=
  64 * 1024

namespace Upstream

variable (upstream : Upstream)

/-- The policy in a sidecar that is present, none when it is invalid. -/
def classifyKitPolicy (body : Bytes) (inherited : Bool) : Option AclDocument :=
  if maxAclDocBytes < body.length then none else upstream.classifyPolicy body inherited

def parseAclWithCap (bytes : Bytes) : Option AclDocument :=
  upstream.classifyKitPolicy bytes false

/-- The owner keeps control under a policy. -/
def preservesOwnerControl (document : AclDocument) (ownerDid protectedPath : String) : Bool :=
  upstream.evaluateAccess (some document) (some ownerDid) protectedPath .control

/-- The mode that a method needs, which is control on a sidecar. -/
def coerceRequiredModeForAcl (path method : String) : AccessMode :=
  (upstream.effectiveAclTarget path (upstream.methodToMode method)).2

def ownerDid (ownerPubkey : String) : String :=
  (upstream.didNostr ownerPubkey).getD s!"did:nostr:{ownerPubkey}"

/-! ## Lookup -/

/-- What the sidecars say, none when all are absent.  An unreadable or invalid one
settles for no policy. -/
def walkSidecars (ownerPubkey : String) :
    List (String × Bool) → PodProgram (Option (Option AclDocument))
  | [] => pure none
  | (probePath, inherited) :: probes => do
      match ← Lib.Program.call (Op.get ⟨ownerPubkey, probePath⟩) with
      | some none => walkSidecars ownerPubkey probes
      | some (some object) => pure (some (upstream.classifyKitPolicy object.bytes inherited))
      | none => pure (some none)

/-- The policy of a resource. -/
def findEffectiveAcl (ownerPubkey resourcePath : String) : PodProgram (Option AclDocument) := do
  match ← upstream.walkSidecars ownerPubkey (aclProbeSequence resourcePath) with
  | some settled => pure settled
  | none =>
      match ← Lib.Program.call (Op.kvGet s!"acl:{ownerPubkey}") with
      | some (some text) => pure (upstream.classifyKitPolicy text false)
      | some none => pure none
      | none => pure none

/-! ## The policy in a storage -/

/-- What the sidecars in a storage say. -/
def settledSidecar (storage : Storage) (ownerPubkey : String) :
    List (String × Bool) → Option (Option AclDocument)
  | [] => none
  | (probePath, inherited) :: probes =>
      match storage.stored ⟨ownerPubkey, probePath⟩ with
      | none => settledSidecar storage ownerPubkey probes
      | some bytes => some (upstream.classifyKitPolicy bytes inherited)

/-- The policy that is effective for a resource. -/
def effectiveAcl (storage : Storage) (ownerPubkey resourcePath : String) : Option AclDocument :=
  (upstream.settledSidecar storage ownerPubkey (aclProbeSequence resourcePath)).getD
    ((storage.kv s!"acl:{ownerPubkey}").bind fun text => upstream.classifyKitPolicy text false)

/-! ## Delegation -/

/-- The modes of a list in their order, each once. -/
def modesValue (modes : List AccessMode) : Option IdOrIds :=
  let refs := ([(.read, "acl:Read"), (.write, "acl:Write"), (.append, "acl:Append"),
      (.control, "acl:Control")] : List (AccessMode × String)).filterMap fun entry =>
    if modes.contains entry.1 then some entry.2 else none
  match refs with
  | [] => none
  | [ref] => some (.single ref)
  | _ => some (.multiple refs)

/-- A policy of one agent on a container and all below it. -/
def containerAuthorization (id agent path : String) (mode : Option IdOrIds) : AclAuthorization where
  id := some id
  type := some "acl:Authorization"
  agent := some (.single agent)
  agentClass := none
  accessTo := some (.single path)
  default := some (.single path)
  mode := mode

/-- A policy that grants an agent modes on a container, never control, and keeps the
owner's. -/
def buildDelegationAcl (ownerDid agentDid containerPath : String) (modes : List AccessMode) :
    AclDocument :=
  let path := if containerPath == "" then "/" else containerPath
  let ownerAuth := containerAuthorization "#owner" ownerDid path
    (modesValue [.read, .write, .control])
  let delegateAuth := (modesValue (modes.filter (· ≠ .control))).map fun mode =>
    containerAuthorization "#delegate" agentDid path (some mode)
  ⟨ownerAuth :: delegateAuth.toList, false⟩

def field (name : String) : JsonValue → Option JsonValue
  | .object fields => fields.lookup name
  | _ => none

/-- The modes that a grant names, control passed over. -/
def grantedModes : List JsonValue → Option (List AccessMode)
  | [] => some []
  | .string "acl:Read" :: rest => (grantedModes rest).map (AccessMode.read :: ·)
  | .string "acl:Write" :: rest => (grantedModes rest).map (AccessMode.write :: ·)
  | .string "acl:Append" :: rest => (grantedModes rest).map (AccessMode.append :: ·)
  | .string "acl:Control" :: rest => grantedModes rest
  | _ :: _ => none

/-- The policy text that is to be stored: a grant is written out, and any other body is
taken as it is. -/
def policyText (ownerPubkey parentPath : String) (body : Bytes) : Except String Bytes :=
  match (upstream.parseJson body).bind (field "@delegation") with
  | none => .ok body
  | some grant =>
      match (field "agent" grant).bind JsonValue.asStr with
      | none => .error "Invalid delegation: @delegation.agent (did:nostr) required"
      | some agentDid =>
          if !startsWith "did:nostr:" agentDid then
            .error "Invalid delegation: agent must be a did:nostr identifier"
          else
            let named := ((field "modes" grant).bind JsonValue.asArray).getD []
            match grantedModes named with
            | none => .error "Invalid delegation: modes must be acl:Read/Write/Append"
            | some modes =>
                let container := if endsWith "/" parentPath then parentPath else parentPath ++ "/"
                .ok (upstream.serializeAcl
                  (buildDelegationAcl (upstream.ownerDid ownerPubkey) agentDid container modes))

end Upstream

end Pod
end NostrBbs
