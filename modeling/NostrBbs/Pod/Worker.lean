import NostrBbs.Pod.Requests

/-!
# The pod worker

The routes that reach what a pod is stored in: provisioning and teardown, the sidecars
with their own handler, and the methods on every other resource.  The health, discovery
and payment routes reach none of it.  Subscribers are notified of a write afterwards,
which changes nothing here.
-/

namespace NostrBbs
namespace Pod

open Relay (JsonValue)
open Lib.Program (call)

namespace Upstream

variable (upstream : Upstream)

/-! ## Provisioning -/

def ldp (name value : String) : String × JsonValue :=
  (name, .string value)

def idRef (id : String) : JsonValue :=
  .object [ldp "@id" id]

def containerMeta : JsonValue :=
  .object [("@context", .object [ldp "ldp" "http://www.w3.org/ns/ldp#"]),
    ldp "@type" "ldp:BasicContainer"]

/-- One authorization of a policy that is provisioned. -/
def authorizationJson (id : String) (subject : String × JsonValue) (modes : JsonValue) :
    JsonValue :=
  .object [ldp "@id" id, subject, ("acl:accessTo", idRef "./"), ("acl:default", idRef "./"),
    ("acl:mode", modes)]

def ownerModes : JsonValue :=
  .array [idRef "acl:Read", idRef "acl:Write", idRef "acl:Control"]

def ownerEntry (ownerDid : String) : JsonValue :=
  authorizationJson "#owner" ("acl:agent", idRef ownerDid) ownerModes

def aclJson (entries : List JsonValue) : JsonValue :=
  .object [("@context", .object [ldp "acl" "http://www.w3.org/ns/auth/acl#"]),
    ("@graph", .array entries)]

def ownerOnlyAcl (ownerDid : String) : JsonValue :=
  aclJson [ownerEntry ownerDid]

def publicAcl (ownerDid : String) : JsonValue :=
  aclJson [authorizationJson "#public" ("acl:agentClass", idRef "foaf:Agent") (idRef "acl:Read"),
    ownerEntry ownerDid]

def inboxAcl (ownerDid : String) : JsonValue :=
  aclJson [authorizationJson "#authenticated-append"
      ("acl:agentClass", idRef "acl:AuthenticatedAgent") (idRef "acl:Append"),
    ownerEntry ownerDid]

def defaultContainers : List String :=
  ["profile/", "public/", "private/", "inbox/", "settings/", "media/", "media/public/"]

def publicTypeIndexPath : String :=
  "settings/publicTypeIndex.jsonld"

def privateTypeIndexPath : String :=
  "settings/privateTypeIndex.jsonld"

def publicTypeIndexAclPath : String :=
  "settings/publicTypeIndex.jsonld.acl"

def typeIndexBody (podBaseUrl visibilityMarker : String) : JsonValue :=
  .object [("@context", .object [ldp "solid" "http://www.w3.org/ns/solid/terms#"]),
    ldp "@id" podBaseUrl,
    ("@type", .array [.string "solid:TypeIndex", .string visibilityMarker]),
    ("http://www.w3.org/ns/solid/terms#TypeRegistration", .array [])]

def publicTypeIndexAcl (ownerDid : String) : JsonValue :=
  .object [("@context", .object [ldp "acl" "http://www.w3.org/ns/auth/acl#",
      ldp "foaf" "http://xmlns.com/foaf/0.1/"]),
    ("@graph", .array
      [.object [ldp "@id" "#owner", ldp "@type" "acl:Authorization",
        ("acl:agent", idRef ownerDid), ("acl:accessTo", idRef ("/" ++ publicTypeIndexPath)),
        ("acl:mode", ownerModes)],
      .object [ldp "@id" "#public", ldp "@type" "acl:Authorization",
        ("acl:agentClass", idRef "foaf:Agent"),
        ("acl:accessTo", idRef ("/" ++ publicTypeIndexPath)), ("acl:mode", idRef "acl:Read")]])]

/-- What a new pod holds, in the order it is written. -/
def provisionedObjects (ownerPubkey : String) (displayName : Option String) :
    List StoredObject :=
  let did := upstream.ownerDid ownerPubkey
  let podUrl := s!"{upstream.podBase}/pods/{ownerPubkey}/"
  let json (path : String) (document : JsonValue) : StoredObject :=
    ⟨⟨ownerPubkey, "/" ++ path⟩, upstream.toVec document, "application/ld+json"⟩
  [json "" containerMeta] ++ (defaultContainers.map fun path => json path containerMeta) ++
    [⟨⟨ownerPubkey, "/profile/card"⟩,
        upstream.webidHtml ownerPubkey displayName upstream.podBase, "text/html"⟩,
      json ".acl" (ownerOnlyAcl did),
      json "public/.acl" (publicAcl did),
      json "media/public/.acl" (publicAcl did),
      json "private/.acl" (ownerOnlyAcl did),
      json "inbox/.acl" (inboxAcl did),
      json "profile/.acl" (publicAcl did),
      json "settings/.acl" (ownerOnlyAcl did),
      json publicTypeIndexPath (typeIndexBody (podUrl ++ publicTypeIndexPath)
        "solid:ListedDocument"),
      json privateTypeIndexPath (typeIndexBody (podUrl ++ privateTypeIndexPath)
        "solid:UnlistedDocument"),
      json publicTypeIndexAclPath (publicTypeIndexAcl did)]

/-- Objects written one after another, until a write fails. -/
def putAll : List StoredObject → PodProgram Bool
  | [] => pure true
  | object :: objects => do
      match ← call (Op.put object) with
      | false => pure false
      | true => putAll objects

/-- A pod has a root container; one that cannot be read counts as none. -/
def podExists (ownerPubkey : String) : PodProgram Bool := do
  match ← call (Op.get ⟨ownerPubkey, "/"⟩) with
  | some found => pure found.isSome
  | none => pure false

def provisionPod (ownerPubkey : String) (displayName : Option String) (answer : Response) :
    PodProgram Response := do
  match ← putAll (upstream.provisionedObjects ownerPubkey displayName) with
  | true => pure answer
  | false => pure (.internalError "R2 put")

/-- A pod provisioned, unless there is one. -/
def createPod (ownerPubkey : String) (displayName : Option String) (answer : Response) :
    PodProgram Response := do
  match ← podExists ownerPubkey with
  | true => pure (jsonError "Pod already provisioned" 409)
  | false => upstream.provisionPod ownerPubkey displayName answer

/-- The name that a body gives a pod's owner. -/
def displayNameOf (body : Option Bytes) : Option String :=
  ((body.bind upstream.parseJson).bind (field "display_name")).bind JsonValue.asStr

def handleProvision (request : Request) (ownerPubkey : String) : PodProgram Response := do
  if request.method ≠ .post then pure (jsonError "Method not allowed; use POST" 405)
  else
    match request.requesterPubkey with
    | none => pure (jsonError "Authentication required" 401)
    | some reqPk =>
        let isAdmin ← call (Op.isAdmin reqPk)
        if reqPk ≠ ownerPubkey && !isAdmin then
          pure (jsonError "Only the pod owner or admin can provision" 403)
        else
          upstream.createPod ownerPubkey (upstream.displayNameOf request.bodyBytes)
            (.success 201 "provisioned")

/-- The creation of a pod by the member it is for. -/
def handlePods (request : Request) : PodProgram Response :=
  if request.method ≠ .post then pure (jsonError "Method not allowed; use POST" 405)
  else
    match upstream.parseJson request.data with
    | none => pure (.internalError "Invalid JSON body")
    | some parsed =>
        let name := ((field "name" parsed).bind JsonValue.asStr).getD ""
        if !isValidWorkerPodName name then
          pure (jsonError "Pod name must be a 64-character Nostr pubkey" 400)
        else if request.requesterPubkey ≠ some name then
          pure (jsonError "Authentication required for this pod name" 401)
        else upstream.createPod name none (.created s!"{upstream.podBase}/pods/{name}/")

/-! ## Teardown -/

/-- What is listed deleted one after another, until a deletion fails. -/
def deleteAll (ownerPubkey : String) : List (String × Nat) → PodProgram Bool
  | [] => pure true
  | (path, _) :: listed => do
      match ← call (Op.delete ⟨ownerPubkey, path⟩) with
      | false => pure false
      | true => deleteAll ownerPubkey listed

def totalSize (listed : List (String × Nat)) : Nat :=
  (listed.map Prod.snd).sum

/-- Everything that a pod holds deleted, and its bytes given back to its owner.  The
pages of the listing are read as one. -/
def tearDown (request : Request) (ownerPubkey : String) : PodProgram Response := do
  match ← call (Op.list ownerPubkey) with
  | none => pure (.internalError "R2 list")
  | some listed =>
      match ← deleteAll ownerPubkey listed with
      | false => pure (.internalError "R2 delete")
      | true =>
          let bytesFreed := totalSize listed
          if 0 < bytesFreed then
            let _ ← call (Op.updateUsage ownerPubkey (-bytesFreed) request.now)
            pure (.success 200 "deprovisioned")
          else pure (.success 200 "deprovisioned")

/-- A pod torn down, by its owner or an admin. -/
def handleDeprovision (request : Request) (ownerPubkey : String) : PodProgram Response :=
  if request.method ≠ .post then pure (jsonError "Method not allowed; use POST" 405)
  else
    match request.requesterPubkey with
    | none => pure (jsonError "Authentication required" 401)
    | some reqPk =>
        if reqPk = ownerPubkey then tearDown request ownerPubkey
        else do
          match ← call (Op.isAdmin reqPk) with
          | false => pure (jsonError "Only the pod owner or an admin can deprovision" 403)
          | true => tearDown request ownerPubkey

/-! ## Sidecars -/

def agentUri (request : Request) : Option String :=
  request.requesterPubkey.bind upstream.didNostr

/-- The answer to a request without the mode that it needs. -/
def denied (request : Request) (message : String) : Response :=
  if request.requesterPubkey.isSome then jsonError message 403
  else jsonError "Authentication required" 401

/-- The resource that a sidecar protects. -/
def protectedResource (aclPath : String) : String :=
  (upstream.effectiveAclTarget aclPath .read).1

def handleAclRead (request : Request) (ownerPubkey aclPath : String)
    (parentAcl : Option AclDocument) : PodProgram Response := do
  let target := upstream.effectiveAclTarget aclPath .read
  if !upstream.evaluateAccess parentAcl (upstream.agentUri request) target.1 target.2 then
    pure (denied request "Forbidden")
  else
    match ← call (Op.get ⟨ownerPubkey, aclPath⟩) with
    | none => pure (.internalError "R2 get")
    | some none => pure (jsonError "No ACL document found" 404)
    | some (some object) =>
        let etag := upstream.etag object.bytes
        match checkPreconditions request etag with
        | some status => pure (.conditional status etag)
        | none => pure (.content (some etag) "application/ld+json" object.bytes)

def handleAclPut (request : Request) (ownerPubkey aclPath : String)
    (parentAcl : Option AclDocument) : PodProgram Response := do
  let parentPath := upstream.protectedResource aclPath
  if !upstream.evaluateAccess parentAcl (upstream.agentUri request) parentPath .control then
    pure (denied request "acl:Control required to modify ACL")
  else if maxAclDocBytes < request.contentLength.getD 0 || maxAclDocBytes < request.data.length then
    pure (jsonError s!"ACL exceeds {maxAclDocBytes} byte limit" 413)
  else
    match upstream.policyText ownerPubkey parentPath request.data with
    | .error message => pure (jsonError message 422)
    | .ok data =>
        match upstream.parseAclWithCap data with
        | none =>
            pure (jsonError "Invalid ACL document: must be valid JSON-LD with @graph" 422)
        | some document =>
            if !upstream.preservesOwnerControl document (upstream.ownerDid ownerPubkey)
                parentPath then
              pure (jsonError "ACL must preserve owner acl:Control" 422)
            else
              match ← call (Op.put ⟨⟨ownerPubkey, aclPath⟩, data, "application/ld+json"⟩) with
              | false => pure (.internalError "R2 put")
              | true => pure (.success 201 "ok")

def handleAclDelete (request : Request) (ownerPubkey aclPath : String)
    (parentAcl : Option AclDocument) : PodProgram Response := do
  let parentPath := upstream.protectedResource aclPath
  if !upstream.evaluateAccess parentAcl (upstream.agentUri request) parentPath .control then
    pure (denied request "acl:Control required to delete ACL")
  else
    match ← call (Op.get ⟨ownerPubkey, aclPath⟩) with
    | none => pure (.internalError "R2 get")
    | some none => pure (jsonError "ACL document not found" 404)
    | some (some _) =>
        match ← call (Op.delete ⟨ownerPubkey, aclPath⟩) with
        | false => pure (.internalError "R2 delete")
        | true => pure (.success 200 "deleted")

def handleAclRequest (request : Request) (ownerPubkey aclPath : String) :
    PodProgram Response := do
  let parentAcl ← upstream.findEffectiveAcl ownerPubkey (upstream.protectedResource aclPath)
  match request.method with
  | .get => upstream.handleAclRead request ownerPubkey aclPath parentAcl
  | .head => upstream.handleAclRead request ownerPubkey aclPath parentAcl
  | .put => upstream.handleAclPut request ownerPubkey aclPath parentAcl
  | .delete => upstream.handleAclDelete request ownerPubkey aclPath parentAcl
  | _ => pure (jsonError "Method not allowed on ACL resource" 405)

/-! ## Resources -/

/-- What is read of a resource; how it is rendered is left out. -/
def handleGet (request : Request) (ownerPubkey resourcePath : String) : PodProgram Response := do
  if isContainer resourcePath then
    match ← call (Op.list ownerPubkey) with
    | none => pure (.internalError "R2 list")
    | some _ => pure .listing
  else
    match ← call (Op.get ⟨ownerPubkey, resourcePath⟩) with
    | none => pure (.internalError "R2 get")
    | some none =>
        if resourcePath == "/profile/card" then
          pure (.content none "text/html" (upstream.webidHtml ownerPubkey none upstream.podBase))
        else pure (jsonError "Not found" 404)
    | some (some object) =>
        if resourcePath == "/profile/card" then pure (.content none "text/html" object.bytes)
        else
          let etag := upstream.etag object.bytes
          match checkPreconditions request etag with
          | some status => pure (.conditional status etag)
          | none => pure (.content (some etag) object.contentType object.bytes)

def preconditionError (status : Nat) : Response :=
  jsonError (if status = 412 then "Precondition failed" else "Not modified") status

/-- The condition of a write, checked when the resource is there and can be read. -/
def precondition (request : Request) (existing : Option (Option StoredObject)) : Option Nat :=
  match existing with
  | some (some object) => checkPreconditions request (upstream.etag object.bytes)
  | _ => none

/-- A profile must be a WebID document. -/
def profileError (resourcePath : String) (data : Bytes) : Option String :=
  if resourcePath == "/profile/card" then upstream.validateWebidHtml data else none

def handlePut (request : Request) (ownerPubkey resourcePath : String) : PodProgram Response := do
  if isContainer resourcePath then
    pure (jsonError "Cannot PUT to a container; use POST" 405)
  else if !request.bodyFits then pure bodyTooLarge
  else
    let existing ← call (Op.get ⟨ownerPubkey, resourcePath⟩)
    match upstream.precondition request existing with
    | some status => pure (preconditionError status)
    | none =>
        match ← checkAndReserve ownerPubkey request.data.length request.now with
        | some message => pure (jsonError message 413)
        | none =>
            match upstream.profileError resourcePath request.data with
            | some message => pure (jsonError message 422)
            | none =>
                match ← call (Op.put ⟨⟨ownerPubkey, resourcePath⟩, request.data,
                    request.mediaType⟩) with
                | false => pure (.internalError "R2 put")
                | true => pure (.success 201 "ok")

/-- What is posted to a resource replaces it. -/
def handlePostResource (request : Request) (ownerPubkey resourcePath : String) :
    PodProgram Response := do
  if !request.bodyFits then pure bodyTooLarge
  else
    let (account, limit) := reservationAccount ownerPubkey resourcePath
    match ← checkAndReserveWithLimit account request.data.length limit request.now with
    | some message => pure (jsonError message 413)
    | none =>
        match ← call (Op.put ⟨⟨ownerPubkey, resourcePath⟩, request.data, request.mediaType⟩) with
        | false => pure (.internalError "R2 put")
        | true => pure (.success 201 "ok")

/-- What is posted to a container is a child of it. -/
def handlePostContainer (request : Request) (ownerPubkey resourcePath : String) :
    PodProgram Response := do
  if !request.bodyFits then pure bodyTooLarge
  else
    let (account, limit) := reservationAccount ownerPubkey resourcePath
    match ← checkAndReserveWithLimit account request.data.length limit request.now with
    | some message => pure (jsonError message 413)
    | none =>
        let childPath := resolveSlug resourcePath request.slug request.now
        if !isSafeResourcePath childPath then pure (jsonError "Invalid resource path" 400)
        else
          match ← call (Op.put ⟨⟨ownerPubkey, childPath⟩, request.data, request.mediaType⟩) with
          | false => pure (.internalError "R2 put")
          | true => pure (.created s!"/pods/{ownerPubkey}{childPath}")

/-- The patched resource stored, and what it shrank by released. -/
def storePatched (request : Request) (ownerPubkey resourcePath : String)
    (current : StoredObject) (updated : Bytes) : PodProgram Response := do
  match ← call (Op.put ⟨⟨ownerPubkey, resourcePath⟩, updated, "application/ld+json"⟩) with
  | false => pure (.internalError "R2 put")
  | true =>
      if updated.length < current.size then
        let account := (reservationAccount ownerPubkey resourcePath).1
        let _ ← call (Op.updateUsage account (updated.length - current.size) request.now)
        pure (.success 200 "ok")
      else pure (.success 200 "ok")

/-- What follows the reservation for a patched resource. -/
def finishPatch (request : Request) (ownerPubkey resourcePath : String)
    (current : StoredObject) (updated : Bytes) (refused : Option String) :
    PodProgram Response :=
  match refused with
  | some message => pure (jsonError message 413)
  | none =>
      match upstream.profileError resourcePath updated with
      | some message => pure (jsonError message 422)
      | none => storePatched request ownerPubkey resourcePath current updated

/-- What follows the reading of a resource that is to be patched. -/
def patchObject (request : Request) (ownerPubkey resourcePath : String)
    (apply : Bytes → Except String Bytes) (current : StoredObject) : PodProgram Response :=
  match apply current.bytes with
  | .error message => pure (.internalError message)
  | .ok updated =>
      if current.size < updated.length then do
        let (account, limit) := reservationAccount ownerPubkey resourcePath
        let refused ← checkAndReserveWithLimit account (updated.length - current.size) limit
          request.now
        upstream.finishPatch request ownerPubkey resourcePath current updated refused
      else upstream.finishPatch request ownerPubkey resourcePath current updated none

def handlePatch (request : Request) (ownerPubkey resourcePath : String) :
    PodProgram Response := do
  if isContainer resourcePath then pure (jsonError "Cannot PATCH a container" 405)
  else
    match upstream.parsePatch request.data with
    | none => pure (.internalError "Invalid JSON Patch")
    | some apply =>
        match ← call (Op.get ⟨ownerPubkey, resourcePath⟩) with
        | none => pure (.internalError "R2 get")
        | some none => pure (jsonError "Not found" 404)
        | some (some current) =>
            upstream.patchObject request ownerPubkey resourcePath apply current

def handleDelete (request : Request) (ownerPubkey resourcePath : String) :
    PodProgram Response := do
  match ← call (Op.get ⟨ownerPubkey, resourcePath⟩) with
  | none => pure (.internalError "R2 get")
  | some none => pure (jsonError "Not found" 404)
  | some (some object) =>
      match ← call (Op.delete ⟨ownerPubkey, resourcePath⟩) with
      | false => pure (.internalError "R2 delete")
      | true =>
          let account := (reservationAccount ownerPubkey resourcePath).1
          let _ ← call (Op.updateUsage account (-object.size) request.now)
          pure (.success 200 "deleted")

def handleResource (request : Request) (ownerPubkey resourcePath : String) :
    PodProgram Response := do
  let requiredMode := upstream.coerceRequiredModeForAcl resourcePath request.method.text
  let aclDoc ← upstream.findEffectiveAcl ownerPubkey resourcePath
  if !upstream.evaluateAccess aclDoc (upstream.agentUri request) resourcePath requiredMode then
    if request.requesterPubkey.isSome then pure (jsonError "Forbidden" 403)
    else pure (.error 401 "Authentication required" request.nip98Reason)
  else
    match request.method with
    | .get => upstream.handleGet request ownerPubkey resourcePath
    | .head => upstream.handleGet request ownerPubkey resourcePath
    | .put => upstream.handlePut request ownerPubkey resourcePath
    | .post =>
        if isContainer resourcePath then handlePostContainer request ownerPubkey resourcePath
        else handlePostResource request ownerPubkey resourcePath
    | .patch => upstream.handlePatch request ownerPubkey resourcePath
    | .delete => handleDelete request ownerPubkey resourcePath
    | _ => pure (jsonError "Method not allowed" 405)

/-! ## Routes -/

def handlePod (request : Request) (ownerPubkey resourcePath : String) : PodProgram Response :=
  if isDotGitPath resourcePath then
    pure (jsonError "Direct access to .git directory contents is forbidden" 403)
  else if isGitRequest resourcePath then pure (jsonError
    "Git HTTP protocol is not available on the Cloudflare Workers deployment" 501)
  else if request.authorization.mismatched then
    pure (jsonError "NIP-98 webid tag identity mismatch" 401)
  else if isProvisionPath resourcePath then upstream.handleProvision request ownerPubkey
  else if isDeprovisionPath resourcePath then handleDeprovision request ownerPubkey
  else if isAclPath resourcePath then upstream.handleAclRequest request ownerPubkey resourcePath
  else upstream.handleResource request ownerPubkey resourcePath

def fetch (request : Request) : PodProgram Response :=
  if request.method = .options then pure (.success 204 "")
  else if request.path = "/.pods" then upstream.handlePods request
  else
    match parsePodRoute request.path with
    | none => pure (jsonError "Not found" 404)
    | some (ownerPubkey, resourcePath) => upstream.handlePod request ownerPubkey resourcePath

/-- A request answered alone, whatever becomes of its operations. -/
def respond (world : World) (request : Request) : World × Response :=
  (upstream.fetch request).run World.answer world

end Upstream

end Pod
end NostrBbs
