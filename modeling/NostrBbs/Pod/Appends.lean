import NostrBbs.Pod.PolicyIntegrity

/-!
# What appending replaces

A request to post asks for the mode of appending, to a container and to a plain resource
alike, and then stores what it brings under the name that it comes to, whether or not
something is stored there.
-/

namespace NostrBbs
namespace Pod

open Lib.Program (call)

/-! ## Requests whose operations are answered -/

/-- A storage whose operations are all answered. -/
def Storage.answering (storage : Storage) : World :=
  ⟨storage, []⟩

theorem answer_answering
    (storage : Storage)
    (op : Op) :
    storage.answering.answer op = ((storage.after op).answering, storage.reply op) :=
  rfl

section Lookup

variable (upstream : Upstream) (storage : Storage) (ownerPubkey : String)

theorem walkSidecars_answering
    (probes : List (String × Bool)) :
    (upstream.walkSidecars ownerPubkey probes).run World.answer storage.answering =
      (storage.answering, upstream.settledSidecar storage ownerPubkey probes) := by
  induction probes with
  | nil => rfl
  | cons probe probes inductionHypothesis =>
      unfold Upstream.walkSidecars Upstream.settledSidecar Storage.stored
      rw [Lib.Program.call_bind, Lib.Program.run_perform, answer_answering]
      dsimp only [Storage.reply]
      cases storage.bucket.find? ⟨ownerPubkey, probe.1⟩ with
      | none => exact inductionHypothesis
      | some object => rfl

/-- The policy that is found is the effective one. -/
theorem findEffectiveAcl_answering
    (resourcePath : String) :
    (upstream.findEffectiveAcl ownerPubkey resourcePath).run World.answer storage.answering =
      (storage.answering, upstream.effectiveAcl storage ownerPubkey resourcePath) := by
  unfold Upstream.findEffectiveAcl Upstream.effectiveAcl
  rw [Lib.Program.run_bind, walkSidecars_answering]
  cases upstream.settledSidecar storage ownerPubkey (aclProbeSequence resourcePath) with
  | some settled => rfl
  | none =>
      dsimp only
      rw [Lib.Program.call_bind, Lib.Program.run_perform, answer_answering]
      dsimp only [Storage.reply]
      cases storage.kv s!"acl:{ownerPubkey}" with
      | none => rfl
      | some text => rfl

end Lookup

/-! ## Room for a reservation -/

/-- An account has room for more bytes under its limit, which a new one is given. -/
def Storage.hasRoom (storage : Storage) (account : String) (bytes limit : Nat) : Bool :=
  match storage.quotaUsage.find? account with
  | some row => row.usedBytes + bytes ≤ row.limitBytes
  | none => bytes ≤ limit

section Room

variable (storage : Storage) (account : String) (bytes limit now : Nat)

/-- An account that is asked for is there, with nothing used when it is new. -/
theorem find?_ensureQuota :
    (storage.ensureQuota account limit now).quotaUsage.find? account =
      some ((storage.quotaUsage.find? account).getD ⟨account, limit, 0, now⟩) := by
  unfold Storage.ensureQuota
  dsimp only
  cases inserted : storage.quotaUsage.insert ⟨account, limit, 0, now⟩ with
  | none =>
      rw [Option.getD_none]
      have held := Lib.Table.insert_eq_none_iff.mp inserted
      cases found : storage.quotaUsage.find? account with
      | none => exact absurd held (Lib.Table.find?_eq_none_iff.mp found)
      | some row => rfl
  | some after =>
      rw [Option.getD_some, Lib.Table.find?_of_insert inserted account, if_pos rfl]
      have fresh := (Lib.Table.insert_eq_some inserted).1
      rw [Lib.Table.find?_eq_none_iff.mpr fresh]
      rfl

/-- A reservation writes a row exactly when the account has room. -/
theorem reserveQuota_rows :
    ((storage.ensureQuota account limit now).reserveQuota account bytes now).2 =
      if storage.hasRoom account bytes limit then 1 else 0 := by
  have onlyAccount : ∀ row : QuotaRow, Storage.QuotaRow.fits account bytes row →
      row.pubkey = account := by
    intro row fits
    unfold Storage.QuotaRow.fits at fits
    rw [Bool.and_eq_true, decide_eq_true_iff] at fits
    exact fits.1
  unfold Storage.reserveQuota Storage.hasRoom
  dsimp only
  rw [Lib.Table.countWhere_key onlyAccount, find?_ensureQuota]
  cases found : storage.quotaUsage.find? account with
  | none => simp [Storage.QuotaRow.fits]
  | some row =>
      have isAccount := (Lib.Table.find?_eq_some_iff.mp found).2
      simp [Storage.QuotaRow.fits, isAccount]

/-- A reservation succeeds exactly when the account has room, and leaves the objects. -/
theorem checkAndReserve_answering :
    ∃ after : Storage, ∃ refused : Option String,
      (checkAndReserveWithLimit account bytes limit now).run World.answer storage.answering =
          (after.answering, refused) ∧
        after.bucket = storage.bucket ∧
        (refused = none ↔ storage.hasRoom account bytes limit = true) := by
  have rows := reserveQuota_rows storage account bytes limit now
  unfold checkAndReserveWithLimit
  rw [Lib.Program.call_bind, Lib.Program.run_perform, answer_answering]
  dsimp only [Storage.reply, Storage.after]
  rw [Lib.Program.call_bind, Lib.Program.run_perform, answer_answering]
  dsimp only [Storage.reply, Storage.after]
  rw [rows]
  cases storage.hasRoom account bytes limit with
  | true => exact ⟨_, none, rfl, rfl, by simp⟩
  | false =>
      rw [if_neg (by decide)]
      change ∃ after refused, Lib.Program.run World.answer (Lib.Program.perform
        (Op.quotaInfo account) _) _ = (Storage.answering after, refused) ∧ _
      rw [Lib.Program.run_perform, answer_answering, Lib.Program.bind]
      dsimp only [Storage.reply]
      split
      · exact ⟨_, _, rfl, rfl, by simp⟩
      · exact ⟨_, _, rfl, rfl, by simp⟩

/-- Without room nothing is reserved, whatever becomes of the operations. -/
theorem checkAndReserve_full
    {world : World}
    (full : world.storage.hasRoom account bytes limit = false) :
    ((checkAndReserveWithLimit account bytes limit now).run World.answer world).2 ≠ none := by
  unfold checkAndReserveWithLimit
  rw [Lib.Program.call_bind, Lib.Program.run_perform]
  rcases world.answer_reply (.ensureQuota account limit now) with ⟨ensured, reply⟩ | failed
  · rw [reply]
    dsimp only [Storage.reply]
    rw [Lib.Program.call_bind, Lib.Program.run_perform]
    rcases World.answer_reply _ (.reserveQuota account bytes now) with ⟨-, rows⟩ | failed
    · rw [rows, ensured]
      dsimp only [Storage.reply, Storage.after]
      rw [reserveQuota_rows, full, if_neg (by decide)]
      change (Lib.Program.run World.answer (Lib.Program.perform
        (Op.quotaInfo account) _) _).2 ≠ none
      rw [Lib.Program.run_perform, Lib.Program.bind]
      split
      · exact Option.some_ne_none _
      · exact Option.some_ne_none _
    · rw [failed]
      exact Option.some_ne_none _
  · rw [failed]
    exact Option.some_ne_none _

end Room

/-! ## What a post stores -/

/-- Where a post to a resource stores what it brings. -/
def postedPath (request : Request) (path : String) : String :=
  if isContainer path then resolveSlug path request.slug request.now else path

/-- A post that is refused before it stores anything. -/
def PostRefused (storage : Storage) (request : Request) (owner path : String) : Prop :=
  let (account, limit) := reservationAccount owner path
  request.bodyFits = false ∨ storage.hasRoom account request.data.length limit = false ∨
    (isContainer path = true ∧ isSafeResourcePath (postedPath request path) = false)

/-- The answer to a write that was carried out. -/
def Response.isAccepted : Response → Bool
  | .success _ _ => true
  | .created _ => true
  | _ => false

/-- The post of a request, past its policy. -/
def handlePost (request : Request) (owner path : String) : PodProgram Response :=
  if isContainer path then Upstream.handlePostContainer request owner path
  else Upstream.handlePostResource request owner path

theorem stored_put
    (storage : Storage)
    (object : StoredObject) :
    (storage.after (.put object)).stored object.key = some object.bytes := by
  unfold Storage.stored Storage.after
  rw [Lib.Table.find?_put, if_pos rfl]
  rfl

section Post

variable (request : Request) (owner path : String)

theorem handlePost_writes :
    Writes (fun key => key = ⟨owner, postedPath request path⟩) (handlePost request owner path) := by
  unfold handlePost postedPath
  split
  · exact handlePostContainer_writes request rfl
  · exact handlePostResource_writes request rfl

/-- A post that is accepted has stored what it brings. -/
theorem stored_of_accepted
    (world : World)
    (isAccepted : ((handlePost request owner path).run World.answer world).2.isAccepted = true) :
    ((handlePost request owner path).run World.answer world).1.storage.stored
      ⟨owner, postedPath request path⟩ = some request.data := by
  have putAnswer : ∀ (current : World) (object : StoredObject),
      (current.answer (.put object)).2 = true →
        (current.answer (.put object)).1.storage.stored object.key = some object.bytes := by
    intro current object reply
    rcases current.answer_reply (.put object) with ⟨carriedOut, -⟩ | failed
    · rw [carriedOut, stored_put]
    · rw [failed] at reply
      cases reply
  revert isAccepted
  unfold handlePost postedPath
  split
  · unfold Upstream.handlePostContainer
    split
    · rintro ⟨⟩
    · dsimp only
      rw [Lib.Program.run_bind]
      split
      · rintro ⟨⟩
      · split
        · rintro ⟨⟩
        · rw [Lib.Program.call_bind, Lib.Program.run_perform]
          split
          · rintro ⟨⟩
          · rename_i isStored
            exact fun _ => putAnswer _ _ isStored
  · unfold Upstream.handlePostResource
    split
    · rintro ⟨⟩
    · dsimp only
      rw [Lib.Program.run_bind]
      split
      · rintro ⟨⟩
      · rw [Lib.Program.call_bind, Lib.Program.run_perform]
        split
        · rintro ⟨⟩
        · rename_i isStored
          exact fun _ => putAnswer _ _ isStored

/-- A post that is refused leaves what is stored, whatever becomes of its operations. -/
theorem handlePost_refused
    {world : World}
    (refused : PostRefused world.storage request owner path)
    (key : ObjectKey) :
    let ran := (handlePost request owner path).run World.answer world
    ran.2.isAccepted = false ∧ ran.1.storage.stored key = world.storage.stored key := by
  have reservedNothing : ∀ account bytes limit, ((checkAndReserveWithLimit account bytes limit
      request.now).run World.answer world).1.storage.stored key = world.storage.stored key :=
    fun account bytes limit => (checkAndReserveWithLimit_writes (fun _ => False) account bytes limit
      request.now).keeps id world
  unfold PostRefused postedPath at refused
  dsimp only at refused ⊢
  unfold handlePost
  split
  · rename_i container
    unfold Upstream.handlePostContainer
    split
    · exact ⟨rfl, rfl⟩
    · rename_i fits
      dsimp only
      rw [Lib.Program.run_bind]
      split
      · exact ⟨rfl, reservedNothing _ _ _⟩
      · rename_i isReserved
        split
        · exact ⟨rfl, reservedNothing _ _ _⟩
        · rename_i isSafe
          rcases refused with tooLarge | full | ⟨-, isUnsafe⟩
          · rw [tooLarge] at fits
            exact absurd rfl fits
          · exact absurd isReserved (checkAndReserve_full _ _ _ _ full)
          · rw [if_pos container] at isUnsafe
            rw [isUnsafe] at isSafe
            exact absurd rfl isSafe
  · rename_i plain
    unfold Upstream.handlePostResource
    split
    · exact ⟨rfl, rfl⟩
    · rename_i fits
      dsimp only
      rw [Lib.Program.run_bind]
      split
      · exact ⟨rfl, reservedNothing _ _ _⟩
      · rename_i isReserved
        rcases refused with tooLarge | full | ⟨container, -⟩
        · rw [tooLarge] at fits
          exact absurd rfl fits
        · exact absurd isReserved (checkAndReserve_full _ _ _ _ full)
        · exact absurd container plain

/-- A post whose operations are all answered is accepted, unless it is refused. -/
theorem handlePost_answering
    {storage : Storage}
    (notRefused : ¬PostRefused storage request owner path) :
    ((handlePost request owner path).run World.answer storage.answering).2.isAccepted = true := by
  unfold PostRefused postedPath at notRefused
  dsimp only at notRefused
  simp only [not_or, not_and, Bool.not_eq_false] at notRefused
  obtain ⟨fits, hasRoom, isSafe⟩ := notRefused
  obtain ⟨after, refused, ran, -, onlyFull⟩ := checkAndReserve_answering storage
    (reservationAccount owner path).1 request.data.length (reservationAccount owner path).2
    request.now
  have isReserved : refused = none := onlyFull.mpr hasRoom
  rw [isReserved] at ran
  unfold handlePost
  split
  · rename_i container
    rw [if_pos container] at isSafe
    unfold Upstream.handlePostContainer
    rw [fits, if_neg (by decide), Lib.Program.run_bind, ran]
    dsimp only
    rw [isSafe container]
    rfl
  · unfold Upstream.handlePostResource
    rw [fits, if_neg (by decide), Lib.Program.run_bind, ran]
    rfl

end Post

/-! ## What is claimed, and when it holds -/

section

variable (upstream : Upstream)

/-- A request that the mode of appending lets through. -/
def AuthorizedByAppend (storage : Storage) (request : Request) (owner path : String) : Prop :=
  request.targetResource = some (owner, path) ∧ request.method = .post ∧
    upstream.coerceRequiredModeForAcl path request.method.text = .append ∧
    upstream.evaluateAccess (upstream.effectiveAcl storage owner path) (upstream.agentUri request)
      path .append = true

/-- A request leaves the bytes that are stored, and creates an object or is not
accepted. -/
def OnlyCreates (storage : Storage) (input : Input) : Prop :=
  let ran := upstream.respond ⟨storage, input.2⟩ input.1
  (∀ key bytes, storage.stored key = some bytes → ran.1.storage.stored key = some bytes) ∧
    (ran.2.isAccepted = true → ∃ key, storage.stored key = none ∧
      ran.1.storage.stored key = some input.1.data)

/-- Requests that are let through by the mode of appending only create. -/
def AppendsOnly (storage : Storage) (input : Input) : Prop :=
  ∀ owner path, AuthorizedByAppend upstream storage input.1 owner path →
    OnlyCreates upstream storage input

/-- Nothing is stored where a request that is let through by the mode of appending stores
what it brings, unless it is refused. -/
def PostsVacant (storage : Storage) (request : Request) : Prop :=
  ∀ owner path, AuthorizedByAppend upstream storage request owner path →
    PostRefused storage request owner path ∨
      storage.stored ⟨owner, postedPath request path⟩ = none

variable {storage : Storage} {request : Request} {owner path : String}

/-- What comes of a request to append: of its policy lookup, that it is denied or goes
on as a post. -/
theorem respond_append
    (authorized : AuthorizedByAppend upstream storage request owner path)
    (outcomes : List Outcome) :
    let ran := upstream.respond ⟨storage, outcomes⟩ request
    (ran.1.storage = storage ∧ ran.2.isAccepted = false) ∨
      ∃ world : World, world.storage = storage ∧
        ran = (handlePost request owner path).run World.answer world := by
  obtain ⟨isTarget, isPost, -, -⟩ := authorized
  have sameStorage := (findEffectiveAcl_run upstream owner path ⟨storage, outcomes⟩).1
  unfold Upstream.respond
  rw [fetch_of_targetResource upstream isTarget]
  unfold Upstream.handleResource handlePost
  dsimp only
  rw [Lib.Program.run_bind]
  split
  · split
    · exact Or.inl ⟨sameStorage, rfl⟩
    · exact Or.inl ⟨sameStorage, rfl⟩
  · rw [isPost]
    exact Or.inr ⟨_, sameStorage, rfl⟩

/-- A request to append whose operations are all answered goes on as a post. -/
theorem respond_append_answering
    (authorized : AuthorizedByAppend upstream storage request owner path) :
    upstream.respond storage.answering request =
      (handlePost request owner path).run World.answer storage.answering := by
  obtain ⟨isTarget, isPost, isAppend, granted⟩ := authorized
  unfold Upstream.respond
  rw [fetch_of_targetResource upstream isTarget]
  unfold Upstream.handleResource handlePost
  dsimp only
  rw [Lib.Program.run_bind, findEffectiveAcl_answering, isAppend, granted, isPost]
  rfl

/-- A request only creates, however its operations go, exactly when nothing is stored
where it stores what it brings, or it is refused. -/
theorem appendsOnly_iff_postsVacant
    (storage : Storage)
    (request : Request) :
    (∀ outcomes, AppendsOnly upstream storage (request, outcomes)) ↔
      PostsVacant upstream storage request := by
  constructor
  · intro onlyCreates owner path authorized
    by_contra occupied
    rw [not_or] at occupied
    have ran := respond_append_answering upstream authorized
    have isAccepted := handlePost_answering request owner path occupied.1
    obtain ⟨-, created⟩ := onlyCreates [] owner path authorized
    obtain ⟨key, wasAbsent, isStored⟩ := created (by
      change (upstream.respond storage.answering request).2.isAccepted = true
      rw [ran]
      exact isAccepted)
    change (upstream.respond storage.answering request).1.storage.stored key = _ at isStored
    rw [ran] at isStored
    have isOther : key ≠ ⟨owner, postedPath request path⟩ := by
      rintro rfl
      exact occupied.2 wasAbsent
    have kept := (handlePost_writes request owner path).keeps isOther storage.answering
    rw [kept] at isStored
    have absent : storage.answering.storage.stored key = none := wasAbsent
    rw [absent] at isStored
    cases isStored
  · intro vacant outcomes owner path authorized
    unfold OnlyCreates
    dsimp only
    rcases respond_append upstream authorized outcomes with ⟨same, notAccepted⟩ | ⟨world, same, ran⟩
    · rw [same, notAccepted]
      exact ⟨fun key bytes stored => stored, by rintro ⟨⟩⟩
    · rw [ran]
      rcases vacant owner path authorized with refused | absent
      · rw [← same] at refused ⊢
        refine ⟨?_, ?_⟩
        · intro key bytes stored
          rw [(handlePost_refused request owner path refused key).2, stored]
        · intro isAccepted
          rw [(handlePost_refused request owner path refused ⟨owner, path⟩).1] at isAccepted
          cases isAccepted
      · refine ⟨?_, fun isAccepted => ⟨_, absent, stored_of_accepted request owner path world
          isAccepted⟩⟩
        intro key bytes stored
        have isOther : key ≠ ⟨owner, postedPath request path⟩ := by
          rintro rfl
          rw [absent] at stored
          cases stored
        rw [(handlePost_writes request owner path).keeps isOther world, same, stored]

/-- Along a run, the requests that the mode of appending lets through only create,
however their operations go, exactly when each of them is refused or posts where nothing
is stored. -/
theorem appendsOnly_run_iff
    (start : Storage)
    (inputs : List Input) :
    Lib.Along upstream.step
        (fun storage input => ∀ outcomes, AppendsOnly upstream storage (input.1, outcomes))
        start inputs ↔
      Lib.Along upstream.step (fun storage input => PostsVacant upstream storage input.1)
        start inputs := by
  have sameCondition : (fun (storage : Storage) (input : Input) =>
        ∀ outcomes, AppendsOnly upstream storage (input.1, outcomes)) =
      fun storage input => PostsVacant upstream storage input.1 := by
    funext storage input
    exact propext (appendsOnly_iff_postsVacant upstream storage input.1)
  rw [sameCondition]

end

namespace Sample

/-- A pod is provisioned, and two visitors post a note to its inbox. -/
def notes : List Input :=
  [(posts owner "/.provision" none [], []),
    (posts owner "/inbox/" (some "note") [7], []),
    (posts visitor "/inbox/" (some "note") [8], [])]

end Sample

/-- A visitor who may append to an inbox, and may not write there, replaces what was
posted under the same name. -/
theorem post_replaces_post :
    ¬Lib.Along Sample.upstream.step (AppendsOnly Sample.upstream) Storage.empty Sample.notes := by
  rintro ⟨-, -, onlyCreates, -⟩
  have authorized : AuthorizedByAppend Sample.upstream
      (Lib.run Sample.upstream.step Storage.empty (Sample.notes.take 2))
      (Sample.posts Sample.visitor "/inbox/" (some "note") [8]) Sample.owner "/inbox/" := by
    unfold AuthorizedByAppend
    decide +kernel
  have kept := (onlyCreates Sample.owner "/inbox/" authorized).1 ⟨Sample.owner, "/inbox/note"⟩ [7]
    (by decide +kernel)
  revert kept
  decide +kernel

/-- The visitor may not write to the inbox. -/
example :
    Sample.upstream.evaluateAccess
      (Sample.upstream.effectiveAcl
        (Lib.run Sample.upstream.step Storage.empty (Sample.notes.take 2)) Sample.owner "/inbox/")
      (Sample.upstream.agentUri (Sample.posts Sample.visitor "/inbox/" (some "note") [8]))
      "/inbox/" .write = false := by
  decide +kernel

end Pod
end NostrBbs
