import NostrBbs.Lib.Pool
import NostrBbs.Lib.Counting
import NostrBbs.Pod.Appends

/-!
# Requests with If-Match

Requests to one resource, each performing its operations between those of the others.  A
request with If-Match is to take effect only while the resource has a tag that it names,
and of two requests with one tag only one.
-/

namespace NostrBbs
namespace Pod

open Lib.Program (call follows_call follows_done)

/-! ## Interleavings -/

/-- An operation on a storage that goes as it is chosen to. -/
def Storage.answerAs (storage : Storage) (outcome : Outcome) (op : Op) : Storage × op.Answer :=
  match outcome with
  | .answered => (storage.after op, storage.reply op)
  | .fails => (storage, op.failure)
  | .answerLost => (storage.after op, op.failure)

/-- A move of the pod worker: a request comes in, or the next operation for one is
performed. -/
abbrev PodMove := Lib.Move Request Outcome

/-- The storage, and the requests that are being answered from it. -/
abbrev PodPool := Lib.Pool Storage Request Op Outcome Op.Answer Response

abbrev PodTask := Lib.Task Request Op Outcome Op.Answer Response

abbrev PodEvent := Lib.Event Op Outcome Op.Answer

def PodPool.step (upstream : Upstream) : PodPool → PodMove → PodPool :=
  Lib.Pool.step upstream.fetch Storage.answerAs

/-- What remains of a resource after an operation. -/
theorem answerAs_storage
    (storage : Storage)
    (outcome : Outcome)
    (op : Op) :
    (outcome ≠ .fails ∧ (storage.answerAs outcome op).1 = storage.after op) ∨
      (outcome = .fails ∧ (storage.answerAs outcome op).1 = storage) := by
  cases outcome with
  | answered => exact Or.inl ⟨by decide, rfl⟩
  | fails => exact Or.inr ⟨rfl, rfl⟩
  | answerLost => exact Or.inl ⟨by decide, rfl⟩

/-! ## What is claimed -/

/-- The resource that a request is for. -/
def Request.key (request : Request) : Option ObjectKey :=
  (parsePodRoute request.path).map fun route => ⟨route.1, route.2⟩

/-- The tags that a request to replace, patch or delete a resource requires it to have. -/
def Request.requires (request : Request) (key : ObjectKey) : Option String :=
  if (request.method = .put ∨ request.method = .patch ∨ request.method = .delete) ∧
      request.key = some key then
    request.ifMatch
  else none

/-- The one entity tag that a request carries for a resource. -/
def Request.carriedTag (request : Request) (key : ObjectKey) : Option String :=
  match (request.requires key).map entityTags with
  | some [tag] => if tag = "*" then none else some tag
  | _ => none

/-- A task has changed what is stored under a key. -/
def tookEffect (key : ObjectKey) (task : PodTask) : Bool :=
  task.past.any fun event => event.op.written = some key && event.choice ≠ .fails

/-- A write that a move carries out. -/
structure Write where
  index : Nat
  task : PodTask
  op : Op
  key : ObjectKey

def PodPool.carriesOut (pool : PodPool) : PodMove → Option Write
  | .start _ => none
  | .advance index choice =>
      if choice = .fails then none
      else
        (pool.tasks[index]?).bind fun task =>
          match task.rest with
          | .done _ => none
          | .perform op _ => op.written.map fun key => ⟨index, task, op, key⟩

section

variable (upstream : Upstream)

/-- The resource has a tag that a header names. -/
def Storage.hasTag (storage : Storage) (key : ObjectKey) (header : String) : Bool :=
  (storage.stored key).any fun bytes => names header (upstream.etag bytes)

/-- A request with If-Match takes effect only while the resource has a tag that it
names. -/
def GuardsWrites (pool : PodPool) (move : PodMove) : Prop :=
  ∀ write ∈ pool.carriesOut move, ∀ header ∈ write.task.request.requires write.key,
    pool.state.hasTag upstream write.key header = true

/-- Of two requests that carry one tag for a resource, one at most has taken effect. -/
def OncePerTag (pool : PodPool) : Prop :=
  ∀ key tag, ∀ first second : Nat, first < second →
    ∀ earlier ∈ pool.tasks[first]?, ∀ later ∈ pool.tasks[second]?,
      earlier.request.carriedTag key = some tag → later.request.carriedTag key = some tag →
        ¬(tookEffect key earlier = true ∧ tookEffect key later = true)

/-! ## When it holds -/

/-- The object that an event read under a key. -/
def foundBy (key : ObjectKey) : PodEvent → Option StoredObject
  | ⟨.get read, _, answer⟩ => if read = key then answer.getD none else none
  | _ => none

@[simp] theorem foundBy_get
    (key read : ObjectKey)
    (choice : Outcome)
    (answer : Option (Option StoredObject)) :
    foundBy key ⟨.get read, choice, answer⟩ = if read = key then answer.getD none else none :=
  rfl

/-- The objects that a task has read under a key. -/
def foundIn (key : ObjectKey) (task : PodTask) : List StoredObject :=
  task.past.filterMap (foundBy key)

/-- The write is by a PUT of a resource whose check has found it. -/
def Checked (write : Write) : Prop :=
  write.task.request.targetResource.isSome = true ∧ write.task.request.method = .put ∧
    foundIn write.key write.task ≠ []

/-- A PUT with If-Match stands between its check and its write. -/
def standsBetween (key : ObjectKey) (task : PodTask) : Bool :=
  (task.request.requires key).isSome && task.request.method = .put &&
    task.request.targetResource.isSome && !(foundIn key task).isEmpty && !task.rest.isDone &&
    task.past.all fun event => event.op.written ≠ some key

/-- The object that an operation puts. -/
def Op.putObject : Op → Option StoredObject
  | put object => some object
  | _ => none

/-- A write that is carried out leaves no tag under which a request took effect. -/
def LeavesNewTag (pool : PodPool) (write : Write) : Prop :=
  ∀ object ∈ write.op.putObject,
    (∀ task ∈ pool.tasks, tookEffect write.key task = true →
      task.request.carriedTag write.key ≠ some (upstream.etag object.bytes)) ∧
    write.task.request.carriedTag write.key ≠ some (upstream.etag object.bytes)

/-- A write that is carried out for a request with If-Match was checked, no other request
stands between its check and its write meanwhile, and no spent tag comes back. -/
def Serialized (pool : PodPool) (move : PodMove) : Prop :=
  ∀ write ∈ pool.carriesOut move,
    ((write.task.request.requires write.key).isSome = true → Checked write) ∧
    (∀ task ∈ pool.tasks.eraseIdx write.index, standsBetween write.key task = false) ∧
    LeavesNewTag upstream pool write

instance (write : Write) : Decidable (Checked write) :=
  inferInstanceAs (Decidable (_ ∧ _ ∧ _))

instance (pool : PodPool) (write : Write) : Decidable (LeavesNewTag upstream pool write) :=
  inferInstanceAs (Decidable (∀ object ∈ write.op.putObject, _ ∧ _))

instance (pool : PodPool) (move : PodMove) : Decidable (Serialized upstream pool move) :=
  inferInstanceAs (Decidable (∀ write ∈ pool.carriesOut move, _ ∧ _ ∧ _))

/-! ## What a PUT performs -/

/-- A PUT with If-Match writes once, after it has checked what it has found. -/
def PutChecked (request : Request) (past : List PodEvent) (op : Op) : Prop :=
  ∀ key header, request.targetResource.isSome = true → request.method = .put →
    request.requires key = some header → op.written = some key →
      (∀ event ∈ past, event.op.written ≠ some key) ∧
        ∀ object ∈ past.filterMap (foundBy key),
          names header (upstream.etag object.bytes) = true

variable {upstream} {request : Request} {past : List PodEvent}

/-- A program that writes nothing is checked. -/
theorem putChecked_of_writes
    {Result : Type}
    {program : PodProgram Result}
    (writes : Writes (fun _ => False) program) :
    program.Follows (PutChecked upstream request) past := by
  apply Lib.Program.Always.follows writes
  intro past op mayWrite key header _ _ _ isWritten
  exact (mayWrite key isWritten).elim

theorem key_of_targetResource
    {owner path : String}
    (isTarget : request.targetResource = some (owner, path)) :
    request.key = some ⟨owner, path⟩ ∧ isAclPath path = false := by
  unfold Request.targetResource at isTarget
  split at isTarget
  · cases isTarget
  · obtain ⟨isRoute, isPlain⟩ := Option.filter_eq_some_iff.mp isTarget
    unfold Request.key
    rw [isRoute]
    simp only [Bool.not_eq_true', Bool.or_eq_false_iff] at isPlain
    exact ⟨rfl, isPlain.2⟩

theorem requires_eq_some
    {key : ObjectKey}
    {header : String}
    (isRequired : request.requires key = some header) :
    request.key = some key ∧ request.ifMatch = some header := by
  unfold Request.requires at isRequired
  split at isRequired
  · rename_i isConditional
    exact ⟨isConditional.2, isRequired⟩
  · cases isRequired

/-- A check that lets a request through has found a tag that its header names. -/
theorem names_of_checkPreconditions
    {header resourceEtag : String}
    (isHeader : request.ifMatch = some header)
    (passes : checkPreconditions request resourceEtag = none) :
    names header resourceEtag = true := by
  unfold checkPreconditions at passes
  split at passes
  · cases passes
  · split at passes
    · cases passes
    · rename_i isNamed
      rw [isHeader, Option.any_some] at isNamed
      simpa using isNamed

/-- The policy of a resource is looked up elsewhere. -/
theorem walkSidecars_elsewhere
    (upstream : Upstream)
    (owner : String)
    {probes : List (String × Bool)}
    (sidecars : ∀ probe ∈ probes, isAclPath probe.1 = true)
    {key : ObjectKey}
    (isPlain : isAclPath key.path = false) :
    (upstream.walkSidecars owner probes).Always
      fun op => op ≠ .get key ∧ op.written = none := by
  induction probes with
  | nil => trivial
  | cons probe probes inductionHypothesis =>
      have rest := inductionHypothesis fun probe member => sidecars probe (List.mem_cons_of_mem _ member)
      unfold Upstream.walkSidecars
      apply Lib.Program.always_call
      · refine ⟨?_, rfl⟩
        rintro ⟨rfl⟩
        have isAcl := sidecars probe List.mem_cons_self
        rw [isPlain] at isAcl
        cases isAcl
      · intro found
        split
        · exact rest
        · trivial
        · trivial

theorem enclosingProbes_sidecars
    (levels : Nat)
    (dir : List Char) :
    ∀ probe ∈ enclosingProbes levels dir, isAclPath probe.1 = true := by
  have isAcl : ∀ front : List Char, isAclPath (String.ofList (front ++ ".acl".toList)) = true := by
    intro front
    unfold isAclPath
    rw [endsWith_iff]
    simp only [String.toList_ofList]
    exact List.suffix_append _ _
  induction levels generalizing dir with
  | zero => simp [enclosingProbes]
  | succ levels inductionHypothesis =>
      intro probe member
      unfold enclosingProbes at member
      rcases List.mem_cons.mp member with isFirst | isRest
      · rw [isFirst]
        exact isAcl dir
      · split at isRest
        · cases isRest
        · dsimp only at isRest
          rcases List.mem_append.mp isRest with isFlat | isHigher
          · split at isFlat
            · cases isFlat
            · rw [List.mem_singleton.mp isFlat]
              exact isAcl _
          · exact inductionHypothesis _ probe isHigher

theorem aclProbeSequence_sidecars
    (resourcePath : String) :
    ∀ probe ∈ aclProbeSequence resourcePath, isAclPath probe.1 = true := by
  intro probe member
  unfold aclProbeSequence at member
  dsimp only at member
  rcases List.mem_cons.mp member with isFirst | isRest
  · rw [isFirst]
    unfold isAclPath
    rw [endsWith_iff, String.toList_append]
    exact List.suffix_append _ _
  · exact enclosingProbes_sidecars _ _ probe isRest

theorem findEffectiveAcl_elsewhere
    (upstream : Upstream)
    (owner resourcePath : String)
    {key : ObjectKey}
    (isPlain : isAclPath key.path = false) :
    (upstream.findEffectiveAcl owner resourcePath).Always
      fun op => op ≠ .get key ∧ op.written = none := by
  unfold Upstream.findEffectiveAcl
  apply Lib.Program.always_bind
    (walkSidecars_elsewhere upstream owner (aclProbeSequence_sidecars resourcePath) isPlain)
  intro settled
  split
  · trivial
  · apply Lib.Program.always_call
    · exact ⟨by rintro ⟨⟩, rfl⟩
    · intro found
      split
      · trivial
      · trivial
      · trivial

/-- The operations of a reservation. -/
def Op.onAccounts : Op → Bool
  | ensureQuota _ _ _ => true
  | reserveQuota _ _ _ => true
  | quotaInfo _ => true
  | _ => false

theorem checkAndReserve_onAccounts
    (account : String)
    (bytes limit now : Nat) :
    (checkAndReserveWithLimit account bytes limit now).Always fun op => op.onAccounts = true := by
  unfold checkAndReserveWithLimit
  apply Lib.Program.always_call (by rfl)
  intro ensured
  split
  · trivial
  · apply Lib.Program.always_call (by rfl)
    intro reserved
    split
    · trivial
    · apply Lib.Program.always_call (by rfl)
      intro found
      split
      · trivial
      · trivial
    · trivial

/-- A reservation reads no object and writes none. -/
theorem not_get_of_onAccounts
    {op : Op}
    (onAccounts : op.onAccounts = true)
    (key : ObjectKey) :
    op ≠ .get key ∧ op.written = none := by
  cases op with
  | ensureQuota account limit now => exact ⟨by rintro ⟨⟩, rfl⟩
  | reserveQuota account bytes now => exact ⟨by rintro ⟨⟩, rfl⟩
  | quotaInfo account => exact ⟨by rintro ⟨⟩, rfl⟩
  | _ => cases onAccounts

/-- An event that reads another key has found nothing under this one. -/
theorem foundBy_elsewhere
    {key : ObjectKey}
    {event : PodEvent}
    (elsewhere : event.op ≠ .get key) :
    foundBy key event = none := by
  obtain ⟨op, choice, answer⟩ := event
  cases op with
  | get read =>
      have isOther : read ≠ key := by
        rintro rfl
        exact elsewhere rfl
      rw [foundBy_get, if_neg isOther]
  | _ => rfl

/-- A PUT with If-Match of a plain resource writes after its check. -/
theorem handlePut_checked
    {owner path header : String}
    (isTarget : request.targetResource = some (owner, path))
    (isHeader : request.ifMatch = some header)
    (elsewhere : ∀ event ∈ past, event.op ≠ .get ⟨owner, path⟩ ∧ event.op.written = none) :
    (upstream.handlePut request owner path).Follows (PutChecked upstream request) past := by
  have isKey := (key_of_targetResource isTarget).1
  have reads : ∀ {past : List PodEvent} {op : Op}, op.written = none →
      PutChecked upstream request past op := by
    intro past op writesNothing key header _ _ _ isWritten
    rw [writesNothing] at isWritten
    cases isWritten
  unfold Upstream.handlePut
  split
  · exact follows_done _
  · split
    · exact follows_done _
    · apply follows_call (reads rfl)
      intro choice existing
      split
      · exact follows_done _
      · rename_i passes
        have onAccounts := checkAndReserve_onAccounts owner request.data.length defaultQuota request.now
        have follows : (checkAndReserve owner request.data.length request.now).Follows
            (PutChecked upstream request) (past ++ [⟨.get ⟨owner, path⟩, choice, existing⟩]) :=
          Lib.Program.Always.follows onAccounts fun past op isOn =>
            reads (not_get_of_onAccounts isOn ⟨owner, path⟩).2
        apply follows.bind_of_always onAccounts
        intro refused more allOn
        split
        · exact follows_done _
        · split
          · exact follows_done _
          · apply follows_call
            · intro key other _ _ isRequired isWritten
              obtain ⟨sameKey, sameHeader⟩ := requires_eq_some isRequired
              have isOwn : (⟨owner, path⟩ : ObjectKey) = key :=
                Option.some.inj (isKey.symm.trans sameKey)
              have isOther : other = header := Option.some.inj (sameHeader.symm.trans isHeader)
              rw [← isOwn, isOther]
              constructor
              · intro event member
                rcases List.mem_append.mp member with isBefore | isMore
                · rcases List.mem_append.mp isBefore with isPast | isCheck
                  · rw [(elsewhere event isPast).2]
                    exact (Option.some_ne_none _).symm
                  · rw [List.mem_singleton.mp isCheck]
                    exact (Option.some_ne_none _).symm
                · rw [(not_get_of_onAccounts (allOn event isMore) ⟨owner, path⟩).2]
                  exact (Option.some_ne_none _).symm
              · intro object found
                obtain ⟨event, member, isFound⟩ := List.mem_filterMap.mp found
                rcases List.mem_append.mp member with isBefore | isMore
                · rcases List.mem_append.mp isBefore with isPast | isCheck
                  · rw [foundBy_elsewhere (elsewhere event isPast).1] at isFound
                    cases isFound
                  · rw [List.mem_singleton.mp isCheck] at isFound
                    rw [foundBy_get, if_pos rfl] at isFound
                    have isExisting : existing = some (some object) := by
                      cases existing with
                      | none => cases isFound
                      | some answer =>
                          rw [Option.getD_some] at isFound
                          rw [isFound]
                    rw [isExisting] at passes
                    exact names_of_checkPreconditions isHeader passes
                · rw [foundBy_elsewhere
                    (not_get_of_onAccounts (allOn event isMore) ⟨owner, path⟩).1] at isFound
                  cases isFound
            · intro choice stored
              cases stored with
              | false => exact follows_done _
              | true => exact follows_done _

/-- Whatever is requested, a PUT with If-Match of a plain resource writes after its
check. -/
theorem fetch_checked
    (request : Request) :
    (upstream.fetch request).Follows (PutChecked upstream request) [] := by
  by_cases isConditional : request.targetResource.isSome = true ∧ request.method = .put ∧
      request.ifMatch.isSome = true
  · obtain ⟨hasTarget, isPut, hasHeader⟩ := isConditional
    obtain ⟨⟨owner, path⟩, isTarget⟩ := Option.isSome_iff_exists.mp hasTarget
    obtain ⟨header, isHeader⟩ := Option.isSome_iff_exists.mp hasHeader
    have isPlain := (key_of_targetResource isTarget).2
    have elsewhere : (upstream.findEffectiveAcl owner path).Always
        fun op => op ≠ .get ⟨owner, path⟩ ∧ op.written = none :=
      findEffectiveAcl_elsewhere upstream owner path isPlain
    rw [fetch_of_targetResource upstream isTarget]
    unfold Upstream.handleResource
    refine (putChecked_of_writes (findEffectiveAcl_writes upstream _ owner path)).bind_of_always
      elsewhere ?_
    intro aclDoc more allElsewhere
    split
    · split
      · exact follows_done _
      · exact follows_done _
    · rw [isPut]
      exact handlePut_checked isTarget isHeader allElsewhere
  · have allows : ∀ (past : List PodEvent) (op : Op), PutChecked upstream request past op := by
      intro past op key header hasTarget isPut isRequired
      have isHeader := (requires_eq_some isRequired).2
      exact absurd ⟨hasTarget, isPut, by rw [isHeader]; rfl⟩ isConditional
    have always : (upstream.fetch request).Always fun _ => True := by
      induction upstream.fetch request with
      | done result => trivial
      | perform op next inductionHypothesis => exact ⟨trivial, inductionHypothesis⟩
    exact always.follows fun past op _ => allows past op

end

end Pod
end NostrBbs
