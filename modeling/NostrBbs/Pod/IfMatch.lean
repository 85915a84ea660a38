import NostrBbs.Pod.Conditional

/-!
# No update is lost under If-Match

When every write with If-Match was checked, and no other request writes between a check
and its write, a request with If-Match takes effect only on a resource with a tag that it
names, and a tag is spent once.
-/

namespace NostrBbs
namespace Pod

section

variable {upstream : Upstream}

/-! ## One move -/

theorem mem_carriesOut
    {pool : PodPool}
    {move : PodMove}
    {write : Write} :
    write ∈ pool.carriesOut move ↔
      ∃ choice next, move = .advance write.index choice ∧ choice ≠ .fails ∧
        pool.tasks[write.index]? = some write.task ∧ write.task.rest = .perform write.op next ∧
          write.op.written = some write.key := by
  obtain ⟨index, task, op, key⟩ := write
  unfold PodPool.carriesOut
  cases move with
  | start request => simp
  | advance place choice =>
      by_cases fails : choice = .fails
      · simp [fails]
      · dsimp only
        rw [if_neg fails, Option.mem_def, Option.bind_eq_some_iff]
        constructor
        · rintro ⟨held, isHeld, isWrite⟩
          cases isRest : held.rest with
          | done result =>
              rw [isRest] at isWrite
              cases isWrite
          | perform performed next =>
              rw [isRest] at isWrite
              obtain ⟨written, isWritten, same⟩ := Option.map_eq_some_iff.mp isWrite
              cases same
              exact ⟨choice, next, rfl, fails, isHeld, isRest, isWritten⟩
        · rintro ⟨_, next, ⟨⟩, _, isHeld, isRest, isWritten⟩
          refine ⟨task, isHeld, ?_⟩
          rw [isRest]
          dsimp only
          rw [isWritten]
          rfl

/-- A tag that a request carries is required. -/
theorem requires_of_carriedTag
    {request : Request}
    {key : ObjectKey}
    {tag : String}
    (carried : request.carriedTag key = some tag) :
    ∃ header, request.requires key = some header ∧
      ∀ resourceEtag, names header resourceEtag = true → resourceEtag = tag := by
  unfold Request.carriedTag at carried
  cases isRequired : request.requires key with
  | none =>
      rw [isRequired] at carried
      cases carried
  | some header =>
      rw [isRequired, Option.map_some] at carried
      refine ⟨header, rfl, ?_⟩
      intro resourceEtag isNamed
      unfold names at isNamed
      split at carried
      · rename_i only isOnly
        split at carried
        · cases carried
        · rename_i notAny
          rw [Option.some.inj isOnly, List.any_cons, List.any_nil, Bool.or_false, Bool.or_eq_true,
            beq_iff_eq, beq_iff_eq] at isNamed
          rcases isNamed with isTag | isAny
          · exact isTag.symm.trans (Option.some.inj carried)
          · exact absurd isAny notAny
      · cases carried

/-- What the moves of requests keep. -/
structure Guarded (upstream : Upstream) (pool : PodPool) : Prop where
  followed : pool.Followed (PutChecked upstream)
  fresh : ∀ key (index : Nat) task, pool.tasks[index]? = some task →
    standsBetween key task = true → ∀ object ∈ foundIn key task,
      pool.state.stored key = some object.bytes
  spent : ∀ key (index : Nat) task, pool.tasks[index]? = some task →
    tookEffect key task = true → ∀ tag, task.request.carriedTag key = some tag →
      ∀ bytes, pool.state.stored key = some bytes → upstream.etag bytes ≠ tag
  once : OncePerTag pool

/-- A task that performs a write with If-Match that was checked stands between its check
and its write, and the tags that it found are named. -/
theorem standsBetween_of_checked
    {task : PodTask}
    {op : Op}
    {next : op.Answer → PodProgram Response}
    {key : ObjectKey}
    {header : String}
    (allowed : PutChecked upstream task.request task.past op)
    (isRest : task.rest = .perform op next)
    (isRequired : task.request.requires key = some header)
    (isWritten : op.written = some key)
    (hasTarget : task.request.targetResource.isSome = true)
    (isPut : task.request.method = .put)
    (found : foundIn key task ≠ []) :
    standsBetween key task = true ∧
      ∀ object ∈ foundIn key task, names header (upstream.etag object.bytes) = true := by
  obtain ⟨noWrite, isNamed⟩ := allowed key header hasTarget isPut isRequired isWritten
  refine ⟨?_, isNamed⟩
  unfold standsBetween
  rw [isRequired, hasTarget, isRest]
  simp only [Bool.and_eq_true, List.all_eq_true, Option.isSome_some, true_and, decide_eq_true_eq,
    Bool.not_eq_true', List.isEmpty_eq_false_iff]
  exact ⟨⟨⟨⟨isPut, trivial⟩, found⟩, rfl⟩, noWrite⟩

/-- A write with If-Match is carried out only while its resource has a tag that it
names. -/
theorem Guarded.guardsWrites
    {pool : PodPool}
    {move : PodMove}
    (guarded : Guarded upstream pool)
    (serialized : Serialized upstream pool move) :
    GuardsWrites upstream pool move := by
  intro write isWrite header isRequired
  obtain ⟨checked, -, -⟩ := serialized write isWrite
  obtain ⟨choice, next, -, -, isTask, isRest, isWritten⟩ := mem_carriesOut.mp isWrite
  obtain ⟨hasTarget, isPut, found⟩ := checked (by rw [isRequired]; rfl)
  have follows := guarded.followed write.task (List.mem_of_getElem? isTask)
  rw [isRest] at follows
  obtain ⟨stands, allNamed⟩ :=
    standsBetween_of_checked follows.1 isRest isRequired isWritten hasTarget isPut found
  obtain ⟨object, isFound⟩ := List.exists_mem_of_ne_nil _ found
  unfold Storage.hasTag
  rw [guarded.fresh write.key write.index write.task isTask stands object isFound, Option.any_some]
  exact allNamed object isFound

theorem foundIn_append
    (key : ObjectKey)
    (request : Request)
    (past : List PodEvent)
    (event : PodEvent)
    (rest : PodProgram Response) :
    foundIn key ⟨request, past ++ [event], rest⟩ =
      past.filterMap (foundBy key) ++ (foundBy key event).toList := by
  unfold foundIn
  rw [List.filterMap_append]
  cases found : foundBy key event with
  | none => simp [found]
  | some object => simp [found]

/-- What an operation reads is stored where it is performed. -/
theorem stored_of_foundBy
    {storage : Storage}
    {choice : Outcome}
    {op : Op}
    {key : ObjectKey}
    {object : StoredObject}
    (found : foundBy key ⟨op, choice, (storage.answerAs choice op).2⟩ = some object) :
    storage.stored key = some object.bytes := by
  cases op with
  | get read =>
      rw [foundBy_get] at found
      split at found
      · rename_i isKey
        cases choice with
        | answered =>
            have isObject : storage.bucket.find? read = some object := found
            unfold Storage.stored
            rw [← isKey, isObject]
            rfl
        | fails => cases found
        | answerLost => cases found
      · cases found
  | _ => cases found

section Performed

variable {pool : PodPool} {index : Nat} {choice : Outcome} {task : PodTask} {op : Op}
  {next : op.Answer → PodProgram Response}

/-- What is stored elsewhere than where an operation writes is kept. -/
theorem stored_answerAs
    {storage : Storage}
    {key : ObjectKey}
    (elsewhere : choice = .fails ∨ op.written ≠ some key) :
    (storage.answerAs choice op).1.stored key = storage.stored key := by
  rcases answerAs_storage storage choice op with ⟨carriedOut, isAfter⟩ | ⟨-, isSame⟩
  · rw [isAfter]
    rcases elsewhere with fails | isElsewhere
    · exact absurd fails carriedOut
    · exact stored_after isElsewhere
  · rw [isSame]

/-- What a write that is carried out leaves: what is put, or nothing. -/
theorem stored_of_written
    {storage : Storage}
    {key : ObjectKey}
    {bytes : Bytes}
    (carriedOut : choice ≠ .fails)
    (isWritten : op.written = some key)
    (stored : (storage.answerAs choice op).1.stored key = some bytes) :
    ∃ object, op = .put object ∧ object.bytes = bytes := by
  have isAfter : (storage.answerAs choice op).1 = storage.after op := by
    rcases answerAs_storage storage choice op with ⟨-, isAfter⟩ | ⟨fails, -⟩
    · exact isAfter
    · exact absurd fails carriedOut
  rw [isAfter] at stored
  cases op with
  | put object =>
      cases isWritten
      refine ⟨object, rfl, ?_⟩
      rw [stored_put] at stored
      exact Option.some.inj stored
  | delete other =>
      cases isWritten
      unfold Storage.stored Storage.after at stored
      dsimp only at stored
      rw [Lib.Table.find?_erase, if_pos rfl] at stored
      cases stored
  | _ => cases isWritten

/-- A task that has gone on has taken effect before, or does so now. -/
theorem tookEffect_append
    {key : ObjectKey}
    {request : Request}
    {past : List PodEvent}
    {event : PodEvent}
    {rest : PodProgram Response}
    (old : PodProgram Response)
    (effected : tookEffect key ⟨request, past ++ [event], rest⟩ = true) :
    tookEffect key ⟨request, past, old⟩ = true ∨
      (event.op.written = some key ∧ event.choice ≠ .fails) := by
  unfold tookEffect at effected ⊢
  rw [List.any_append, Bool.or_eq_true] at effected
  rcases effected with before | latest
  · exact Or.inl before
  · rw [List.any_cons, List.any_nil, Bool.or_false, Bool.and_eq_true, decide_eq_true_eq,
      decide_eq_true_eq] at latest
    exact Or.inr latest

variable (found : pool.tasks[index]? = some task) (isRest : task.rest = .perform op next)

include found in
theorem getElem?_set_cases
    {other : Nat}
    {changed held : PodTask}
    (isHeld : (pool.tasks.set index changed)[other]? = some held) :
    (other = index ∧ held = changed) ∨ (other ≠ index ∧ pool.tasks[other]? = some held) := by
  obtain ⟨inBounds, -⟩ := List.getElem?_eq_some_iff.mp found
  by_cases isIndex : index = other
  · rw [← isIndex, List.getElem?_set_self inBounds] at isHeld
    exact Or.inl ⟨isIndex.symm, (Option.some.inj isHeld).symm⟩
  · rw [List.getElem?_set_ne isIndex] at isHeld
    exact Or.inr ⟨fun same => isIndex same.symm, isHeld⟩

include found isRest in
theorem Guarded.performed
    (guarded : Guarded upstream pool)
    (serialized : Serialized upstream pool (.advance index choice)) :
    Guarded upstream
      ⟨(pool.state.answerAs choice op).1,
        pool.tasks.set index ⟨task.request,
          task.past ++ [⟨op, choice, (pool.state.answerAs choice op).2⟩],
          next (pool.state.answerAs choice op).2⟩⟩ := by
  have guards := guarded.guardsWrites serialized
  have writes : ∀ key, choice ≠ .fails → op.written = some key →
      (⟨index, task, op, key⟩ : Write) ∈ pool.carriesOut (.advance index choice) :=
    fun key carriedOut isWritten =>
      mem_carriesOut.mpr ⟨choice, next, rfl, carriedOut, found, isRest, isWritten⟩
  have sameTask : (⟨task.request, task.past, task.rest⟩ : PodTask) = task := rfl
  refine ⟨?_, ?_, ?_, ?_⟩
  · intro other member
    rcases List.mem_or_eq_of_mem_set member with isOld | isNew
    · exact guarded.followed other isOld
    · have before := guarded.followed task (List.mem_of_getElem? found)
      rw [isRest] at before
      rw [isNew]
      exact before.2 choice _
  · intro key other held isHeld stands object isFound
    rcases getElem?_set_cases found isHeld with ⟨-, isTask⟩ | ⟨isOther, wasHeld⟩
    · rw [isTask] at stands isFound
      rw [foundIn_append] at isFound
      unfold standsBetween at stands
      simp only [Bool.and_eq_true, List.all_append, List.all_cons, List.all_nil, Bool.and_true,
        decide_eq_true_eq, ne_eq] at stands
      obtain ⟨⟨⟨⟨⟨isRequired, isPut⟩, hasTarget⟩, -⟩, -⟩, noWrite, notWritten⟩ := stands
      rw [stored_answerAs (Or.inr notWritten)]
      rcases List.mem_append.mp isFound with before | latest
      · apply guarded.fresh key index task found ?_ object before
        unfold standsBetween
        rw [isRequired, isPut, hasTarget, isRest]
        have notNil : foundIn key task ≠ [] := List.ne_nil_of_mem before
        simp only [Bool.and_eq_true, Bool.not_eq_true', List.isEmpty_eq_false_iff, decide_true,
          true_and]
        exact ⟨⟨notNil, rfl⟩, noWrite⟩
      · exact stored_of_foundBy (Option.mem_toList.mp latest)
    · have kept : (pool.state.answerAs choice op).1.stored key = pool.state.stored key := by
        apply stored_answerAs
        by_contra effects
        rw [not_or, not_not] at effects
        have alone := (serialized _ (writes key effects.1 effects.2)).2.1 held
          (List.mem_eraseIdx_iff_getElem?.mpr ⟨other, isOther, wasHeld⟩)
        rw [stands] at alone
        cases alone
      dsimp only
      rw [kept]
      exact guarded.fresh key other held wasHeld stands object isFound
  · intro key other held isHeld effected tag carried bytes stored
    have keptOld : ∀ (place : Nat) old, pool.tasks[place]? = some old →
        tookEffect key old = true → old.request.carriedTag key = some tag →
          upstream.etag bytes ≠ tag := by
      intro place old wasHeld wasEffected wasCarried
      by_cases effects : choice ≠ .fails ∧ op.written = some key
      · obtain ⟨object, isPut, isBytes⟩ := stored_of_written effects.1 effects.2 stored
        have newTag := (serialized _ (writes key effects.1 effects.2)).2.2 object (by rw [isPut]; rfl)
        have isOther := newTag.1 old (List.mem_of_getElem? wasHeld) wasEffected
        rw [wasCarried, isBytes] at isOther
        exact fun same => isOther (congrArg some same.symm)
      · have kept : (pool.state.answerAs choice op).1.stored key = pool.state.stored key := by
          apply stored_answerAs
          by_cases fails : choice = .fails
          · exact Or.inl fails
          · exact Or.inr fun isWritten => effects ⟨fails, isWritten⟩
        dsimp only at stored
        rw [kept] at stored
        exact guarded.spent key place old wasHeld wasEffected tag wasCarried bytes stored
    rcases getElem?_set_cases found isHeld with ⟨-, isTask⟩ | ⟨-, wasHeld⟩
    · rw [isTask] at effected carried
      rcases tookEffect_append task.rest effected with before | ⟨isWritten, carriedOut⟩
      · exact keptOld index task found before carried
      · dsimp only at isWritten carriedOut
        obtain ⟨object, isPut, isBytes⟩ := stored_of_written carriedOut isWritten stored
        have newTag := (serialized _ (writes key carriedOut isWritten)).2.2 object (by rw [isPut]; rfl)
        have isOther := newTag.2
        dsimp only at isOther carried
        rw [carried, isBytes] at isOther
        exact fun same => isOther (congrArg some same.symm)
    · exact keptOld other held wasHeld effected carried
  · intro key tag first second isBefore earlier isEarlier later isLater carriesEarlier carriesLater
    rintro ⟨effectedEarlier, effectedLater⟩
    -- a write that is carried out now is guarded by a tag that is spent
    have unspent : ∀ (place : Nat) old, pool.tasks[place]? = some old →
        tookEffect key old = true → old.request.carriedTag key = some tag →
          task.request.carriedTag key = some tag → op.written = some key → choice = .fails := by
      intro place old wasHeld wasEffected wasCarried carried isWritten
      by_contra carriedOut
      obtain ⟨header, isRequired, onlyTag⟩ := requires_of_carriedTag carried
      have hasTag := guards _ (writes key carriedOut isWritten) header isRequired
      unfold Storage.hasTag at hasTag
      dsimp only at hasTag
      cases isStored : pool.state.stored key with
      | none =>
          rw [isStored] at hasTag
          cases hasTag
      | some bytes =>
          rw [isStored, Option.any_some] at hasTag
          exact guarded.spent key place old wasHeld wasEffected tag wasCarried bytes isStored
            (onlyTag _ hasTag)
    rcases getElem?_set_cases found isEarlier with ⟨isIndex, isTask⟩ | ⟨-, wasEarlier⟩
    · rcases getElem?_set_cases found isLater with ⟨sameIndex, -⟩ | ⟨-, wasLater⟩
      · omega
      · rw [isTask] at effectedEarlier carriesEarlier
        rcases tookEffect_append task.rest effectedEarlier with
          before | ⟨isWritten, carriedOut⟩
        · rw [isIndex] at isBefore
          exact guarded.once key tag index second isBefore task found later wasLater
            carriesEarlier carriesLater ⟨before, effectedLater⟩
        · exact carriedOut
            (unspent second later wasLater effectedLater carriesLater carriesEarlier isWritten)
    · rcases getElem?_set_cases found isLater with ⟨isIndex, isTask⟩ | ⟨-, wasLater⟩
      · rw [isTask] at effectedLater carriesLater
        rcases tookEffect_append task.rest effectedLater with
          before | ⟨isWritten, carriedOut⟩
        · rw [isIndex] at isBefore
          exact guarded.once key tag first index isBefore earlier wasEarlier task found
            carriesEarlier carriesLater ⟨effectedEarlier, before⟩
        · exact carriedOut
            (unspent first earlier wasEarlier effectedEarlier carriesEarlier carriesLater isWritten)
      · exact guarded.once key tag first second isBefore earlier wasEarlier later wasLater
          carriesEarlier carriesLater ⟨effectedEarlier, effectedLater⟩

end Performed

theorem Guarded.started
    {pool : PodPool}
    (guarded : Guarded upstream pool)
    (request : Request) :
    Guarded upstream ⟨pool.state, pool.tasks ++ [Lib.Pool.fresh upstream.fetch request]⟩ := by
  have cases : ∀ {index : Nat} {task : PodTask},
      (pool.tasks ++ [Lib.Pool.fresh upstream.fetch request])[index]? = some task →
        pool.tasks[index]? = some task ∨ task = Lib.Pool.fresh upstream.fetch request := by
    intro index task held
    rw [List.getElem?_append] at held
    split at held
    · exact Or.inl held
    · exact Or.inr (List.mem_singleton.mp (List.mem_of_getElem? held))
  refine ⟨?_, ?_, ?_, ?_⟩
  · intro task member
    rcases List.mem_append.mp member with isOld | isNew
    · exact guarded.followed task isOld
    · rw [List.mem_singleton.mp isNew]
      exact fetch_checked request
  · intro key index task held stands object isFound
    rcases cases held with wasHeld | isNew
    · exact guarded.fresh key index task wasHeld stands object isFound
    · rw [isNew] at isFound
      cases isFound
  · intro key index task held effected
    rcases cases held with wasHeld | isNew
    · exact guarded.spent key index task wasHeld effected
    · rw [isNew] at effected
      cases effected
  · intro key tag first second isBefore earlier isEarlier later isLater carriesEarlier carriesLater
    rintro ⟨effectedEarlier, effectedLater⟩
    rcases cases isEarlier with wasEarlier | isNew
    · rcases cases isLater with wasLater | isNew
      · exact guarded.once key tag first second isBefore earlier wasEarlier later wasLater
          carriesEarlier carriesLater ⟨effectedEarlier, effectedLater⟩
      · rw [isNew] at effectedLater
        cases effectedLater
    · rw [isNew] at effectedEarlier
      cases effectedEarlier

/-- What one move keeps. -/
theorem Guarded.step
    {pool : PodPool}
    {move : PodMove}
    (guarded : Guarded upstream pool)
    (serialized : Serialized upstream pool move) :
    Guarded upstream (PodPool.step upstream pool move) := by
  unfold PodPool.step
  rcases Lib.Pool.step_cases upstream.fetch Storage.answerAs pool move with
    unchanged | ⟨request, -, started⟩ | ⟨index, choice, task, op, next, isMove, found, isRest, performed⟩
  · rw [unchanged]
    exact guarded
  · rw [started]
    exact guarded.started request
  · rw [performed]
    rw [isMove] at serialized
    exact guarded.performed found isRest serialized

/-! ## Runs -/

theorem guarded_idle
    (storage : Storage) :
    Guarded upstream (Lib.Pool.idle storage) where
  followed := by rintro task ⟨⟩
  fresh := by simp [Lib.Pool.idle]
  spent := by simp [Lib.Pool.idle]
  once := by simp [Lib.Pool.idle, OncePerTag]

/-- Along a run whose moves are serialized, a request with If-Match takes effect only
while the resource has a tag that it names, and of two requests that carry one tag one at
most takes effect. -/
theorem noLostUpdate_run
    (upstream : Upstream)
    (storage : Storage)
    {moves : List PodMove}
    (serialized : Lib.Along (PodPool.step upstream) (Serialized upstream) (Lib.Pool.idle storage)
      moves) :
    Lib.Along (PodPool.step upstream) (GuardsWrites upstream) (Lib.Pool.idle storage) moves ∧
      Lib.Visits (PodPool.step upstream) OncePerTag (Lib.Pool.idle storage) moves := by
  have preserved : ∀ pool move, Guarded upstream pool → Serialized upstream pool move →
      Guarded upstream (PodPool.step upstream pool move) :=
    fun _ _ guarded serialized => guarded.step serialized
  constructor
  · exact Lib.along_of_along preserved (fun _ _ guarded serialized => guarded.guardsWrites serialized)
      (guarded_idle storage) serialized
  · exact (Lib.visits_of_along preserved (guarded_idle storage) serialized).mono
      fun _ guarded => guarded.once

end

/-! ## Two requests with one tag -/

namespace Sample

/-- An upstream that tags what is stored by its length, and lets members write. -/
def writable : Upstream where
  __ := upstream
  classifyPolicy _ _ := some ⟨[⟨none, none, none, some (.single "acl:AuthenticatedAgent"), none,
    none, some (.single "acl:Write")⟩], false⟩
  etag bytes := toString bytes.length

/-- A request to replace a note that has the tag of one byte. -/
def replaces (body : Bytes) : Request where
  __ := posts owner "/note" none body
  method := .put
  ifMatch := some "\"1\""

/-- A pod with a policy and a note. -/
def oneNote : Storage :=
  (Storage.empty.after (.put ⟨⟨owner, "/.acl"⟩, [1], "application/ld+json"⟩)).after
    (.put ⟨⟨owner, "/note"⟩, [7], "text/plain"⟩)

/-- The operations of the requests at these places, which are all answered. -/
def turns (places : List Nat) : List PodMove :=
  places.map fun place => .advance place .answered

/-- Two requests come in, and their operations are performed in an order. -/
def twoReplacements (places : List Nat) : List PodMove :=
  [.start (replaces [7, 8]), .start (replaces [7, 8, 9])] ++ turns places

/-- One request after the other. -/
def inTurn : List Nat :=
  [0, 0, 0, 0, 0, 0, 1, 1, 1]

/-- Both requests are checked before either writes. -/
def bothChecked : List Nat :=
  [0, 0, 0, 1, 1, 1, 0, 0, 0, 1, 1, 1]

end Sample

theorem noLostUpdate_run_inTurn :
    Lib.Along (PodPool.step Sample.writable) (GuardsWrites Sample.writable)
        (Lib.Pool.idle Sample.oneNote) (Sample.twoReplacements Sample.inTurn) ∧
      Lib.Visits (PodPool.step Sample.writable) OncePerTag
        (Lib.Pool.idle Sample.oneNote) (Sample.twoReplacements Sample.inTurn) := by
  apply noLostUpdate_run Sample.writable Sample.oneNote
  decide +kernel

/-- Two requests that carry one tag both take effect, the second on a resource that no
longer has it. -/
theorem both_take_effect :
    ¬(Lib.Along (PodPool.step Sample.writable) (GuardsWrites Sample.writable)
        (Lib.Pool.idle Sample.oneNote) (Sample.twoReplacements Sample.bothChecked) ∧
      Lib.Visits (PodPool.step Sample.writable) OncePerTag
        (Lib.Pool.idle Sample.oneNote) (Sample.twoReplacements Sample.bothChecked)) := by
  rintro ⟨-, visits⟩
  have once := (Lib.visits_iff_prefixes _ _).mp visits _ (List.prefix_refl _)
  have effects : (Lib.run (PodPool.step Sample.writable) (Lib.Pool.idle Sample.oneNote)
      (Sample.twoReplacements Sample.bothChecked)).tasks.map
        (fun task => (tookEffect ⟨Sample.owner, "/note"⟩ task,
          task.request.carriedTag ⟨Sample.owner, "/note"⟩)) =
      [(true, some "1"), (true, some "1")] := by decide +kernel
  generalize Lib.run (PodPool.step Sample.writable) (Lib.Pool.idle Sample.oneNote)
    (Sample.twoReplacements Sample.bothChecked) = pool at once effects
  have taskAt : ∀ index : Nat, index < 2 → ∃ task, pool.tasks[index]? = some task ∧
      tookEffect ⟨Sample.owner, "/note"⟩ task = true ∧
        task.request.carriedTag ⟨Sample.owner, "/note"⟩ = some "1" := by
    intro index small
    have both := congrArg (fun entries => entries[index]?) effects
    have listed : [(true, some "1"), (true, some "1")][index]? = some (true, some "1") := by
      interval_cases index
      · rfl
      · rfl
    rw [List.getElem?_map, listed] at both
    obtain ⟨task, isTask, isPair⟩ := Option.map_eq_some_iff.mp both
    rw [Prod.mk.injEq] at isPair
    exact ⟨task, isTask, isPair⟩
  obtain ⟨first, isFirst, effected, carried⟩ := taskAt 0 (by decide)
  obtain ⟨second, isSecond, alsoEffected, alsoCarried⟩ := taskAt 1 (by decide)
  exact once _ _ 0 1 (by decide) first isFirst second isSecond carried alsoCarried
    ⟨effected, alsoEffected⟩

end Pod
end NostrBbs
