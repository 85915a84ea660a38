import NostrBbs.Lib.Pool
import NostrBbs.ZoneMigrate.Engine

/-!
# The only copy of an original

Commands run against a relay that may answer anything and fail at any request,
and may be interrupted anywhere.  An original is deleted only just after its
envelope was opened once more, and no entry becomes purged otherwise.
-/

namespace NostrBbs
namespace ZoneMigrate

open Relay (NostrEvent)

/-! ## Runs of commands -/

/-- How the relay and the file system answer an operation. -/
structure Choice where
  events : Except RelayError (List NostrEvent)
  published : Except RelayError PublishOutcome
  deleted : Except RelayError DeleteOutcome
  nonce : String
  saved : Except String Unit

/-- The answers from a state file; a save that fails leaves the file. -/
def answer (file : Option State) (choice : Choice) : (op : Op) → Option State × op.Answer
  | .query _ => (file, choice.events)
  | .publish _ => (file, choice.published)
  | .deleteEvents _ _ => (file, choice.deleted)
  | .nonce => (file, choice.nonce)
  | .load => (file, file)
  | .persist state => (if choice.saved.toOption.isSome then some state else file, choice.saved)

/-- What a command has performed. -/
abbrev Past := List (Lib.Event Op Choice Op.Answer)

/-- The state file, and the commands that were started. -/
abbrev Commands := Lib.Pool (Option State) Invocation Op Choice Op.Answer (Except EngineError State)

/-- Commands started, and gone on with for some operations each. -/
def runCommands (crypto : Crypto) (file : Option State)
    (moves : List (Lib.Move Invocation Choice)) : Commands :=
  Lib.run (Lib.Pool.step (Invocation.program crypto) answer) (Lib.Pool.idle file) moves

def Op.isQuery : Op → Bool
  | query _ => true
  | _ => false

/-- The events that an operation returned. -/
def returned : Lib.Event Op Choice Op.Answer → List NostrEvent
  | ⟨.query _, _, .ok events⟩ => events
  | _ => []

/-- A query since the last operation of another kind returned an event. -/
def JustReturned (past : Past) (outer : NostrEvent) : Prop :=
  ∃ earlier queries, past = earlier ++ queries ∧ (∀ event ∈ queries, event.op.isQuery) ∧
    ∃ event ∈ queries, outer ∈ returned event

/-- A command was started from a state. -/
def Loaded (past : Past) (state : State) : Prop :=
  ∃ choice, ⟨.load, choice, some state⟩ ∈ past

/-- The deletion of an original was asked for. -/
def DeletionAsked (past : Past) (id : String) : Prop :=
  ∃ event ∈ past, ∃ ids reason, event.op = .deleteEvents ids reason ∧ id ∈ ids

def State.IsPurged (state : State) (id : String) : Prop :=
  ∃ entry, state.entry id = some entry ∧ entry.status = .purged

/-- An envelope in an entry's channel opens with the key of the recorded zone and
epoch to the original, whose digest is the recorded one. -/
structure Opens (crypto : Crypto) (keys : KeyRing) (entry : Entry) (id : String)
    (outer : NostrEvent) : Prop where
  recorded : entry.outerId = some outer.id
  verified : crypto.verifyEvent outer
  sameChannel : channelOf outer = some entry.channel
  opens : ∃ epoch key inner, entry.epoch = some epoch ∧ keys.get entry.zone epoch = some key ∧
    crypto.openSealed outer key.secret = .ok inner ∧ crypto.verifyEvent inner ∧ inner.id = id ∧
      entry.innerSha256 = some (crypto.sha256Hex (crypto.toJson inner))

/-- The entry of an original was verified when the command was started, and its
envelope has just been returned and opens. -/
def CopyChecked (crypto : Crypto) (keys : KeyRing) (past : Past) (id : String) : Prop :=
  ∃ loaded entry outer, Loaded past loaded ∧ loaded.entry id = some entry ∧
    entry.status = .verified ∧ JustReturned past outer ∧ Opens crypto keys entry id outer

/-- Entries of a state that are purged were purged when the command was started, or
their deletion was asked for. -/
def Accounted (past : Past) (state : State) : Prop :=
  ∀ id, state.IsPurged id →
    (∃ loaded, Loaded past loaded ∧ loaded.IsPurged id) ∨ DeletionAsked past id

/-- What a command may do after what it has done: it deletes only originals whose
copies were just checked, and saves no other entries as purged. -/
def Careful (crypto : Crypto) (invocation : Invocation) (past : Past) : Op → Prop
  | .deleteEvents ids _ => ∀ id ∈ ids, CopyChecked crypto invocation.keys past id
  | .persist state => Accounted past state
  | _ => True

/-! ## Programs that may stop -/

namespace Fallible

variable {Value Result : Type} {program : Fallible Value}
  {continuation : Value → Fallible Result} {past : Past}
  {allowed : Past → Op → Prop} {between : Past → Value → Prop} {good : Past → Result → Prop}

/-- A program performs what is allowed, and unless it stops ends with a value that
has a property. -/
structure Safe (allowed : Past → Op → Prop) (good : Past → Value → Prop) (past : Past)
    (program : Fallible Value) : Prop where
  follows : program.Follows allowed past
  gives : program.Yields (fun later result => ∀ value, result = .ok value → good later value) past

theorem safe_succeed
    {value : Value}
    (holds : between past value) :
    (succeed value).Safe allowed between past where
  follows := trivial
  gives := by
    intro other isValue
    obtain rfl := Except.ok.inj isValue
    exact holds

theorem safe_stop
    (error : EngineError) :
    (stop error : Fallible Value).Safe allowed between past where
  follows := trivial
  gives := by
    intro value isValue
    cases isValue

theorem Safe.andThen
    (first : program.Safe allowed between past)
    (rest : ∀ more value, between (past ++ more) value →
      (continuation value).Safe allowed good (past ++ more)) :
    (program.andThen continuation).Safe allowed good past where
  follows := by
    refine Lib.Program.Follows.bind_of_yields first.follows first.gives ?_
    intro more result given
    cases result with
    | error error => trivial
    | ok value => exact (rest more value (given value rfl)).follows
  gives := by
    refine Lib.Program.Yields.bind first.gives ?_
    intro more result given
    cases result with
    | error error =>
        intro value isValue
        cases isValue
    | ok value => exact (rest more value (given value rfl)).gives

/-- An operation that is allowed, and what is known once it was performed. -/
theorem safe_perform
    {op : Op}
    {next : op.Answer → Except EngineError Value}
    (isAllowed : allowed past op)
    (given : ∀ choice answer value, next answer = .ok value →
      between (past ++ [⟨op, choice, answer⟩]) value) :
    Safe allowed between past (Lib.Program.perform op fun answer => .done (next answer)) where
  follows := ⟨isAllowed, fun _ _ => trivial⟩
  gives := fun choice answer value => given choice answer value

end Fallible

open Fallible

/-! ## Fetching by id -/

/-- Events were returned since some point, by queries alone. -/
def FetchedSince (base later : Past) (found : EventMap) : Prop :=
  ∃ queries, later = base ++ queries ∧ (∀ event ∈ queries, event.op.isQuery) ∧
    ∀ entry ∈ found, entry.1 = entry.2.id ∧ ∃ event ∈ queries, entry.2 ∈ returned event

theorem FetchedSince.justReturned
    {base later : Past}
    {found : EventMap}
    {id : String}
    {outer : NostrEvent}
    (since : FetchedSince base later found)
    (isFound : found.get id = some outer) :
    outer.id = id ∧ JustReturned later outer := by
  obtain ⟨queries, isLater, allQueries, returned⟩ := since
  obtain ⟨entry, isEntry, rfl⟩ := Option.map_eq_some_iff.mp isFound
  obtain ⟨sameId, event, performed, isReturned⟩ := returned entry (List.mem_of_find?_eq_some isEntry)
  have asked := List.find?_some isEntry
  rw [beq_iff_eq] at asked
  exact ⟨sameId.symm.trans asked, base, queries, isLater, allQueries, event, performed, isReturned⟩

section Fetching

variable {crypto : Crypto} {invocation : Invocation} {base past : Past} {found : EventMap}

theorem safe_query (filter : Filter) :
    (query filter).Safe (Careful crypto invocation)
      (fun later events => ∃ event : Lib.Event Op Choice Op.Answer,
        later = past ++ [event] ∧ event.op.isQuery ∧ returned event = events) past := by
  apply safe_perform trivial
  intro choice answer events isEvents
  refine ⟨_, rfl, rfl, ?_⟩
  cases answer with
  | error error => cases isEvents
  | ok answered =>
      obtain rfl := Except.ok.inj isEvents
      rfl

theorem safe_fetchChunks
    (since : FetchedSince base past found)
    (chunks : List (List String)) :
    (fetchChunks chunks found).Safe (Careful crypto invocation) (FetchedSince base) past := by
  induction chunks generalizing past found with
  | nil => exact safe_succeed since
  | cons chunk chunks inductionHypothesis =>
      refine (safe_query _).andThen ?_
      rintro more events ⟨event, isLater, isQuery, rfl⟩
      apply inductionHypothesis
      obtain ⟨queries, rfl, allQueries, returnedBefore⟩ := since
      rw [isLater]
      refine ⟨queries ++ [event], List.append_assoc .., ?_, ?_⟩
      · intro other member
        rcases List.mem_append.mp member with before | now
        · exact allQueries other before
        · rw [List.mem_singleton.mp now]
          exact isQuery
      · intro entry kept
        rcases mem_keepAsked.mp kept with before | ⟨sameId, isReturned, -⟩
        · obtain ⟨sameId, other, performed, isReturned⟩ := returnedBefore entry before
          exact ⟨sameId, other, List.mem_append_left _ performed, isReturned⟩
        · exact ⟨sameId, event, by simp, isReturned⟩

theorem safe_fetchByIds (ids : List String) :
    (fetchByIds ids).Safe (Careful crypto invocation) (FetchedSince past) past := by
  apply safe_fetchChunks
  exact ⟨[], by simp, by simp, by simp⟩

end Fetching

/-! ## Entries that only change their status -/

/-- Two states have the same entries, but for their statuses. -/
def SameRecords (first second : State) : Prop :=
  ∀ id, (first.entry id).map (Entry.setStatus .planned) =
    (second.entry id).map (Entry.setStatus .planned)

theorem sameRecords_setStatus
    (state : State)
    (id : String)
    (status : Status) :
    SameRecords (state.modify id (Entry.setStatus status)) state := by
  intro other
  rw [State.entry_modify]
  split
  · rw [Option.map_map]
    rfl
  · rfl

theorem SameRecords.trans
    {first second third : State}
    (sameFirst : SameRecords first second)
    (sameSecond : SameRecords second third) :
    SameRecords first third :=
  fun id => (sameFirst id).trans (sameSecond id)

/-- The entry of a state is the loaded one with some status. -/
theorem SameRecords.entry
    {state loaded : State}
    (same : SameRecords state loaded)
    {id : String}
    {entry : Entry}
    (isEntry : loaded.entry id = some entry) :
    ∃ status, state.entry id = some (entry.setStatus status) := by
  have both := same id
  rw [isEntry, Option.map_some, Option.map_eq_some_iff] at both
  obtain ⟨other, isOther, sameRecord⟩ := both
  refine ⟨other.status, isOther.trans (congrArg some ?_)⟩
  have restored := congrArg (Entry.setStatus other.status) sameRecord
  exact restored

section Checking

variable {crypto : Crypto} {keys : KeyRing} {found : String → Option NostrEvent} {id other : String}
  {state : State}

/-- A check sets the status of one entry to verified or failed. -/
theorem checkEntry_cases
    (crypto : Crypto)
    (keys : KeyRing)
    (found : String → Option NostrEvent)
    (state : State)
    (failures : Failures)
    (id : String) :
    (state.entry id = none ∧ crypto.checkEntry keys found (state, failures) id = (state, failures)) ∨
      (∃ entry, state.entry id = some entry ∧ crypto.verdict keys found id entry = .ok () ∧
        crypto.checkEntry keys found (state, failures) id =
          (state.modify id (Entry.setStatus .verified), failures)) ∨
      ∃ entry reason, state.entry id = some entry ∧
        crypto.verdict keys found id entry = .error reason ∧
        crypto.checkEntry keys found (state, failures) id =
          (state.modify id (Entry.setStatus (.failed .verify reason)),
            failures ++ [(id, reason)]) := by
  unfold Crypto.checkEntry
  dsimp only
  split
  · rename_i absent
    exact .inl ⟨absent, rfl⟩
  · rename_i entry isEntry
    split
    · rename_i passes
      exact .inr (.inl ⟨entry, isEntry, passes, rfl⟩)
    · rename_i reason fails
      exact .inr (.inr ⟨entry, reason, isEntry, fails, rfl⟩)

/-- Checking some entries changes no record and makes none purged. -/
theorem checked_spec
    (crypto : Crypto)
    (keys : KeyRing)
    (found : String → Option NostrEvent)
    (ids : List String)
    (state : State)
    (failures : Failures) :
    SameRecords (ids.foldl (crypto.checkEntry keys found) (state, failures)).1 state ∧
      ∀ id, (ids.foldl (crypto.checkEntry keys found) (state, failures)).1.IsPurged id →
        state.IsPurged id := by
  induction ids generalizing state failures with
  | nil => exact ⟨fun _ => rfl, fun _ purged => purged⟩
  | cons id ids inductionHypothesis =>
      have marked : ∀ (status : Status) (failures : Failures), status ≠ .purged →
          SameRecords (ids.foldl (crypto.checkEntry keys found)
            (state.modify id (Entry.setStatus status), failures)).1 state ∧
          ∀ other, (ids.foldl (crypto.checkEntry keys found)
            (state.modify id (Entry.setStatus status), failures)).1.IsPurged other →
              state.IsPurged other := by
        intro status failures notPurged
        obtain ⟨same, purged⟩ := inductionHypothesis
          (state.modify id (Entry.setStatus status)) failures
        refine ⟨same.trans (sameRecords_setStatus state id status), ?_⟩
        intro other isPurged
        obtain ⟨entry, isEntry, hasStatus⟩ := purged other isPurged
        rw [State.entry_modify] at isEntry
        split at isEntry
        · obtain ⟨before, -, rfl⟩ := Option.map_eq_some_iff.mp isEntry
          exact absurd hasStatus notPurged
        · exact ⟨entry, isEntry, hasStatus⟩
      rw [List.foldl_cons]
      rcases checkEntry_cases crypto keys found state failures id with
        ⟨-, unchanged⟩ | ⟨entry, -, -, verified⟩ | ⟨entry, reason, -, -, failed⟩
      · rw [unchanged]
        exact inductionHypothesis state failures
      · rw [verified]
        exact marked .verified failures (by simp)
      · rw [failed]
        exact marked (.failed .verify reason) _ (by simp)

/-- When no check failed, every entry passed its check. -/
theorem verdict_of_no_failures
    {ids : List String}
    {failures : Failures}
    (none : (ids.foldl (crypto.checkEntry keys found) (state, failures)).2 = []) :
    failures = [] ∧ ∀ id ∈ ids, ∀ entry, state.entry id = some entry →
      crypto.verdict keys found id entry = .ok () := by
  induction ids generalizing state failures with
  | nil => exact ⟨none, by simp⟩
  | cons id ids inductionHypothesis =>
      rw [List.foldl_cons] at none
      rcases checkEntry_cases crypto keys found state failures id with
        ⟨absent, unchanged⟩ | ⟨entry, isEntry, passes, verified⟩ | ⟨entry, reason, -, -, failed⟩
      · rw [unchanged] at none
        obtain ⟨empty, passing⟩ := inductionHypothesis none
        refine ⟨empty, ?_⟩
        intro other member entry isEntry
        rcases List.mem_cons.mp member with rfl | isLater
        · rw [absent] at isEntry
          cases isEntry
        · exact passing other isLater entry isEntry
      · rw [verified] at none
        obtain ⟨empty, passing⟩ := inductionHypothesis none
        refine ⟨empty, ?_⟩
        intro other member held isHeld
        by_cases same : other = id
        · subst same
          rw [isEntry] at isHeld
          exact Option.some.inj isHeld ▸ passes
        · have isLater := (List.mem_cons.mp member).resolve_left same
          exact passing other isLater held (by rwa [State.entry_modify_ne same])
      · rw [failed] at none
        obtain ⟨empty, -⟩ := inductionHypothesis none
        simp at empty

/-- An entry that passes its check has an envelope that opens. -/
theorem opens_of_verdict
    {entry : Entry}
    (passes : crypto.verdict keys found id entry = .ok ()) :
    ∃ outerId outer, entry.outerId = some outerId ∧ found outerId = some outer ∧
      (outer.id = outerId → Opens crypto keys entry id outer) := by
  unfold Crypto.verdict at passes
  split at passes
  · rename_i outerId epoch digest isOuter isEpoch isDigest
    split at passes
    · cases passes
    · rename_i outer isFound
      refine ⟨outerId, outer, isOuter, isFound, ?_⟩
      intro sameId
      split at passes
      · cases passes
      · rename_i key isKey
        split at passes
        · cases passes
        · rename_i json opened
          split at passes
          · rename_i sameDigest
            unfold Crypto.openAndCheck at opened
            split at opened
            · cases opened
            · rename_i verified
              split at opened
              · cases opened
              · rename_i sameChannel
                split at opened
                · cases opened
                · rename_i inner isInner
                  split at opened
                  · cases opened
                  · rename_i isOriginal
                    obtain rfl := Except.ok.inj opened
                    exact
                      { recorded := isOuter.trans (congrArg some sameId.symm)
                        verified := by simpa using verified
                        sameChannel := not_not.mp sameChannel
                        opens := ⟨epoch, key, inner, isEpoch, isKey, isInner,
                          (Crypto.opened_of_openSealed isInner).verified, not_not.mp isOriginal,
                          isDigest.trans (congrArg some sameDigest.symm)⟩ }
          · cases passes
  · cases passes

end Checking

/-! ## What stays true of a past -/

section Pasts

variable {past : Past} {state later : State} {id : String}

theorem Loaded.append
    (loaded : Loaded past state)
    (more : Past) :
    Loaded (past ++ more) state := by
  obtain ⟨choice, performed⟩ := loaded
  exact ⟨choice, List.mem_append_left _ performed⟩

theorem Accounted.append
    (accounted : Accounted past state)
    (more : Past) :
    Accounted (past ++ more) state := by
  intro id purged
  rcases accounted id purged with ⟨loaded, isLoaded, before⟩ | ⟨event, performed, asked⟩
  · exact .inl ⟨loaded, isLoaded.append more, before⟩
  · exact .inr ⟨event, List.mem_append_left _ performed, asked⟩

/-- A state with no purged entries of its own is accounted for. -/
theorem Accounted.mono
    (accounted : Accounted past state)
    (fewer : ∀ id, later.IsPurged id → state.IsPurged id) :
    Accounted past later :=
  fun id purged => accounted id (fewer id purged)

/-- A change that makes no entry purged. -/
theorem isPurged_of_modify
    {change : Entry → Entry}
    (notPurged : ∀ entry, (change entry).status ≠ .purged)
    {other : String}
    (purged : (state.modify id change).IsPurged other) :
    state.IsPurged other := by
  obtain ⟨entry, isEntry, isPurged⟩ := purged
  rw [State.entry_modify] at isEntry
  split at isEntry
  · obtain ⟨before, -, rfl⟩ := Option.map_eq_some_iff.mp isEntry
    exact absurd isPurged (notPurged before)
  · exact ⟨entry, isEntry, isPurged⟩

/-- A planned entry recorded. -/
theorem isPurged_of_record
    {channel zone other : String}
    {createdAt : Nat}
    (purged : (state.record id (Entry.planned channel zone createdAt)).IsPurged other) :
    state.IsPurged other := by
  obtain ⟨entry, isEntry, isPurged⟩ := purged
  rw [State.entry_record] at isEntry
  split at isEntry
  · cases isEntry
    cases isPurged
  · exact ⟨entry, isEntry, isPurged⟩

end Pasts

/-! ## The steps -/

section Steps

variable {crypto : Crypto} {invocation : Invocation} {past : Past} {state loaded : State}
  {ids chunk : List String}

theorem safe_persist
    (accounted : Accounted past state) :
    (persist state).Safe (Careful crypto invocation) (fun later _ => Accounted later state) past :=
  safe_perform accounted fun _ _ _ _ => accounted.append _

theorem safe_checkEntries
    (keys : KeyRing)
    (state : State)
    (ids : List String)
    (failed : Failures) :
    (checkEntries crypto keys state ids failed).Safe (Careful crypto invocation)
      (fun later checked => ∃ found, FetchedSince past later found ∧
        checked = ids.foldl (crypto.checkEntry keys found.get) (state, failed)) past := by
  unfold checkEntries
  dsimp only
  split
  · exact safe_stop _
  · refine (safe_fetchByIds _).andThen ?_
    intro more found since
    exact safe_succeed ⟨found, since, rfl⟩

/-! ### Purging -/

/-- A purge in progress: the loaded entries changed in nothing but their status. -/
structure Purging (loaded state : State) (past : Past) : Prop where
  started : Loaded past loaded
  same : SameRecords state loaded
  accounted : Accounted past state

theorem Purging.append
    (purging : Purging loaded state past)
    (more : Past) :
    Purging loaded state (past ++ more) where
  started := purging.started.append more
  same := purging.same
  accounted := purging.accounted.append more

/-- Checks leave a purge in progress. -/
theorem Purging.checked
    (purging : Purging loaded state past)
    (crypto : Crypto)
    (keys : KeyRing)
    (found : String → Option NostrEvent)
    (ids : List String) :
    Purging loaded (ids.foldl (crypto.checkEntry keys found) (state, [])).1 past := by
  obtain ⟨same, fewer⟩ := checked_spec crypto keys found ids state []
  exact
    { started := purging.started
      same := same.trans purging.same
      accounted := purging.accounted.mono fewer }

/-- A chunk without failures has copies that were just checked. -/
theorem Purging.copyChecked
    (purging : Purging loaded state past)
    {later : Past}
    (isLoaded : Loaded later loaded)
    (verified : ∀ id ∈ chunk, ∃ entry, loaded.entry id = some entry ∧ entry.status = .verified)
    {keys : KeyRing}
    {found : EventMap}
    (since : FetchedSince past later found)
    (passed : (chunk.foldl (crypto.checkEntry keys found.get) (state, [])).2 = []) :
    ∀ id ∈ chunk, CopyChecked crypto keys later id := by
  intro id member
  obtain ⟨entry, isEntry, wasVerified⟩ := verified id member
  obtain ⟨status, held⟩ := purging.same.entry isEntry
  have marked := (verdict_of_no_failures passed).2 id member _ held
  -- the check does not read the status
  have passes : crypto.verdict keys found.get id entry = .ok () := marked
  obtain ⟨outerId, outer, -, isFound, opens⟩ := opens_of_verdict passes
  obtain ⟨sameId, returned⟩ := since.justReturned isFound
  exact ⟨loaded, entry, outer, isLoaded, isEntry, wasVerified, returned, opens sameId⟩

/-- The marks of a chunk whose deletion was asked for. -/
theorem Purging.marked
    (purging : Purging loaded state past)
    (outcome : DeleteOutcome)
    (asked : ∀ id ∈ chunk, DeletionAsked past id) :
    Purging loaded (markChunk outcome chunk state) past := by
  unfold markChunk
  induction chunk generalizing state with
  | nil => exact purging
  | cons id chunk inductionHypothesis =>
      rw [List.foldl_cons]
      apply inductionHypothesis _ fun other member => asked other (List.mem_cons_of_mem _ member)
      have same := sameRecords_setStatus state id (outcome.statusOf id)
      refine ⟨purging.started, same.trans purging.same, ?_⟩
      rintro other ⟨entry, isEntry, isPurged⟩
      rw [State.entry_modify] at isEntry
      split at isEntry
      · rename_i same
        exact .inr (same ▸ asked id (List.mem_cons_self ..))
      · exact purging.accounted other ⟨entry, isEntry, isPurged⟩

theorem safe_purgeChunk
    (purging : Purging loaded state past)
    (verified : ∀ id ∈ chunk, ∃ entry, loaded.entry id = some entry ∧ entry.status = .verified)
    (number count : Nat)
    (report : PurgeReport) :
    (purgeChunk crypto invocation.keys number count chunk state report).Safe
      (Careful crypto invocation) (fun later result => Purging loaded result.1 later) past := by
  refine (safe_checkEntries ..).andThen ?_
  rintro more ⟨marked, failures⟩ ⟨found, since, isChecked⟩
  obtain ⟨rfl, rfl⟩ := Prod.ext_iff.mp isChecked
  have checked := (purging.append more).checked crypto invocation.keys found.get chunk
  dsimp only
  split
  · refine (safe_persist checked.accounted).andThen ?_
    exact fun _ _ _ => safe_stop _
  · rename_i passed
    rw [ne_eq, not_not] at passed
    have copies := purging.copyChecked (purging.append more).started verified since passed
    have deletes : (deleteEvents chunk purgeReason).Safe (Careful crypto invocation)
        (fun later _ => ∀ id ∈ chunk, DeletionAsked later id) (past ++ more) := by
      apply safe_perform copies
      intro choice answer outcome _ id member
      exact ⟨_, List.mem_append_right _ (List.mem_singleton_self _), chunk, _, rfl, member⟩
    refine deletes.andThen ?_
    intro evenMore outcome asked
    have marked := (checked.append evenMore).marked outcome asked
    refine (safe_persist marked.accounted).andThen ?_
    exact fun last _ _ => safe_succeed (marked.append last)

theorem safe_purgeEach
    {chunks : List (List String)}
    (purging : Purging loaded state past)
    (verified : ∀ chunk ∈ chunks, ∀ id ∈ chunk,
      ∃ entry, loaded.entry id = some entry ∧ entry.status = .verified)
    (number count : Nat)
    (report : PurgeReport) :
    (purgeEach crypto invocation.keys count number chunks state report).Safe
      (Careful crypto invocation) (fun later result => Purging loaded result.1 later) past := by
  induction chunks generalizing state past number report with
  | nil => exact safe_succeed purging
  | cons chunk chunks inductionHypothesis =>
      obtain ⟨now, later⟩ := List.forall_mem_cons.mp verified
      refine (safe_purgeChunk purging now number count report).andThen ?_
      exact fun more result purging => inductionHypothesis purging later (number + 1) result.2

theorem safe_purge
    (isLoaded : Loaded past state)
    (confirmed : Bool) :
    (purge crypto invocation.keys state confirmed).Safe (Careful crypto invocation)
      (fun later result => Purging state result.1 later) past := by
  have purging : Purging state state past := by
    refine ⟨isLoaded, fun _ => rfl, ?_⟩
    exact fun id purged => .inl ⟨state, isLoaded, purged⟩
  unfold purge
  dsimp only
  split
  · exact safe_stop _
  · split
    · exact safe_stop _
    · split
      · exact safe_stop _
      · split
        · exact safe_stop _
        · refine (safe_purgeEach purging ?_ 0 _ _).andThen ?_
          · intro chunk isChunk id member
            have isTodo := (Lib.sublist_of_mem_chunks isChunk).subset member
            obtain ⟨entry, isEntry, isVerified⟩ := State.mem_idsWhere.mp isTodo
            exact ⟨entry, isEntry, by simpa using isVerified⟩
          · exact fun more result purged => safe_succeed purged

/-! ### Verifying -/

theorem safe_verify
    (accounted : Accounted past state) :
    (verify crypto invocation.keys state).Safe (Careful crypto invocation)
      (fun later result => Accounted later result.1) past := by
  refine (safe_checkEntries ..).andThen ?_
  rintro more ⟨later, failures⟩ ⟨found, -, isChecked⟩
  have isLater := (Prod.ext_iff.mp isChecked).1
  dsimp only at isLater
  subst isLater
  have fewer := (checked_spec crypto invocation.keys found.get (state.idsWhere Entry.isTarget)
    state []).2
  refine (safe_persist ((accounted.append more).mono fewer)).andThen ?_
  exact fun _ _ kept => safe_succeed kept

/-! ### Sealing -/

/-- Scanning queries alone. -/
theorem safe_scan
    (pages : Nat)
    (channels : List ChannelSpec)
    (keys : KeyRing) :
    (scan crypto pages channels keys).Safe (Careful crypto invocation) (fun _ _ => True) past := by
  have paged : ∀ (base : Filter) (pages : Nat) (fetched : Fetched) (cursor : Option Nat)
      (past : Past), (fetchPages base pages fetched cursor).Safe (Careful crypto invocation)
        (fun _ _ => True) past := by
    intro base pages
    induction pages with
    | zero => exact fun _ _ _ => safe_stop _
    | succ pages inductionHypothesis =>
        intro fetched cursor past
        refine (safe_query _).andThen ?_
        intro more page _
        split
        · exact safe_succeed trivial
        · exact inductionHypothesis _ _ _
  have scanned : ∀ (channels : List ChannelSpec) (past : Past),
      (scanEach crypto pages keys channels).Safe (Careful crypto invocation)
        (fun _ _ => True) past := by
    intro channels
    induction channels with
    | nil => exact fun _ => safe_succeed trivial
    | cons spec channels inductionHypothesis =>
        intro past
        refine (paged _ _ _ _ past).andThen fun more _ _ => ?_
        exact (inductionHypothesis _).andThen fun _ _ _ => safe_succeed trivial
  exact (scanned channels past).andThen fun _ _ _ => safe_succeed trivial

theorem notPurged_setSealed
    (epoch : Nat)
    (outerId digest : String)
    (entry : Entry) :
    (entry.setSealed epoch outerId digest).status ≠ .purged := by
  simp [Entry.setSealed]

theorem notPurged_fail
    (step : Step)
    (reason : String)
    (envelope : Option (Nat × String))
    (entry : Entry) :
    (entry.fail step reason envelope).status ≠ .purged := by
  cases envelope <;> simp [Entry.fail]

section Sealing

variable {run : SealRun}

theorem isPurged_of_recordNew
    {id : String}
    (purged : (run.recordNew state).IsPurged id) :
    state.IsPurged id := by
  have recorded : ∀ (scan : ChannelScan) (candidates : List Candidate) (state : State),
      (candidates.foldl (fun state candidate => state.record candidate.original.id
        (Entry.planned scan.plan.channel scan.plan.zone candidate.original.createdAt))
        state).IsPurged id → state.IsPurged id := by
    intro scan candidates
    induction candidates with
    | nil => exact fun _ purged => purged
    | cons candidate candidates inductionHypothesis =>
        exact fun state purged => isPurged_of_record (inductionHypothesis _ purged)
  unfold SealRun.recordNew at purged
  generalize run.scans = scans at purged
  induction scans generalizing state with
  | nil => exact purged
  | cons scan scans inductionHypothesis =>
      rw [List.foldl_cons] at purged
      exact recorded scan _ _ (inductionHypothesis purged)

theorem safe_failed
    (accounted : Accounted past state)
    (report : SealReport)
    (id reason : String)
    (envelope : Option (Nat × String)) :
    (SealRun.failed state report id reason envelope).Safe (Careful crypto invocation)
      (fun later result => Accounted later result.1) past := by
  have kept : Accounted past (state.modify id (Entry.fail .seal reason envelope)) :=
    accounted.mono fun _ => isPurged_of_modify (notPurged_fail .seal reason envelope)
  refine (safe_persist kept).andThen ?_
  exact fun _ _ kept => safe_succeed kept

theorem safe_setSealed
    (accounted : Accounted past state)
    (id outerId digest : String)
    (epoch : Nat)
    (report : SealReport) :
    (Fallible.andThen (persist (state.modify id (Entry.setSealed epoch outerId digest))) fun _ =>
      succeed (state.modify id (Entry.setSealed epoch outerId digest), report)).Safe
        (Careful crypto invocation) (fun later result => Accounted later result.1) past := by
  have kept : Accounted past (state.modify id (Entry.setSealed epoch outerId digest)) :=
    accounted.mono fun _ => isPurged_of_modify (notPurged_setSealed epoch outerId digest)
  refine (safe_persist kept).andThen ?_
  exact fun _ _ kept => safe_succeed kept

theorem safe_readBack
    (accounted : Accounted past state)
    (key : ZoneKey)
    (id channel : String)
    (original envelope : NostrEvent)
    (report : SealReport) :
    (SealRun.readBack crypto key id channel original envelope state report).Safe
      (Careful crypto invocation) (fun later result => Accounted later result.1) past := by
  refine (safe_fetchByIds _).andThen ?_
  intro more found _
  dsimp only
  split
  · exact safe_setSealed (accounted.append more) ..
  · exact safe_failed (accounted.append more) ..

theorem safe_publishNew
    (accounted : Accounted past state)
    (key : ZoneKey)
    (id channel zone : String)
    (original : NostrEvent)
    (report : SealReport) :
    (run.publishNew crypto key id channel zone original state report).Safe
      (Careful crypto invocation) (fun later result => Accounted later result.1) past := by
  have drawn : drawNonce.Safe (Careful crypto invocation) (fun _ _ => True) past :=
    safe_perform trivial fun _ _ _ _ => trivial
  refine drawn.andThen ?_
  intro more nonce _
  split
  · exact safe_failed (accounted.append more) ..
  · rename_i envelope _
    have published : (publish envelope).Safe (Careful crypto invocation) (fun _ _ => True)
        (past ++ more) := safe_perform trivial fun _ _ _ _ => trivial
    refine published.andThen ?_
    intro evenMore outcome _
    have kept := (accounted.append more).append evenMore
    split
    · exact safe_readBack kept ..
    · exact safe_failed kept ..

theorem safe_sealOne
    (accounted : Accounted past state)
    (report : SealReport)
    (id : String) :
    (run.sealOne crypto id state report).Safe (Careful crypto invocation)
      (fun later result => Accounted later result.1) past := by
  unfold SealRun.sealOne
  dsimp only
  split
  · exact safe_succeed accounted
  · split
    · exact safe_setSealed accounted ..
    · split
      · exact safe_failed accounted ..
      · exact safe_succeed accounted
      · exact safe_publishNew accounted ..

theorem safe_sealEach
    (accounted : Accounted past state)
    (limit : Option Nat)
    (number : Nat)
    (ids : List String)
    (report : SealReport) :
    (run.sealEach crypto limit number ids state report).Safe (Careful crypto invocation)
      (fun later result => Accounted later result.1) past := by
  induction ids generalizing past state number report with
  | nil => exact safe_succeed accounted
  | cons id ids inductionHypothesis =>
      unfold SealRun.sealEach
      split
      · exact safe_succeed accounted
      · refine (safe_sealOne accounted report id).andThen ?_
        exact fun more result kept => inductionHypothesis kept (number + 1) result.2

theorem safe_seal
    (accounted : Accounted past state)
    (pages : Nat)
    (migrator : String)
    (channels : List ChannelSpec)
    (keys : KeyRing)
    (limit : Option Nat) :
    («seal» crypto pages migrator channels keys state limit).Safe (Careful crypto invocation)
      (fun later result => Accounted later result.1) past := by
  refine (safe_scan pages channels keys).andThen ?_
  rintro more ⟨plan, scans⟩ _
  let run : SealRun := ⟨keys, migrator, scans⟩
  have recorded : Accounted (past ++ more) (run.recordNew state) :=
    (accounted.append more).mono fun _ => isPurged_of_recordNew
  have saved : Safe (Careful crypto invocation) (fun _ _ => True) (past ++ more)
      (if (run.recordNew state).entries.rows.length = state.entries.rows.length then succeed ()
        else persist (run.recordNew state)) := by
    split
    · exact safe_succeed trivial
    · exact safe_perform recorded fun _ _ _ _ => trivial
  refine saved.andThen ?_
  intro evenMore _ _
  dsimp only
  split
  · exact safe_stop _
  · refine (safe_sealEach (recorded.append evenMore) limit 0 _ _).andThen ?_
    exact fun _ _ kept => safe_succeed kept

end Sealing

end Steps

/-- A command is careful in everything it does. -/
theorem safe_program
    (crypto : Crypto)
    (invocation : Invocation) :
    (invocation.program crypto).Safe (Careful crypto invocation) Accounted [] := by
  have existing : ∀ past, loadExisting.Safe (Careful crypto invocation) Loaded past := by
    intro past
    apply safe_perform trivial
    intro choice answer state isState
    cases answer with
    | none => cases isState
    | some loaded =>
        obtain rfl := Except.ok.inj isState
        exact ⟨choice, List.mem_append_right _ (List.mem_singleton_self _)⟩
  have accounted : ∀ past state, Loaded past state → Accounted past state :=
    fun past state isLoaded id purged => .inl ⟨state, isLoaded, purged⟩
  unfold Invocation.program
  split
  · rename_i channels limit _
    have loaded : loadOrNew.Safe (Careful crypto invocation) Accounted [] := by
      apply safe_perform trivial
      intro choice answer state isState
      cases answer with
      | none =>
          obtain rfl := Except.ok.inj isState
          rintro id ⟨entry, isEntry, -⟩
          cases isEntry
      | some loaded =>
          obtain rfl := Except.ok.inj isState
          exact accounted _ _ ⟨choice, List.mem_append_right _ (List.mem_singleton_self _)⟩
    refine loaded.andThen ?_
    intro more state kept
    exact (safe_seal kept ..).andThen fun _ _ kept => safe_succeed kept
  · refine (existing []).andThen ?_
    intro more state isLoaded
    refine (safe_verify (accounted _ _ isLoaded)).andThen ?_
    exact fun _ _ kept => safe_succeed kept
  · rename_i yes _
    refine (existing []).andThen ?_
    intro more state isLoaded
    refine (safe_purge isLoaded yes).andThen ?_
    exact fun _ _ purging => safe_succeed purging.accounted

/-! ## Runs -/

section Runs

variable {crypto : Crypto} {file : Option State} {commands : Commands} {id : String}

/-- An entry was purged from the first, or some command asked for the deletion. -/
def Explained (file : Option State) (commands : Commands) (id : String) : Prop :=
  (∃ old, file = some old ∧ old.IsPurged id) ∨
    ∃ invocation event, commands.Happened invocation event ∧
      ∃ ids reason, event.op = .deleteEvents ids reason ∧ id ∈ ids

/-- Every purged entry of the file, and of a state that a command was started from,
is explained. -/
structure AllExplained (file : Option State) (commands : Commands) : Prop where
  saved : ∀ state, commands.state = some state → ∀ id, state.IsPurged id →
    Explained file commands id
  started : ∀ task ∈ commands.tasks, ∀ state, Loaded task.past state → ∀ id, state.IsPurged id →
    Explained file commands id

theorem explained_of_asked
    {task : Lib.Task Invocation Op Choice Op.Answer (Except EngineError State)}
    (member : task ∈ commands.tasks)
    (asked : DeletionAsked task.past id) :
    Explained file commands id := by
  obtain ⟨event, performed, ids, reason, isDeletion, isId⟩ := asked
  exact .inr ⟨task.request, event, ⟨task, member, rfl, performed⟩, ids, reason, isDeletion, isId⟩

/-- A state is loaded that was loaded before, or that is the file. -/
theorem loaded_of_performed
    {past : Past}
    {choice : Choice}
    {op : Op}
    {state : State}
    (loaded : Loaded (past ++ [⟨op, choice, (answer file choice op).2⟩]) state) :
    Loaded past state ∨ file = some state := by
  obtain ⟨chosen, performed⟩ := loaded
  rcases List.mem_append.mp performed with before | now
  · exact .inl ⟨chosen, before⟩
  · right
    have same := List.mem_singleton.mp now
    cases op <;> cases same
    rfl

theorem allExplained_run
    (crypto : Crypto)
    (file : Option State)
    (moves : List (Lib.Move Invocation Choice)) :
    AllExplained file (runCommands crypto file moves) := by
  apply Lib.Pool.invariant_run fun invocation => (safe_program crypto invocation).follows
  case initially =>
    constructor
    · exact fun state isFile id purged => .inl ⟨state, isFile, purged⟩
    · rintro task ⟨⟩
  case started =>
    intro commands invocation explained
    have grows : ∀ id, Explained file commands id → Explained file
        ⟨commands.state, commands.tasks ++ [Lib.Pool.fresh (Invocation.program crypto)
          invocation]⟩ id := by
      rintro id (before | ⟨request, event, happened, isDeletion⟩)
      · exact .inl before
      · exact .inr ⟨request, event, happened.started _, isDeletion⟩
    constructor
    · exact fun state isFile id purged => grows id (explained.saved state isFile id purged)
    · intro task member state loaded id purged
      rcases List.mem_append.mp member with isOld | isNew
      · exact grows id (explained.started task isOld state loaded id purged)
      · rw [List.mem_singleton.mp isNew] at loaded
        obtain ⟨choice, performed⟩ := loaded
        cases performed
  case performed =>
    intro commands index choice task op next explained found isRest careful
    have member := List.mem_of_getElem? found
    have grows : ∀ (id : String) (after : Option State), Explained file commands id →
        Explained file ⟨after, commands.tasks.set index ⟨task.request,
          task.past ++ [⟨op, choice, (answer commands.state choice op).2⟩],
          next (answer commands.state choice op).2⟩⟩ id := by
      rintro id after (before | ⟨request, event, happened, isDeletion⟩)
      · exact .inl before
      · exact .inr ⟨request, event, happened.performed found after _ _, isDeletion⟩
    constructor
    · intro state isFile id purged
      apply grows
      cases op with
      | persist later =>
          simp only [answer] at isFile
          split at isFile
          · obtain rfl := Option.some.inj isFile
            rcases careful id purged with ⟨loaded, isLoaded, before⟩ | asked
            · exact explained.started task member loaded isLoaded id before
            · exact explained_of_asked member asked
          · exact explained.saved state isFile id purged
      | _ => exact explained.saved state isFile id purged
    · intro other isOther state loaded id purged
      apply grows
      rcases List.mem_or_eq_of_mem_set isOther with isOld | isNew
      · exact explained.started other isOld state loaded id purged
      · subst isNew
        rcases loaded_of_performed loaded with before | isFile
        · exact explained.started task member state before id purged
        · exact explained.saved state isFile id purged

/-- Every original whose deletion is asked for has a copy that was just checked, and
every entry that becomes purged was verified and its copy just checked. -/
theorem copies_checked
    (crypto : Crypto)
    (file : Option State)
    (moves : List (Lib.Move Invocation Choice)) :
    (∀ task ∈ (runCommands crypto file moves).tasks, ∀ before event after ids reason,
      task.past = before ++ event :: after → event.op = .deleteEvents ids reason →
        ∀ id ∈ ids, CopyChecked crypto task.request.keys before id) ∧
      ∀ state id, (runCommands crypto file moves).state = some state → state.IsPurged id →
        (∃ old, file = some old ∧ old.IsPurged id) ∨
          ∃ task ∈ (runCommands crypto file moves).tasks, ∃ before event after ids reason,
            task.past = before ++ event :: after ∧ event.op = .deleteEvents ids reason ∧
              id ∈ ids ∧ CopyChecked crypto task.request.keys before id := by
  have careful : (runCommands crypto file moves).PastAllowed (Careful crypto) :=
    Lib.Pool.pastAllowed_run (fun invocation => (safe_program crypto invocation).follows) file moves
  have checked : ∀ task ∈ (runCommands crypto file moves).tasks, ∀ before event after ids reason,
      task.past = before ++ event :: after → event.op = .deleteEvents ids reason →
        ∀ id ∈ ids, CopyChecked crypto task.request.keys before id := by
    intro task member before event after ids reason isPast isDeletion
    have allowed := careful task member before event after isPast
    rw [isDeletion] at allowed
    exact allowed
  refine ⟨checked, ?_⟩
  intro state id isFile purged
  rcases (allExplained_run crypto file moves).saved state isFile id purged with
    before | ⟨_, event, ⟨task, member, rfl, performed⟩, ids, reason, isDeletion, isId⟩
  · exact .inl before
  · right
    obtain ⟨before, after, isPast⟩ := List.append_of_mem performed
    exact ⟨task, member, before, event, after, ids, reason, isPast, isDeletion, isId,
      checked task member before event after ids reason isPast isDeletion id isId⟩

end Runs

end ZoneMigrate
end NostrBbs
