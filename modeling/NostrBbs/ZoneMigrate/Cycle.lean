import NostrBbs.ZoneMigrate.OnlyCopy

/-!
# What seal records and verify accepts

A seal run that completes, and a verify run with the same keys on a relay that
keeps its events.  An adopted envelope was opened with the key of its own `zk`
tag, and verify opens it with the key of the entry's zone.
-/

namespace NostrBbs
namespace ZoneMigrate

open Relay (NostrEvent)
open Fallible

/-! ## A relay that keeps its events -/

/-- The request for some ids. -/
def idsFilter (ids : List String) : Filter :=
  { Filter.any with ids := some ids, limit := some ids.length }

/-- A relay and a file system that work: what a query returns is held, a query for
ids returns what is held of them, events that are held stay, and the file can be
saved. -/
structure KeepingRelay where
  Host : Type
  answer : Host → (op : Op) → Host × op.Answer
  held : Host → String → Option NostrEvent
  hasId : ∀ host id event, held host id = some event → event.id = id
  sameAfterQuery : ∀ host filter, held (answer host (.query filter)).1 = held host
  heldOfQuery : ∀ host filter events, (answer host (.query filter)).2 = .ok events →
    ∀ event ∈ events, held host event.id = some event
  returnsHeld : ∀ host ids, ∃ events, (answer host (.query (idsFilter ids))).2 = .ok events ∧
    ∀ id ∈ ids, ∀ event, held host id = some event → event ∈ events
  stays : ∀ host op id event, (∀ ids reason, op ≠ .deleteEvents ids reason) →
    held host id = some event → held (answer host op).1 id = some event
  saves : ∀ host state, (answer host (.persist state)).2 = .ok ()

/-- What a program that stops with no error has run through. -/
theorem exists_of_run_andThen
    {Host Value Result : Type}
    {answer : Host → (op : Op) → Host × op.Answer}
    {program : Fallible Value}
    {continuation : Value → Fallible Result}
    {before after : Host}
    {result : Result}
    (ends : (program.andThen continuation).run answer before = (after, .ok result)) :
    ∃ between value, program.run answer before = (between, .ok value) ∧
      (continuation value).run answer between = (after, .ok result) := by
  have bound := (Lib.Program.run_bind program _ before).symm.trans ends
  cases ran : program.run answer before with
  | mk between outcome =>
      rw [ran] at bound
      cases outcome with
      | error error => cases bound
      | ok value => exact ⟨between, value, rfl, bound⟩

namespace KeepingRelay

variable (relay : KeepingRelay)

/-- What one host holds another holds. -/
def Keeps (before after : relay.Host) : Prop :=
  ∀ id event, relay.held before id = some event → relay.held after id = some event

variable {relay} {before between after host : relay.Host} {crypto : Crypto} {keys : KeyRing}
  {state : State} {id : String}

theorem Keeps.trans
    (first : relay.Keeps before between)
    (second : relay.Keeps between after) :
    relay.Keeps before after :=
  fun id event isHeld => second id event (first id event isHeld)

theorem keeps_of_held_eq
    (same : relay.held after = relay.held before) :
    relay.Keeps before after := by
  intro id event isHeld
  rw [same]
  exact isHeld

/-! ### Fetching -/

/-- What was found is held, and everything of some ids that is held was found. -/
structure Found (host : relay.Host) (ids : List String) (found : EventMap) : Prop where
  isHeld : ∀ entry ∈ found, relay.held host entry.1 = some entry.2
  complete : ∀ id ∈ ids, ∀ event, relay.held host id = some event → (id, event) ∈ found

theorem Found.get
    {ids : List String}
    {found : EventMap}
    (isFound : relay.Found host ids found)
    (asked : id ∈ ids) :
    found.get id = relay.held host id := by
  unfold EventMap.get
  cases isEntry : found.find? fun entry => entry.1 == id with
  | none =>
      rw [List.find?_eq_none] at isEntry
      cases isHeld : relay.held host id with
      | none => rfl
      | some event =>
          have member := isFound.complete id asked event isHeld
          exact absurd (beq_self_eq_true id) (isEntry _ member)
  | some entry =>
      have member := isFound.isHeld entry (List.mem_of_find?_eq_some isEntry)
      have sameId := List.find?_some isEntry
      rw [beq_iff_eq] at sameId
      rw [← sameId, member]
      rfl

theorem run_fetchChunks
    {ids : List String}
    {found : EventMap}
    (isFound : relay.Found host ids found)
    (chunks : List (List String)) :
    ∃ later last, (fetchChunks chunks found).run relay.answer host = (later, .ok last) ∧
      relay.held later = relay.held host ∧ relay.Found host (ids ++ chunks.flatten) last := by
  induction chunks generalizing host ids found with
  | nil =>
      refine ⟨host, found, rfl, rfl, ?_⟩
      rw [List.flatten_nil, List.append_nil]
      exact isFound
  | cons chunk chunks inductionHypothesis =>
      obtain ⟨events, answered, returns⟩ := relay.returnsHeld host chunk
      have heldAll := relay.heldOfQuery host _ events answered
      have same := relay.sameAfterQuery host (idsFilter chunk)
      have queried : (query (idsFilter chunk)).run relay.answer host =
          ((relay.answer host (.query (idsFilter chunk))).1, .ok events) := by
        have ran : (query (idsFilter chunk)).run relay.answer host =
            ((relay.answer host (.query (idsFilter chunk))).1,
              (relay.answer host (.query (idsFilter chunk))).2.mapError .relay) := rfl
        rw [ran, answered]
        rfl
      have kept : relay.Found (relay.answer host (.query (idsFilter chunk))).1 (ids ++ chunk)
          (keepAsked chunk found events) := by
        constructor
        case isHeld =>
          intro entry member
          rw [same]
          rcases mem_keepAsked.mp member with earlier | ⟨sameId, returned, -⟩
          · exact isFound.isHeld entry earlier
          · rw [sameId]
            exact heldAll entry.2 returned
        case complete =>
          intro id asked event isHeld
          rw [same] at isHeld
          apply mem_keepAsked.mpr
          rcases List.mem_append.mp asked with earlier | now
          · exact .inl (isFound.complete id earlier event isHeld)
          · exact .inr ⟨(relay.hasId host id event isHeld).symm, returns id now event isHeld, now⟩
      obtain ⟨later, last, ran, sameLater, lastFound⟩ := inductionHypothesis kept
      refine ⟨later, last, (run_andThen queried).trans ran, sameLater.trans same, ?_⟩
      rw [List.flatten_cons, ← List.append_assoc]
      exact
        { isHeld := fun entry member => (congrFun same entry.1).symm.trans
            (lastFound.isHeld entry member)
          complete := fun id asked event isHeld => lastFound.complete id asked event
            ((congrFun same id).trans isHeld) }

/-- Fetching by id finds what is held. -/
theorem run_fetchByIds
    (host : relay.Host)
    (ids : List String) :
    ∃ later found, (fetchByIds ids).run relay.answer host = (later, .ok found) ∧
      relay.held later = relay.held host ∧ ∀ id ∈ ids, found.get id = relay.held host id := by
  have nothing : relay.Found host [] [] := ⟨by simp, by simp⟩
  obtain ⟨later, found, ran, same, isFound⟩ :=
    run_fetchChunks nothing (Lib.chunks maxIdsPerReq ids)
  refine ⟨later, found, ran, same, ?_⟩
  intro id asked
  have positive : 0 < maxIdsPerReq := by decide
  obtain ⟨chunk, isChunk, inChunk⟩ := Lib.mem_chunk_of_mem positive asked
  exact isFound.get (List.mem_append_right _ (List.mem_flatten.mpr ⟨chunk, isChunk, inChunk⟩))

end KeepingRelay

/-! ## Checking -/

section Checking

variable {crypto : Crypto} {keys : KeyRing} {fetched other : String → Option NostrEvent}
  {state : State} {id : String} {entry : Entry}

/-- The status that a check sets. -/
def statusOf (verdict : Except String Unit) : Status :=
  match verdict with
  | .ok () => .verified
  | .error reason => .failed .verify reason

theorem statusOf_eq_verified_iff
    {verdict : Except String Unit} :
    statusOf verdict = .verified ↔ verdict = .ok () := by
  cases verdict <;> simp [statusOf]

/-- A check reads no more than the recorded envelope. -/
theorem verdict_congr
    (same : ∀ outerId, entry.outerId = some outerId → fetched outerId = other outerId) :
    crypto.verdict keys fetched id entry = crypto.verdict keys other id entry := by
  unfold Crypto.verdict
  split
  · rename_i outerId epoch digest isOuter isEpoch isDigest
    rw [same outerId isOuter]
  · rfl

theorem checkEntry_of_entry
    (isEntry : state.entry id = some entry)
    (failures : Failures) :
    (crypto.checkEntry keys fetched (state, failures) id).1 =
      state.modify id (Entry.setStatus (statusOf (crypto.verdict keys fetched id entry))) := by
  unfold Crypto.checkEntry
  dsimp only
  rw [isEntry]
  dsimp only
  cases crypto.verdict keys fetched id entry <;> rfl

theorem entry_checkEntry_ne
    {unrelated : String}
    (different : unrelated ≠ id)
    (checked : State × Failures) :
    (crypto.checkEntry keys fetched checked id).1.entry unrelated = checked.1.entry unrelated := by
  cases isEntry : checked.1.entry id with
  | none =>
      unfold Crypto.checkEntry
      rw [isEntry]
  | some entry =>
      rw [checkEntry_of_entry isEntry, State.entry_modify_ne different]

/-- Entries that are not checked stay. -/
theorem entry_checked_of_not_mem
    {ids : List String}
    (notChecked : id ∉ ids)
    (checked : State × Failures) :
    (ids.foldl (crypto.checkEntry keys fetched) checked).1.entry id = checked.1.entry id := by
  induction ids generalizing checked with
  | nil => rfl
  | cons first ids inductionHypothesis =>
      rw [List.mem_cons, not_or] at notChecked
      rw [List.foldl_cons, inductionHypothesis notChecked.2, entry_checkEntry_ne notChecked.1]

/-- Entries that are checked have the status of their check. -/
theorem entry_checked
    {ids : List String}
    (distinct : ids.Nodup)
    (isChecked : id ∈ ids)
    (checked : State × Failures)
    (isEntry : checked.1.entry id = some entry) :
    (ids.foldl (crypto.checkEntry keys fetched) checked).1.entry id =
      some (entry.setStatus (statusOf (crypto.verdict keys fetched id entry))) := by
  induction ids generalizing checked with
  | nil => cases isChecked
  | cons first ids inductionHypothesis =>
      rw [List.nodup_cons] at distinct
      rw [List.foldl_cons]
      by_cases same : id = first
      · subst same
        rw [entry_checked_of_not_mem distinct.1, checkEntry_of_entry isEntry,
          State.entry_modify_self, isEntry, Option.map_some]
      · apply inductionHypothesis distinct.2 ((List.mem_cons.mp isChecked).resolve_left same)
        rw [entry_checkEntry_ne same]
        exact isEntry

end Checking

namespace KeepingRelay

variable {relay : KeepingRelay} {before between after host : relay.Host} {crypto : Crypto}
  {keys : KeyRing} {state last : State} {id : String}

/-- A verify run completes and marks verified every entry that is sealed. -/
def Accepts (relay : KeepingRelay) (crypto : Crypto) (keys : KeyRing) (last : State)
    (host : relay.Host) : Prop :=
  ∃ after later report,
    (verify crypto keys last).run relay.answer host = (after, .ok (later, report)) ∧
      ∀ id entry, last.entry id = some entry → entry.status = .sealed →
        ∃ marked, later.entry id = some marked ∧ marked.status = .verified

theorem run_persist
    (host : relay.Host)
    (state : State) :
    (persist state).run relay.answer host = ((relay.answer host (.persist state)).1, .ok ()) := by
  have ran : (persist state).run relay.answer host = ((relay.answer host (.persist state)).1,
      (relay.answer host (.persist state)).2.mapError .state) := rfl
  rw [ran, relay.saves]
  rfl

/-- A check of entries whose keys are held ends with each entry marked by what is
held of its envelope. -/
theorem run_verify
    (crypto : Crypto)
    (held : missingKeys keys last (last.idsWhere Entry.isTarget) = [])
    (host : relay.Host) :
    ∃ after later report,
      (verify crypto keys last).run relay.answer host = (after, .ok (later, report)) ∧
        ∀ id entry, last.entry id = some entry →
          later.entry id = some (if entry.isTarget then
            entry.setStatus (statusOf (crypto.verdict keys (relay.held host) id entry))
              else entry) := by
  obtain ⟨fetchedAt, found, fetches, -, isFound⟩ := run_fetchByIds host
    ((last.idsWhere Entry.isTarget).filterMap fun id => (last.entry id).bind Entry.outerId)
  have checks : (checkEntries crypto keys last (last.idsWhere Entry.isTarget) []).run relay.answer
      host = (fetchedAt, .ok ((last.idsWhere Entry.isTarget).foldl
        (crypto.checkEntry keys found.get) (last, []))) := by
    unfold checkEntries
    dsimp only
    rw [held, if_neg (not_not.mpr rfl)]
    exact run_andThen fetches
  refine ⟨_, _, _, (run_andThen checks).trans (run_andThen (run_persist _ _)), ?_⟩
  intro id entry isEntry
  by_cases isTarget : entry.isTarget
  · rw [if_pos isTarget]
    have asked : id ∈ last.idsWhere Entry.isTarget := State.mem_idsWhere.mpr ⟨entry, isEntry, isTarget⟩
    have marked : ((last.idsWhere Entry.isTarget).foldl (crypto.checkEntry keys found.get)
        (last, [])).1.entry id =
          some (entry.setStatus (statusOf (crypto.verdict keys found.get id entry))) :=
      entry_checked (State.nodup_idsWhere ..) asked (last, []) isEntry
    rw [marked]
    have same : crypto.verdict keys found.get id entry =
        crypto.verdict keys (relay.held host) id entry := by
      apply verdict_congr
      intro outerId isOuter
      apply isFound
      exact List.mem_filterMap.mpr ⟨id, asked, by rw [isEntry, Option.bind_some, isOuter]⟩
    rw [same]
  · rw [if_neg isTarget]
    refine (entry_checked_of_not_mem ?_ _).trans isEntry
    intro asked
    obtain ⟨other, isOther, otherTarget⟩ := State.mem_idsWhere.mp asked
    rw [isEntry] at isOther
    exact isTarget (Option.some.inj isOther ▸ otherTarget)

/-- Verify accepts exactly when the keys of all its targets are held and what is
held of each sealed entry's envelope passes the check. -/
theorem accepts_iff_verdicts :
    relay.Accepts crypto keys last host ↔
      missingKeys keys last (last.idsWhere Entry.isTarget) = [] ∧
        ∀ id entry, last.entry id = some entry → entry.status = .sealed →
          crypto.verdict keys (relay.held host) id entry = .ok () := by
  by_cases held : missingKeys keys last (last.idsWhere Entry.isTarget) = []
  · obtain ⟨after, later, report, runs, marks⟩ := run_verify crypto held host
    have passes : ∀ id entry, last.entry id = some entry → entry.status = .sealed →
        ((∃ marked, later.entry id = some marked ∧ marked.status = .verified) ↔
          crypto.verdict keys (relay.held host) id entry = .ok ()) := by
      intro id entry isEntry isSealed
      rw [marks id entry isEntry]
      by_cases isTarget : entry.isTarget
      · rw [if_pos isTarget, ← statusOf_eq_verified_iff]
        simp [Entry.setStatus]
      · rw [if_neg isTarget]
        have noOuter : entry.outerId = none := by
          simpa [Entry.isTarget, isSealed] using isTarget
        simp [Crypto.verdict, noOuter, isSealed]
    constructor
    · rintro ⟨afterwards, other, otherReport, otherRuns, accepted⟩
      have same := runs.symm.trans otherRuns
      cases same
      exact ⟨held, fun id entry isEntry isSealed =>
        (passes id entry isEntry isSealed).mp (accepted id entry isEntry isSealed)⟩
    · rintro ⟨-, all⟩
      exact ⟨after, later, report, runs, fun id entry isEntry isSealed =>
        (passes id entry isEntry isSealed).mpr (all id entry isEntry isSealed)⟩
  · refine iff_of_false ?_ fun both => held both.1
    rintro ⟨after, later, report, runs, -⟩
    obtain ⟨between, checked, checks, -⟩ := exists_of_run_andThen runs
    unfold checkEntries at checks
    dsimp only at checks
    rw [if_pos held] at checks
    cases checks

/-! ## Sealing -/

/-- What sealing made of an entry: its envelope was adopted, or a new one was
published and passes the check, or it failed. -/
def Processed (relay : KeepingRelay) (crypto : Crypto) (run : SealRun) (host : relay.Host)
    (id : String) (entry later : Entry) : Prop :=
  (∃ outerId epoch digest, crypto.adopt (run.existing id) id entry.channel (run.original id)
      run.keys = some (outerId, epoch, digest) ∧ later = entry.setSealed epoch outerId digest) ∨
    (crypto.adopt (run.existing id) id entry.channel (run.original id) run.keys = none ∧
      ∃ key outerId digest, run.keys.current entry.zone = some key ∧
        later = entry.setSealed key.epoch outerId digest ∧
          crypto.verdict run.keys (relay.held host) id later = .ok ()) ∨
    (crypto.adopt (run.existing id) id entry.channel (run.original id) run.keys = none ∧
      ∃ reason, later.status = .failed .seal reason)

/-- A check that passes still passes when more is held. -/
theorem verdict_of_keeps
    (keeps : relay.Keeps before after)
    {entry : Entry}
    (passes : crypto.verdict keys (relay.held before) id entry = .ok ()) :
    crypto.verdict keys (relay.held after) id entry = .ok () := by
  obtain ⟨outerId, outer, isOuter, isHeld, -⟩ := opens_of_verdict passes
  rw [← passes]
  apply verdict_congr
  intro other isOther
  rw [isOuter] at isOther
  obtain rfl := Option.some.inj isOther
  rw [isHeld, keeps outerId outer isHeld]

theorem Processed.keeps
    {run : SealRun}
    {entry later : Entry}
    (processed : relay.Processed crypto run before id entry later)
    (keeps : relay.Keeps before after) :
    relay.Processed crypto run after id entry later := by
  rcases processed with adopted | ⟨notAdopted, key, outerId, digest, isKey, rfl, passes⟩ | failed
  · exact .inl adopted
  · exact .inr (.inl ⟨notAdopted, key, outerId, digest, isKey, rfl, verdict_of_keeps keeps passes⟩)
  · exact .inr (.inr failed)

/-- The state after one entry changed. -/
structure Changed (relay : KeepingRelay) (before after : relay.Host) (state last : State)
    (id : String) (change : Entry → Entry) : Prop where
  isLast : last = state.modify id change
  keeps : relay.Keeps before after

section Sealing

variable {run : SealRun} {entry : Entry} {report lastReport : SealReport}

theorem keeps_persist
    (host : relay.Host)
    (state : State) :
    relay.Keeps host (relay.answer host (.persist state)).1 :=
  fun id event => relay.stays host _ id event fun _ _ isDeletion => by cases isDeletion

/-- A changed entry that is saved. -/
theorem changed_of_persist
    {change : Entry → Entry}
    {laterReport : SealReport}
    (runs : (andThen (persist (state.modify id change)) fun _ =>
      succeed (state.modify id change, laterReport)).run relay.answer before =
        (after, .ok (last, lastReport))) :
    relay.Changed before after state last id change := by
  rw [run_andThen (run_persist before (state.modify id change))] at runs
  cases runs
  exact ⟨rfl, keeps_persist before _⟩

theorem changed_of_failed
    {reason : String}
    {envelope : Option (Nat × String)}
    (runs : (SealRun.failed state report id reason envelope).run relay.answer before =
      (after, .ok (last, lastReport))) :
    relay.Changed before after state last id (Entry.fail .seal reason envelope) :=
  changed_of_persist runs

theorem status_fail
    (step : Step)
    (reason : String)
    (envelope : Option (Nat × String))
    (entry : Entry) :
    (entry.fail step reason envelope).status = .failed step reason := by
  cases envelope <;> rfl

theorem Changed.after_keeps
    {change : Entry → Entry}
    (changed : relay.Changed between after state last id change)
    (keeps : relay.Keeps before between) :
    relay.Changed before after state last id change :=
  ⟨changed.isLast, keeps.trans changed.keeps⟩

/-- An envelope that was read back passes the check that verify makes. -/
theorem processed_of_readBack
    (notAdopted : crypto.adopt (run.existing id) id entry.channel (run.original id) run.keys = none)
    {key : ZoneKey}
    (isKey : run.keys.current entry.zone = some key)
    {original envelope : NostrEvent}
    (runs : (SealRun.readBack crypto key id entry.channel original envelope state report).run
      relay.answer before = (after, .ok (last, lastReport))) :
    ∃ change, relay.Changed before after state last id change ∧
      relay.Processed crypto run after id entry (change entry) := by
  obtain ⟨fetchedAt, found, fetches, same, isFound⟩ := run_fetchByIds before [envelope.id]
  have keeps : relay.Keeps before fetchedAt := keeps_of_held_eq same
  have isHeld := isFound envelope.id (List.mem_singleton_self _)
  unfold SealRun.readBack at runs
  rw [run_andThen fetches] at runs
  dsimp only at runs
  split at runs
  · rename_i checked
    have changed := changed_of_persist runs
    refine ⟨_, changed.after_keeps keeps, .inr (.inl ⟨notAdopted, key, _, _, isKey, rfl, ?_⟩)⟩
    refine verdict_of_keeps (keeps.trans changed.keeps) ?_
    rw [isHeld] at checked
    unfold Crypto.verdict Entry.setSealed
    dsimp only
    cases outer : relay.held before envelope.id with
    | none =>
        rw [outer] at checked
        cases checked
    | some event =>
        rw [outer] at checked
        rw [KeyRing.get_of_current isKey]
        dsimp only at checked ⊢
        cases opened : crypto.openAndCheck event id entry.channel key.secret with
        | error why =>
            rw [opened] at checked
            cases checked
        | ok inner =>
            rw [opened] at checked
            dsimp only at checked ⊢
            split at checked
            · rename_i sameInner
              rw [sameInner, if_pos rfl]
            · cases checked
  · have changed := changed_of_failed runs
    refine ⟨_, changed.after_keeps keeps, .inr (.inr ⟨notAdopted, _, status_fail ..⟩)⟩

/-- One original of the work, whose zone has a key. -/
theorem processed_of_sealOne
    (isEntry : state.entry id = some entry)
    (hasKey : (run.keys.current entry.zone).isSome)
    (runs : (run.sealOne crypto id state report).run relay.answer before =
      (after, .ok (last, lastReport))) :
    ∃ change, relay.Changed before after state last id change ∧
      relay.Processed crypto run after id entry (change entry) := by
  unfold SealRun.sealOne at runs
  rw [isEntry] at runs
  dsimp only at runs
  split at runs
  · rename_i outerId epoch digest adopted
    exact ⟨_, changed_of_persist runs, .inl ⟨outerId, epoch, digest, adopted, rfl⟩⟩
  · rename_i notAdopted
    split at runs
    · exact ⟨_, changed_of_failed runs, .inr (.inr ⟨notAdopted, _, status_fail ..⟩)⟩
    · rename_i noKey
      rw [noKey] at hasKey
      cases hasKey
    · rename_i original key isOriginal isKey
      unfold SealRun.publishNew at runs
      obtain ⟨drawnAt, nonce, draws, runs⟩ := exists_of_run_andThen runs
      have drawn : relay.Keeps before drawnAt := by
        cases draws
        exact fun id event => relay.stays before .nonce id event fun _ _ isDeletion => by
          cases isDeletion
      split at runs
      · have changed := changed_of_failed runs
        exact ⟨_, changed.after_keeps drawn, .inr (.inr ⟨notAdopted, _, status_fail ..⟩)⟩
      · rename_i envelope _
        obtain ⟨publishedAt, outcome, publishes, runs⟩ := exists_of_run_andThen runs
        have published : relay.Keeps drawnAt publishedAt := by
          have sameHost : (relay.answer drawnAt (.publish envelope)).1 = publishedAt :=
            congrArg Prod.fst publishes
          rw [← sameHost]
          exact fun id event => relay.stays drawnAt _ id event fun _ _ isDeletion => by
            cases isDeletion
        have keeps := drawn.trans published
        split at runs
        · obtain ⟨change, changed, processed⟩ := processed_of_readBack notAdopted isKey runs
          exact ⟨change, changed.after_keeps keeps, processed⟩
        · have changed := changed_of_failed runs
          exact ⟨_, changed.after_keeps keeps, .inr (.inr ⟨notAdopted, _, status_fail ..⟩)⟩

/-- The originals that a run works on, from some number on. -/
def workedFrom (limit : Option Nat) (number : Nat) (ids : List String) : List String :=
  ids.take (limit.elim ids.length fun most => most - number)

/-- What a run leaves of every entry. -/
theorem processed_of_sealEach
    {limit : Option Nat}
    {number : Nat}
    {ids : List String}
    (distinct : ids.Nodup)
    (hasKeys : ∀ id ∈ ids, ∃ entry, state.entry id = some entry ∧
      (run.keys.current entry.zone).isSome)
    (runs : (run.sealEach crypto limit number ids state report).run relay.answer before =
      (after, .ok (last, lastReport))) :
    relay.Keeps before after ∧
      (∀ id, id ∉ workedFrom limit number ids → last.entry id = state.entry id) ∧
      ∀ id ∈ workedFrom limit number ids, ∀ entry, state.entry id = some entry →
        ∃ later, last.entry id = some later ∧ relay.Processed crypto run after id entry later := by
  induction ids generalizing before state report number with
  | nil =>
      cases runs
      refine ⟨fun _ _ isHeld => isHeld, fun _ _ => rfl, ?_⟩
      intro id worked
      simp [workedFrom] at worked
  | cons first ids inductionHypothesis =>
      unfold SealRun.sealEach at runs
      split at runs
      · rename_i limited
        cases runs
        have nothing : workedFrom limit number (first :: ids) = [] := by
          cases limit with
          | none => cases limited
          | some most =>
              have done : most - number = 0 := Nat.sub_eq_zero_of_le (by simpa using limited)
              simp [workedFrom, done]
        rw [nothing]
        exact ⟨fun _ _ isHeld => isHeld, fun _ _ => rfl, by simp⟩
      · rename_i goesOn
        obtain ⟨between, ⟨middle, middleReport⟩, sealed, runs⟩ := exists_of_run_andThen runs
        rw [List.nodup_cons] at distinct
        obtain ⟨entry, isEntry, hasKey⟩ := hasKeys first (List.mem_cons_self ..)
        obtain ⟨change, changed, processed⟩ := processed_of_sealOne isEntry hasKey sealed
        have others : ∀ id, id ≠ first → middle.entry id = state.entry id := by
          intro id different
          rw [changed.isLast, State.entry_modify_ne different]
        have laterKeys : ∀ id ∈ ids, ∃ entry, middle.entry id = some entry ∧
            (run.keys.current entry.zone).isSome := by
          intro id member
          rw [others id fun same => distinct.1 (same ▸ member)]
          exact hasKeys id (List.mem_cons_of_mem _ member)
        obtain ⟨keeps, unworked, worked⟩ := inductionHypothesis distinct.2 laterKeys runs
        have isFirst : workedFrom limit number (first :: ids) =
            first :: workedFrom limit (number + 1) ids := by
          cases limit with
          | none => simp [workedFrom]
          | some most =>
              have more : most - number = most - (number + 1) + 1 := by
                have below : ¬most ≤ number := by simpa using goesOn
                omega
              simp [workedFrom, more]
        have notLater : first ∉ workedFrom limit (number + 1) ids :=
          fun member => distinct.1 (List.mem_of_mem_take member)
        rw [isFirst]
        refine ⟨changed.keeps.trans keeps, ?_, ?_⟩
        · intro id notWorked
          rw [List.mem_cons, not_or] at notWorked
          rw [unworked id notWorked.2, others id notWorked.1]
        · intro id member other isOther
          by_cases same : id = first
          · subst same
            rw [isEntry] at isOther
            obtain rfl := Option.some.inj isOther
            refine ⟨change entry, ?_, processed.keeps keeps⟩
            rw [unworked id notLater, changed.isLast, State.entry_modify_self, isEntry,
              Option.map_some]
          · apply worked id ((List.mem_cons.mp member).resolve_left same)
            rwa [others id same]

end Sealing

/-! ## Scanning -/

/-- Paging leaves what is held, and returns events that are held. -/
theorem held_of_fetchPages
    {base : Filter}
    {pages : Nat}
    {fetched out : Fetched}
    {cursor : Option Nat}
    (foundHeld : ∀ event ∈ fetched.events, relay.held before event.id = some event)
    (runs : (fetchPages base pages fetched cursor).run relay.answer before = (after, .ok out)) :
    relay.held after = relay.held before ∧
      ∀ event ∈ out.events, relay.held before event.id = some event := by
  induction pages generalizing before fetched cursor with
  | zero => cases runs
  | succ pages inductionHypothesis =>
      rw [fetchPages] at runs
      obtain ⟨between, page, queries, runs⟩ := exists_of_run_andThen runs
      let filter : Filter := { base with limit := some maxReqLimit, «until» := cursor }
      have sameHost : (relay.answer before (.query filter)).1 = between :=
        congrArg Prod.fst queries
      have answered : (relay.answer before (.query filter)).2 = .ok page := by
        have mapped : (relay.answer before (.query filter)).2.mapError EngineError.relay =
            .ok page := congrArg Prod.snd queries
        cases isAnswer : (relay.answer before (.query filter)).2 with
        | error error =>
            rw [isAnswer] at mapped
            cases mapped
        | ok events =>
            rw [isAnswer] at mapped
            exact congrArg Except.ok (Except.ok.inj mapped)
      have same : relay.held between = relay.held before := by
        rw [← sameHost]
        exact relay.sameAfterQuery before filter
      have takenHeld : ∀ event ∈ (fetched.addPage page).events,
          relay.held before event.id = some event := by
        intro event taken
        rcases mem_addPage taken with earlier | now
        · exact foundHeld event earlier
        · exact relay.heldOfQuery before filter page answered event now
      rcases events_of_takePage fetched page with
        ⟨ended, finishes, sameEvents⟩ | ⟨later, bound, goesOn, sameEvents⟩
      · rw [finishes] at runs
        cases runs
        exact ⟨same, sameEvents ▸ takenHeld⟩
      · rw [goesOn] at runs
        have laterHeld : ∀ event ∈ later.events, relay.held between event.id = some event := by
          rw [sameEvents, same]
          exact takenHeld
        obtain ⟨sameAfter, outHeld⟩ := inductionHypothesis laterHeld runs
        rw [same] at sameAfter outHeld
        exact ⟨sameAfter, outHeld⟩

/-- Scanning leaves what is held, and the envelopes it finds are held. -/
theorem held_of_scan
    {pages : Nat}
    {channels : List ChannelSpec}
    {plan : Plan}
    {scans : List ChannelScan}
    (runs : (scan crypto pages channels keys).run relay.answer before =
      (after, .ok (plan, scans))) :
    relay.held after = relay.held before ∧ ∀ scan ∈ scans, ∀ inner, ∀ outer ∈ scan.envelopesOf inner,
      relay.held before outer.id = some outer := by
  have each : ∀ (channels : List ChannelSpec) (before after : relay.Host)
      (found : List (ChannelScan × List (String × Nat))),
      (scanEach crypto pages keys channels).run relay.answer before = (after, .ok found) →
        relay.held after = relay.held before ∧ ∀ entry ∈ found, ∀ inner,
          ∀ outer ∈ entry.1.envelopesOf inner, relay.held before outer.id = some outer := by
    intro channels
    induction channels with
    | nil =>
        intro before after found runs
        cases runs
        exact ⟨rfl, by simp⟩
    | cons spec channels inductionHypothesis =>
        intro before after found runs
        obtain ⟨between, fetched, pages, runs⟩ := exists_of_run_andThen runs
        obtain ⟨last, rest, scansRest, runs⟩ := exists_of_run_andThen runs
        cases runs
        obtain ⟨same, isHeld⟩ := held_of_fetchPages (by simp [Fetched.empty]) pages
        obtain ⟨sameRest, restHeld⟩ := inductionHypothesis _ _ _ scansRest
        refine ⟨sameRest.trans same, ?_⟩
        intro entry member inner outer isEnvelope
        rcases List.mem_cons.mp member with rfl | later
        · exact isHeld outer (envelope_of_scanChannel isEnvelope).1
        · rw [← same]
          exact restHeld entry later inner outer isEnvelope
  obtain ⟨between, found, scansEach, runs⟩ := exists_of_run_andThen runs
  cases runs
  obtain ⟨same, isHeld⟩ := each _ _ _ _ scansEach
  refine ⟨same, ?_⟩
  intro scan isScan inner outer isEnvelope
  obtain ⟨entry, member, rfl⟩ := List.mem_map.mp isScan
  exact isHeld entry member inner outer isEnvelope

/-- The envelopes that a run may adopt come from its scans. -/
theorem scan_of_existing
    {run : SealRun}
    {outer : NostrEvent}
    (isExisting : outer ∈ run.existing id) :
    ∃ scan ∈ run.scans, outer ∈ scan.envelopesOf id := by
  unfold SealRun.existing at isExisting
  cases found : run.scans.reverse.findSome? (fun scan =>
      if (scan.envelopesOf id).isEmpty then none else some (scan.envelopesOf id)) with
  | none =>
      dsimp only at isExisting
      rw [found] at isExisting
      cases isExisting
  | some envelopes =>
      dsimp only at isExisting
      rw [found, Option.getD_some] at isExisting
      obtain ⟨scan, member, isScan⟩ := List.exists_of_findSome?_eq_some found
      split at isScan
      · cases isScan
      · obtain rfl := Option.some.inj isScan
        exact ⟨scan, List.mem_reverse.mp member, isExisting⟩

theorem sortedSet_eq_nil_iff
    {texts : List String} :
    sortedSet texts = [] ↔ texts = [] := by
  unfold sortedSet
  rw [← List.length_eq_zero_iff, List.length_insertionSort, List.length_eq_zero_iff,
    List.dedup_eq_nil]

/-! ## A run of seal -/

/-- What a run of seal that completes has done to each entry. -/
theorem processed_of_seal
    {pages : Nat}
    {migrator : String}
    {channels : List ChannelSpec}
    {limit : Option Nat}
    {scanned : relay.Host}
    {plan : Plan}
    {scans : List ChannelScan}
    {report : SealReport}
    (scanRuns : (scan crypto pages channels keys).run relay.answer before =
      (scanned, .ok (plan, scans)))
    (completes : («seal» crypto pages migrator channels keys state limit).run relay.answer before =
      (after, .ok (last, report))) :
    relay.Keeps before after ∧
      (∀ id, id ∉ workedFrom limit 0
          (SealRun.work channels (SealRun.recordNew ⟨keys, migrator, scans⟩ state)) →
        last.entry id = (SealRun.recordNew ⟨keys, migrator, scans⟩ state).entry id) ∧
      ∀ id ∈ workedFrom limit 0
          (SealRun.work channels (SealRun.recordNew ⟨keys, migrator, scans⟩ state)),
        ∀ entry, (SealRun.recordNew ⟨keys, migrator, scans⟩ state).entry id = some entry →
          ∃ later, last.entry id = some later ∧
            relay.Processed crypto ⟨keys, migrator, scans⟩ after id entry later := by
  unfold «seal» at completes
  rw [run_andThen scanRuns] at completes
  dsimp only at completes
  obtain ⟨savedAt, _, saves, completes⟩ := exists_of_run_andThen completes
  have saved : relay.Keeps scanned savedAt := by
    split at saves
    · cases saves
      exact fun _ _ isHeld => isHeld
    · rw [run_persist] at saves
      cases saves
      exact keeps_persist scanned _
  split at completes
  · cases completes
  · rename_i noneMissing
    rw [ne_eq, not_not, missingZones, sortedSet_eq_nil_iff, List.filter_eq_nil_iff] at noneMissing
    obtain ⟨sealedAt, ⟨sealed, sealedReport⟩, seals, completes⟩ := exists_of_run_andThen completes
    cases completes
    have distinct : (SealRun.work channels
        (SealRun.recordNew ⟨keys, migrator, scans⟩ state)).Nodup :=
      (List.perm_insertionSort _ _).nodup_iff.mpr (State.nodup_idsWhere ..)
    have hasKeys : ∀ id ∈ SealRun.work channels (SealRun.recordNew ⟨keys, migrator, scans⟩ state),
        ∃ entry, (SealRun.recordNew ⟨keys, migrator, scans⟩ state).entry id = some entry ∧
          (keys.current entry.zone).isSome := by
      intro id member
      have found : id ∈ (SealRun.recordNew ⟨keys, migrator, scans⟩ state).idsWhere _ :=
        (List.mem_insertionSort _).mp member
      obtain ⟨entry, isEntry, -⟩ := State.mem_idsWhere.mp found
      refine ⟨entry, isEntry, ?_⟩
      have hasZone := noneMissing entry.zone
        (List.mem_filterMap.mpr ⟨id, member, by rw [isEntry, Option.map_some]⟩)
      cases isKey : keys.current entry.zone with
      | none =>
          rw [isKey] at hasZone
          exact absurd rfl hasZone
      | some key => rfl
    obtain ⟨keeps, unworked, worked⟩ := processed_of_sealEach distinct hasKeys seals
    have sameScanned := (held_of_scan scanRuns).1
    exact ⟨((keeps_of_held_eq sameScanned).trans saved).trans keeps, unworked, worked⟩

/-! ## Agreement -/

/-- A run may adopt an envelope for an entry: the first that opens with the key of
its own zone tag and wraps the original. -/
structure Adopts (crypto : Crypto) (run : SealRun) (id : String) (entry : Entry)
    (envelope : NostrEvent) (zone : String) (epoch : Nat) (digest : String) : Prop where
  adopted : crypto.adopt (run.existing id) id entry.channel (run.original id) run.keys =
    some (envelope.id, epoch, digest)
  existing : envelope ∈ run.existing id
  tagged : zkOf envelope = some (zone, epoch)

/-- An envelope opens with a key of a zone and epoch to an original with a digest. -/
def OpensWith (crypto : Crypto) (keys : KeyRing) (zone : String) (epoch : Nat)
    (envelope : NostrEvent) (id channel digest : String) : Prop :=
  ∃ key json, keys.get zone epoch = some key ∧
    crypto.openAndCheck envelope id channel key.secret = .ok json ∧
      crypto.sha256Hex json = digest

/-- An adopted envelope comes with its tag and opened with the key of that. -/
theorem adopts_of_adopt
    {run : SealRun}
    {entry : Entry}
    {outerId digest : String}
    {epoch : Nat}
    (adopted : crypto.adopt (run.existing id) id entry.channel (run.original id) run.keys =
      some (outerId, epoch, digest)) :
    ∃ envelope zone, envelope.id = outerId ∧
      Adopts crypto run id entry envelope zone epoch digest ∧
        OpensWith crypto run.keys zone epoch envelope id entry.channel digest := by
  obtain ⟨envelope, existing, opens⟩ := List.exists_of_findSome?_eq_some adopted
  obtain ⟨⟨zone, tagEpoch⟩, tagged, opens⟩ := Option.bind_eq_some_iff.mp opens
  obtain ⟨key, isKey, opens⟩ := Option.bind_eq_some_iff.mp opens
  obtain ⟨json, opened, opens⟩ := Option.bind_eq_some_iff.mp opens
  split at opens
  · cases opens
  · cases opens
    have isOk : crypto.openAndCheck envelope id entry.channel key.secret = .ok json := by
      cases outcome : crypto.openAndCheck envelope id entry.channel key.secret with
      | error why =>
          rw [outcome] at opened
          cases opened
      | ok other =>
          rw [outcome] at opened
          exact congrArg Except.ok (Option.some.inj opened)
    exact ⟨envelope, zone, rfl, ⟨adopted, existing, tagged⟩, key, json, isKey, isOk, rfl⟩

/-- The check of a sealed entry whose envelope is held. -/
theorem verdict_setSealed_iff
    {entry : Entry}
    {envelope : NostrEvent}
    {epoch : Nat}
    {digest : String}
    (isHeld : relay.held host envelope.id = some envelope) :
    crypto.verdict keys (relay.held host) id (entry.setSealed epoch envelope.id digest) = .ok () ↔
      OpensWith crypto keys entry.zone epoch envelope id entry.channel digest := by
  unfold Crypto.verdict Entry.setSealed OpensWith
  dsimp only
  rw [isHeld]
  dsimp only
  cases keys.get entry.zone epoch with
  | none => simp
  | some key =>
      cases opened : crypto.openAndCheck envelope id entry.channel key.secret with
      | error why => simp [opened]
      | ok json =>
          by_cases sameDigest : crypto.sha256Hex json = digest
          · simp [opened, sameDigest]
          · simp [opened, sameDigest]

/-- The condition under which seal and verify agree: the keys are held of the entries
that the run did not work on, those that were sealed before still have their
envelopes, and an envelope that names another zone than its entry opens alike with
the key of the entry's zone. -/
structure Agrees (relay : KeepingRelay) (crypto : Crypto) (run : SealRun) (recorded : State)
    (worked : List String) (host : relay.Host) : Prop where
  keysHeld : ∀ id entry epoch, id ∉ worked → recorded.entry id = some entry → entry.isTarget →
    entry.epoch = some epoch → (run.keys.get entry.zone epoch).isSome
  sealedBefore : ∀ id entry, id ∉ worked → recorded.entry id = some entry →
    entry.status = .sealed → crypto.verdict run.keys (relay.held host) id entry = .ok ()
  otherZone : ∀ id ∈ worked, ∀ entry envelope zone epoch digest,
    recorded.entry id = some entry → Adopts crypto run id entry envelope zone epoch digest →
      zone ≠ entry.zone →
        OpensWith crypto run.keys entry.zone epoch envelope id entry.channel digest

/-- No key is missing exactly when every target with an epoch has one. -/
theorem missingKeys_eq_nil_iff :
    missingKeys keys state (state.idsWhere Entry.isTarget) = [] ↔
      ∀ id entry epoch, state.entry id = some entry → entry.isTarget →
        entry.epoch = some epoch → (keys.get entry.zone epoch).isSome := by
  unfold missingKeys
  rw [sortedSet_eq_nil_iff, List.filterMap_eq_nil_iff]
  constructor
  · intro noneMissing id entry epoch isEntry isTarget isEpoch
    have none := noneMissing id (State.mem_idsWhere.mpr ⟨entry, isEntry, isTarget⟩)
    rw [isEntry, Option.bind_some, isEpoch, Option.bind_some] at none
    cases isKey : keys.get entry.zone epoch with
    | none =>
        rw [isKey] at none
        cases none
    | some key => rfl
  · intro held id member
    obtain ⟨entry, isEntry, isTarget⟩ := State.mem_idsWhere.mp member
    rw [isEntry, Option.bind_some]
    cases isEpoch : entry.epoch with
    | none => rfl
    | some epoch =>
        have isKey := held id entry epoch isEntry isTarget isEpoch
        rw [Option.bind_some, if_neg]
        rw [Option.isNone_iff_eq_none]
        intro noKey
        rw [noKey] at isKey
        cases isKey

/-- After a run of seal that completes, verify with the same keys accepts every entry
that is sealed exactly when the two agree on the keys. -/
theorem accepts_iff_agrees
    (relay : KeepingRelay)
    (crypto : Crypto)
    (keys : KeyRing)
    (migrator : String)
    (channels : List ChannelSpec)
    (limit : Option Nat)
    (pages : Nat)
    (state : State)
    {before scanned after : relay.Host}
    {plan : Plan}
    {scans : List ChannelScan}
    {last : State}
    {report : SealReport}
    (scanRuns : (scan crypto pages channels keys).run relay.answer before =
      (scanned, .ok (plan, scans)))
    (completes : («seal» crypto pages migrator channels keys state limit).run relay.answer before =
      (after, .ok (last, report))) :
    relay.Accepts crypto keys last after ↔
      relay.Agrees crypto ⟨keys, migrator, scans⟩
        (SealRun.recordNew ⟨keys, migrator, scans⟩ state)
        (workedFrom limit 0
          (SealRun.work channels (SealRun.recordNew ⟨keys, migrator, scans⟩ state))) after := by
  obtain ⟨keeps, unworked, processed⟩ := processed_of_seal scanRuns completes
  have existingHeld : ∀ id, ∀ envelope ∈ SealRun.existing ⟨keys, migrator, scans⟩ id,
      relay.held after envelope.id = some envelope := by
    intro id envelope existing
    obtain ⟨scan, isScan, isEnvelope⟩ := scan_of_existing existing
    exact keeps _ _ ((held_of_scan scanRuns).2 scan isScan id envelope isEnvelope)
  rw [accepts_iff_verdicts, missingKeys_eq_nil_iff]
  constructor
  · rintro ⟨held, passes⟩
    constructor
    case keysHeld =>
      intro id entry epoch notWorked isEntry
      exact held id entry epoch ((unworked id notWorked).trans isEntry)
    case sealedBefore =>
      intro id entry notWorked isEntry
      exact passes id entry ((unworked id notWorked).trans isEntry)
    case otherZone =>
      intro id worked entry envelope zone epoch digest isEntry adopts _
      obtain ⟨later, isLater, outcome⟩ := processed id worked entry isEntry
      rcases outcome with ⟨outerId, otherEpoch, other, adopted, rfl⟩ | ⟨notAdopted, -⟩ | ⟨notAdopted, -⟩
      · rw [adopts.adopted] at adopted
        cases adopted
        exact (verdict_setSealed_iff (existingHeld id envelope adopts.existing)).mp
          (passes id _ isLater rfl)
      · rw [adopts.adopted] at notAdopted
        cases notAdopted
      · rw [adopts.adopted] at notAdopted
        cases notAdopted
  · intro agrees
    -- what became of an entry of the work, and with which zone's key it opens
    have outcomeOf : ∀ id ∈ workedFrom limit 0 (SealRun.work channels
        (SealRun.recordNew ⟨keys, migrator, scans⟩ state)), ∀ later, last.entry id = some later →
          (∃ epoch, later.epoch = some epoch ∧ (keys.get later.zone epoch).isSome ∧
            crypto.verdict keys (relay.held after) id later = .ok ()) ∨
          ∃ reason, later.status = .failed .seal reason := by
      intro id worked later isLater
      have found := (List.mem_insertionSort _).mp (List.mem_of_mem_take worked)
      obtain ⟨entry, isEntry, -⟩ := State.mem_idsWhere.mp found
      obtain ⟨processedEntry, isProcessed, outcome⟩ := processed id worked entry isEntry
      rw [isLater] at isProcessed
      obtain rfl := Option.some.inj isProcessed
      rcases outcome with ⟨outerId, epoch, digest, adopted, rfl⟩ |
        ⟨-, key, outerId, digest, isKey, rfl, passes⟩ | ⟨-, failed⟩
      · left
        obtain ⟨envelope, zone, rfl, adopts, opens⟩ := adopts_of_adopt adopted
        have opensAlike : OpensWith crypto keys entry.zone epoch envelope id entry.channel digest := by
          by_cases sameZone : zone = entry.zone
          · exact sameZone ▸ opens
          · exact agrees.otherZone id worked entry envelope zone epoch digest isEntry adopts sameZone
        refine ⟨epoch, rfl, ?_, ?_⟩
        · obtain ⟨key, -, isKey, -⟩ := opensAlike
          exact Option.isSome_iff_exists.mpr ⟨key, isKey⟩
        · exact (verdict_setSealed_iff (existingHeld id envelope adopts.existing)).mpr opensAlike
      · left
        refine ⟨key.epoch, rfl, ?_, passes⟩
        exact Option.isSome_iff_exists.mpr ⟨key, KeyRing.get_of_current isKey⟩
      · exact .inr failed
    constructor
    · intro id later epoch isLater isTarget isEpoch
      by_cases worked : id ∈ workedFrom limit 0 (SealRun.work channels
          (SealRun.recordNew ⟨keys, migrator, scans⟩ state))
      · rcases outcomeOf id worked later isLater with ⟨same, isSame, held, -⟩ | ⟨reason, failed⟩
        · rw [isEpoch] at isSame
          rwa [Option.some.inj isSame]
        · simp [Entry.isTarget, failed] at isTarget
      · exact agrees.keysHeld id later epoch worked ((unworked id worked).symm.trans isLater)
          isTarget isEpoch
    · intro id later isLater isSealed
      by_cases worked : id ∈ workedFrom limit 0 (SealRun.work channels
          (SealRun.recordNew ⟨keys, migrator, scans⟩ state))
      · rcases outcomeOf id worked later isLater with ⟨-, -, -, passes⟩ | ⟨reason, failed⟩
        · exact passes
        · rw [isSealed] at failed
          cases failed
      · exact agrees.sealedBefore id later worked ((unworked id worked).symm.trans isLater) isSealed

end KeepingRelay

/-! ## An envelope of another zone -/

/-- An event matches a request. -/
def Filter.names (filter : Filter) (event : NostrEvent) : Bool :=
  filter.ids.all (·.contains event.id) && filter.kinds.all (·.contains event.kind) &&
    filter.eTags.all fun channels => event.tags.any fun tag =>
      tag.head? == some "e" && channels.contains (tag.getD 1 "")

/-- A relay that holds a list of events. -/
def listRelay : KeepingRelay where
  Host := List NostrEvent
  answer
    | held, .query filter => (held, .ok (held.filter fun event =>
        filter.names event && decide (held.find? (fun other => other.id == event.id) = some event)))
    | held, .publish event => (held ++ [event], .ok ⟨true, ""⟩)
    | held, .deleteEvents ids _ =>
        (held.filter fun event => !ids.contains event.id, .ok ⟨ids.length, [], []⟩)
    | held, .nonce => (held, "nonce")
    | held, .load => (held, none)
    | held, .persist _ => (held, .ok ())
  held events id := events.find? fun event => event.id == id
  hasId events id event isHeld := by simpa using List.find?_some isHeld
  sameAfterQuery _ _ := rfl
  heldOfQuery events filter answered isAnswer event member := by
    cases isAnswer
    simp only [List.mem_filter, Bool.and_eq_true, decide_eq_true_eq] at member
    exact member.2.2
  returnsHeld events ids := by
    refine ⟨_, rfl, ?_⟩
    intro id asked event isHeld
    have sameId : event.id = id := by simpa using List.find?_some isHeld
    subst sameId
    have named : (idsFilter ids).names event = true := by
      simp [Filter.names, idsFilter, Filter.any, asked]
    simp only [List.mem_filter, Bool.and_eq_true, decide_eq_true_eq]
    exact ⟨List.mem_of_find?_eq_some isHeld, named, isHeld⟩
  stays events op id event notDeletion isHeld := by
    cases op with
    | publish other => exact List.find?_append.trans (by rw [isHeld, Option.some_or])
    | deleteEvents ids reason => exact absurd rfl (notDeletion ids reason)
    | _ => exact isHeld
  saves _ _ := rfl

/-- A text of one character 64 times. -/
def longText (char : Char) : String :=
  String.ofList (List.replicate 64 char)

def plainMessage : NostrEvent where
  id := longText 'd'
  pubkey := longText 'c'
  createdAt := 5
  kind := 42
  tags := [["e", "channel", "", "root"]]
  content := "hello"
  sig := ""

/-- The message in an envelope for the second zone. -/
def secondEnvelope : NostrEvent where
  id := longText 'f'
  pubkey := longText 'a'
  createdAt := 5
  kind := 42
  tags := [["e", "channel", "", "root"], ["zk", "second", "1", longText 'b'],
    ["sealed", longText 'd', "1"]]
  content := longText 'b' ++ "hello"
  sig := ""

/-- A payload opens with the secret of the public key it begins with. -/
def plainCrypto : Crypto where
  verifyEvent _ := true
  toJson event := event.content
  fromJson text := if text = "hello" then some plainMessage else none
  encrypt _ _ pubkey text := .ok (pubkey ++ text)
  decrypt secret _ payload :=
    if payload = (if secret = "second" then longText 'b' else longText 'a') ++ "hello" then
      some "hello"
    else none
  publicKey secret := if secret = "second" then longText 'b' else longText 'a'
  onCurve _ := true
  signEvent event _ := .ok { event with id := longText 'e' }
  sha256Hex text := text

/-- The keys of two zones. -/
def twoZones : KeyRing where
  rows := [⟨"first", 1, longText 'a', "first"⟩, ⟨"second", 1, longText 'b', "second"⟩]
  distinct := by decide

/-- A run of seal from an empty file, for a channel of the first zone. -/
def sealFrom (events : listRelay.Host) :
    listRelay.Host × Except EngineError (State × SealReport) :=
  («seal» plainCrypto 2 "first" [⟨"channel", "first"⟩] twoZones State.new none).run
    listRelay.answer events

/-- The status that a run of seal records for the message, and the one that verify's
check sets. -/
def sealedRecord (events : listRelay.Host) : Option (Status × Status) :=
  (sealFrom events).2.toOption.bind fun sealed =>
    (sealed.1.entry plainMessage.id).map fun entry => (entry.status,
      statusOf (plainCrypto.verdict twoZones (listRelay.held (sealFrom events).1) plainMessage.id
        entry))

/-- An adopted envelope of the second zone is sealed, and verify does not accept it. -/
theorem adopted_envelope_fails :
    ∃ after last report entry,
      sealFrom [plainMessage, secondEnvelope] = (after, .ok (last, report)) ∧
        last.entry plainMessage.id = some entry ∧ entry.status = .sealed ∧
          ¬listRelay.Accepts plainCrypto twoZones last after := by
  have recorded : sealedRecord [plainMessage, secondEnvelope] =
      some (.sealed, .failed .verify "sealed original: decryption failed") := by
    decide +kernel
  unfold sealedRecord at recorded
  cases ran : sealFrom [plainMessage, secondEnvelope] with
  | mk after outcome =>
      rw [ran] at recorded
      cases outcome with
      | error error => cases recorded
      | ok sealed =>
          obtain ⟨last, report⟩ := sealed
          obtain ⟨entry, isEntry, statuses⟩ := Option.map_eq_some_iff.mp recorded
          obtain ⟨isSealed, isFailed⟩ := Prod.ext_iff.mp statuses
          refine ⟨after, last, report, entry, rfl, isEntry, isSealed, ?_⟩
          intro accepted
          obtain ⟨-, passes⟩ := KeepingRelay.accepts_iff_verdicts.mp accepted
          have passed := statusOf_eq_verified_iff.mpr (passes _ entry isEntry isSealed)
          dsimp only at isFailed
          rw [passed] at isFailed
          cases isFailed

/-- The scan of that channel. -/
def scanFrom (events : listRelay.Host) :
    listRelay.Host × Except EngineError (Plan × List ChannelScan) :=
  (scan plainCrypto 2 [⟨"channel", "first"⟩] twoZones).run listRelay.answer events

/-- A new envelope is accepted. -/
theorem new_envelope_accepted :
    ∃ after last report, sealFrom [plainMessage] = (after, .ok (last, report)) ∧
      listRelay.Accepts plainCrypto twoZones last after := by
  have seals : (sealFrom [plainMessage]).2.toOption.isSome := by decide +kernel
  have noEnvelopes : (scanFrom [plainMessage]).2.toOption.any (fun found =>
      found.2.all fun scan => scan.envelopesByInner.isEmpty) = true := by decide +kernel
  have allPlanned : (scanFrom [plainMessage]).2.toOption.any (fun found =>
      (SealRun.recordNew ⟨twoZones, "first", found.2⟩ State.new).entries.rows.all fun row =>
        row.2.status == .planned) = true := by decide +kernel
  cases ran : sealFrom [plainMessage] with
  | mk after outcome =>
      cases scanned : scanFrom [plainMessage] with
      | mk between found =>
          rw [ran] at seals
          rw [scanned] at noEnvelopes allPlanned
          cases outcome with
          | error error => cases seals
          | ok sealed =>
              cases found with
              | error error => cases noEnvelopes
              | ok found =>
                  obtain ⟨last, report⟩ := sealed
                  obtain ⟨plan, scans⟩ := found
                  refine ⟨after, last, report, rfl, ?_⟩
                  have planned : ∀ id entry,
                      (SealRun.recordNew ⟨twoZones, "first", scans⟩ State.new).entry id =
                        some entry → entry.status = .planned := by
                    intro id entry isEntry
                    obtain ⟨row, isRow, rfl⟩ := Option.map_eq_some_iff.mp isEntry
                    have held := (Lib.Table.find?_eq_some_iff.mp isRow).1
                    exact beq_iff_eq.mp (List.all_eq_true.mp allPlanned row held)
                  refine (listRelay.accepts_iff_agrees plainCrypto twoZones "first"
                    [⟨"channel", "first"⟩] none 2 State.new scanned ran).mpr ?_
                  constructor
                  case keysHeld =>
                    intro id entry epoch _ isEntry isTarget
                    simp [Entry.isTarget, planned id entry isEntry] at isTarget
                  case sealedBefore =>
                    intro id entry _ isEntry isSealed
                    rw [planned id entry isEntry] at isSealed
                    cases isSealed
                  case otherZone =>
                    intro id _ entry envelope zone epoch digest _ adopts
                    obtain ⟨scan, isScan, isEnvelope⟩ :=
                      KeepingRelay.scan_of_existing adopts.existing
                    have empty := List.all_eq_true.mp noEnvelopes scan isScan
                    unfold ChannelScan.envelopesOf at isEnvelope
                    rw [List.isEmpty_iff.mp empty] at isEnvelope
                    cases isEnvelope

end ZoneMigrate
end NostrBbs
