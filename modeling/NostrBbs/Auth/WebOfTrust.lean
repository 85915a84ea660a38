import NostrBbs.Lib.Run
import NostrBbs.Lib.Table
import NostrBbs.Relay.Sealed

/-!
# The Web of Trust

The pubkeys that may register: those that a reference pubkey, the referente, follows, and
those that an administrator adds by hand.  Both kinds share one row per pubkey.  A refresh
deletes the rows of the referente and inserts those of a contact list one by one; it goes
on when a statement fails, and inserts a followed pubkey over a row that an administrator
added.  That the caller is an administrator is taken for granted.
-/

namespace NostrBbs
namespace Auth

open Relay (NostrEvent isAsciiHexdigit)

/-! ## Rows and settings -/

inductive WotSource where
  | referente
  | manualOverride
deriving DecidableEq, Repr

structure WotRow where
  pubkey : String
  addedAt : Nat
  source : WotSource
deriving DecidableEq, Repr

abbrev WotEntries :=
  Lib.Table WotRow WotRow.pubkey

/-- The columns of `instance_settings` that are of the Web of Trust. -/
structure WotSettings where
  wotEnabled : Bool
  wotReferentePubkey : Option String
  wotLastFetchedAt : Option Nat
  wotFollowCount : Option Nat
deriving DecidableEq, Repr

/-- The tables, and of each signed contact list that a refresh was completed with, whose it
was and of which time. -/
structure WotState where
  entries : WotEntries
  settings : Option WotSettings
  applied : List (String × Nat)

/-! ## Requests -/

/-- How a statement goes: it runs, it fails, or the request ends with it. -/
inductive StatementOutcome where
  | ran
  | failed (reason : String)
  | stopped
deriving DecidableEq, Repr

structure RefreshBody where
  kind3Event : Option NostrEvent
  pubkeys : Option (List String)

/-- How the statements of a refresh go, each insert by its place. -/
structure RefreshOutcomes where
  settingsRead : Bool
  delete : StatementOutcome
  insert : Nat → StatementOutcome
  record : StatementOutcome

inductive WotRequest where
  | setReferente (pubkey : Option String) (enabled : Option Bool) (outcome : StatementOutcome)
  | refresh (body : RefreshBody) (now : Nat) (outcomes : RefreshOutcomes)
  | overrideAdd (pubkey : String) (now : Nat) (outcome : StatementOutcome)
  | overrideRemove (pubkey : String) (outcome : StatementOutcome)

inductive WotReply where
  | error (message : String) (status : Nat)
  | stopped
  | referenteSet (pubkey : Option String) (enabled : Bool)
  | refreshed (referente : String) (followCount fetchedAt : Nat)
  | overridden (action pubkey : String)
deriving DecidableEq, Repr

def isPubkey (text : String) : Bool :=
  text.utf8ByteSize = 64 && text.toList.all isAsciiHexdigit

section Handlers

variable (toLowercase : String → String) (verifyEventStrict : NostrEvent → Bool)

/-- The pubkeys that the `p` tags of a contact list name. -/
def extractFollowPubkeys (event : NostrEvent) : List String :=
  (event.tags.filterMap fun tag =>
    match tag with
    | "p" :: pubkey :: _ => some (toLowercase pubkey)
    | _ => none).filter isPubkey

def handleSetReferente
    (state : WotState)
    (pubkey : Option String)
    (enabled : Option Bool)
    (outcome : StatementOutcome) : WotState × WotReply :=
  if pubkey.any fun text => !isPubkey text then
    (state, .error "pubkey must be 64-char hex" 400)
  else
    let enabled := enabled.getD pubkey.isSome
    match outcome with
    | .stopped => (state, .stopped)
    | .failed reason => (state, .error s!"Update failed: {reason}" 500)
    | .ran =>
        ({ state with
            settings := state.settings.map fun settings =>
              { settings with wotReferentePubkey := pubkey, wotEnabled := enabled } },
          .referenteSet pubkey enabled)

/-- The referente and the pubkeys of the list that a refresh is asked for. -/
def followList
    (settings : Option WotSettings)
    (body : RefreshBody) : Except WotReply (String × List String) :=
  match settings.bind WotSettings.wotReferentePubkey with
  | none =>
      .error (.error
        "WoT referente not configured. POST /api/wot/set-referente first." 409)
  | some referente =>
      match body.kind3Event with
      | some event =>
          if event.kind ≠ 3 then
            .error (.error "kind3_event must be kind 3 (follow list)" 400)
          else if toLowercase event.pubkey ≠ referente then
            .error (.error "kind3_event signer does not match configured referente" 400)
          else if !verifyEventStrict event then
            .error (.error "kind3_event signature verification failed" 400)
          else .ok (referente, extractFollowPubkeys toLowercase event)
      | none =>
          match body.pubkeys with
          | some list => .ok (referente, (list.map toLowercase).filter isPubkey)
          | none => .error (.error "Supply either kind3_event or pubkeys[]" 400)

/-- The delete of the rows of the referente. -/
def deleteReferente (entries : WotEntries) : WotEntries :=
  entries.retain fun row => row.source ≠ .referente

/-- The insert of a followed pubkey, over the row that holds it. -/
def insertReferente
    (now : Nat)
    (entries : WotEntries)
    (pubkey : String) : WotEntries :=
  entries.put ⟨pubkey, now, .referente⟩

/-- The inserts of a list from a place on, and whether the request goes on after them. -/
def insertFollows
    (now : Nat)
    (outcome : Nat → StatementOutcome) : Nat → WotEntries → List String → WotEntries × Bool
  | _, entries, [] => (entries, true)
  | place, entries, pubkey :: rest =>
      match outcome place with
      | .ran => insertFollows now outcome (place + 1) (insertReferente now entries pubkey) rest
      | .failed _ => insertFollows now outcome (place + 1) entries rest
      | .stopped => (entries, false)

/-- What the settings and the contact lists are after a refresh was completed. -/
def recordRefresh
    (state : WotState)
    (referente : String)
    (body : RefreshBody)
    (followCount now : Nat)
    (recorded : Bool) : WotState :=
  { state with
    settings :=
      if recorded then state.settings.map fun settings =>
        { settings with wotLastFetchedAt := some now, wotFollowCount := some followCount }
      else state.settings
    applied := state.applied ++ (body.kind3Event.map fun event =>
      (referente, event.createdAt)).toList }

def handleRefresh
    (state : WotState)
    (body : RefreshBody)
    (now : Nat)
    (outcomes : RefreshOutcomes) : WotState × WotReply :=
  let settings := if outcomes.settingsRead then state.settings else none
  match followList toLowercase verifyEventStrict settings body with
  | .error reply => (state, reply)
  | .ok (referente, follows) =>
      if outcomes.delete = .stopped then (state, .stopped)
      else
        let cleared :=
          if outcomes.delete = .ran then deleteReferente state.entries else state.entries
        let (entries, goesOn) := insertFollows now outcomes.insert 0 cleared follows
        if goesOn && outcomes.record ≠ .stopped then
          (recordRefresh { state with entries := entries } referente body follows.length now
            (outcomes.record = .ran), .refreshed referente follows.length now)
        else ({ state with entries := entries }, .stopped)

def handleOverrideAdd
    (state : WotState)
    (pubkey : String)
    (now : Nat)
    (outcome : StatementOutcome) : WotState × WotReply :=
  if !isPubkey pubkey then (state, .error "pubkey must be 64-char hex" 400)
  else
    match outcome with
    | .stopped => (state, .stopped)
    | .failed reason => (state, .error s!"Insert failed: {reason}" 500)
    | .ran =>
        let row : WotRow :=
          match state.entries.find? pubkey with
          | some held => { held with source := .manualOverride }
          | none => ⟨pubkey, now, .manualOverride⟩
        ({ state with entries := state.entries.put row }, .overridden "added" pubkey)

def handleOverrideRemove
    (state : WotState)
    (pubkey : String)
    (outcome : StatementOutcome) : WotState × WotReply :=
  if !isPubkey pubkey then (state, .error "pubkey must be 64-char hex" 400)
  else
    match outcome with
    | .stopped => (state, .stopped)
    | .failed reason => (state, .error s!"Delete failed: {reason}" 500)
    | .ran =>
        ({ state with
            entries := state.entries.retain fun row =>
              !(row.pubkey = pubkey && row.source = .manualOverride) },
          .overridden "removed" pubkey)

def handleWot (state : WotState) : WotRequest → WotState × WotReply
  | .setReferente pubkey enabled outcome => handleSetReferente state pubkey enabled outcome
  | .refresh body now outcomes =>
      handleRefresh toLowercase verifyEventStrict state body now outcomes
  | .overrideAdd pubkey now outcome => handleOverrideAdd state pubkey now outcome
  | .overrideRemove pubkey outcome => handleOverrideRemove state pubkey outcome

def stepWot (state : WotState) (request : WotRequest) : WotState :=
  (handleWot toLowercase verifyEventStrict state request).1

end Handlers

/-! ## The trusted set -/

/-- Why a pubkey is trusted, if it is. -/
def sourceOf (entries : WotEntries) (pubkey : String) : Option WotSource :=
  (entries.find? pubkey).map WotRow.source

def trusted (entries : WotEntries) : Set String :=
  {pubkey | (sourceOf entries pubkey).isSome}

def overridden (entries : WotEntries) : Set String :=
  {pubkey | sourceOf entries pubkey = some .manualOverride}

/-- A signed list is older than one of its referente that was applied. -/
def isOlder (state : WotState) (referente : String) (body : RefreshBody) : Bool :=
  match body.kind3Event with
  | none => false
  | some event => state.applied.any fun list =>
      list.1 = referente && decide (event.createdAt < list.2)

/-- The trusted set that a refresh should leave: a completed one with a list that is not older
than an applied one replaces what the referente follows, and every other one leaves the set. -/
def RefreshReplaces
    (before after : WotEntries)
    (follows : List String)
    (older completed : Bool) : Prop :=
  if completed then
    (if older then trusted after = trusted before
      else trusted after = {pubkey | pubkey ∈ follows} ∪ overridden before) ∧
      overridden before ⊆ overridden after
  else trusted after = trusted before

def WotReply.isRefreshed : WotReply → Bool
  | refreshed .. => true
  | _ => false

section Property

variable (toLowercase : String → String) (verifyEventStrict : NostrEvent → Bool)

/-- A request keeps the trusted set as a refresh should. -/
def KeepsTrust (state : WotState) : WotRequest → Prop
  | .refresh body now outcomes =>
      let (after, reply) := handleRefresh toLowercase verifyEventStrict state body now outcomes
      let settings := if outcomes.settingsRead then state.settings else none
      match followList toLowercase verifyEventStrict settings body with
      | .error _ => trusted after.entries = trusted state.entries
      | .ok (referente, follows) =>
          RefreshReplaces state.entries after.entries follows (isOlder state referente body)
            reply.isRefreshed
  | _ => True

end Property

/-! ## When it does -/

/-- The pubkeys whose inserts run, from a place on and before the request ends. -/
def insertsRun (outcome : Nat → StatementOutcome) : Nat → List String → List String
  | _, [] => []
  | place, pubkey :: rest =>
      match outcome place with
      | .ran => pubkey :: insertsRun outcome (place + 1) rest
      | .failed _ => insertsRun outcome (place + 1) rest
      | .stopped => []

/-- The inserts of a list do not end the request. -/
def insertsEnd (outcome : Nat → StatementOutcome) : Nat → List String → Bool
  | _, [] => true
  | place, _ :: rest => outcome place ≠ .stopped && insertsEnd outcome (place + 1) rest

namespace RefreshOutcomes

/-- The pubkeys of a list that a refresh inserts. -/
def written (outcomes : RefreshOutcomes) (follows : List String) : List String :=
  if outcomes.delete = .stopped then [] else insertsRun outcomes.insert 0 follows

/-- No statement of a refresh ends it. -/
def completes (outcomes : RefreshOutcomes) (follows : List String) : Bool :=
  outcomes.delete ≠ .stopped && (insertsEnd outcomes.insert 0 follows &&
    outcomes.record ≠ .stopped)

/-- The rows that the delete takes away are those that the inserts put back. -/
def Restores
    (outcomes : RefreshOutcomes)
    (entries : WotEntries)
    (follows : List String) : Prop :=
  (outcomes.delete = .ran → ∀ pubkey, sourceOf entries pubkey = some .referente →
    pubkey ∈ outcomes.written follows) ∧
  ∀ pubkey ∈ outcomes.written follows, pubkey ∈ trusted entries

/-- The delete leaves no row of the referente that is not of the list, and every pubkey of the
list is inserted or has a row that the delete left. -/
def Replaces
    (outcomes : RefreshOutcomes)
    (entries : WotEntries)
    (follows : List String) : Prop :=
  (outcomes.delete = .ran ∨ ∀ pubkey, sourceOf entries pubkey = some .referente →
    pubkey ∈ follows) ∧
  ∀ pubkey ∈ follows, pubkey ∈ outcomes.written follows ∨ pubkey ∈ overridden entries ∨
    outcomes.delete ≠ .ran ∧ pubkey ∈ trusted entries

/-- No insert of a followed pubkey that runs meets a row that an administrator added. -/
def SparesOverrides
    (outcomes : RefreshOutcomes)
    (entries : WotEntries)
    (follows : List String) : Prop :=
  ∀ pubkey ∈ outcomes.written follows, pubkey ∉ overridden entries

end RefreshOutcomes

/-- The statements of a refresh go well on its table and its list. -/
def RefreshFits
    (entries : WotEntries)
    (follows : List String)
    (older : Bool)
    (outcomes : RefreshOutcomes) : Prop :=
  if outcomes.completes follows then
    (if older then outcomes.Restores entries follows else outcomes.Replaces entries follows) ∧
      outcomes.SparesOverrides entries follows
  else outcomes.Restores entries follows

section Condition

variable (toLowercase : String → String) (verifyEventStrict : NostrEvent → Bool)

def WotFits (state : WotState) : WotRequest → Prop
  | .refresh body _ outcomes =>
      let settings := if outcomes.settingsRead then state.settings else none
      match followList toLowercase verifyEventStrict settings body with
      | .error _ => True
      | .ok (referente, follows) =>
          RefreshFits state.entries follows (isOlder state referente body) outcomes
  | _ => True

end Condition

/-! ## What a refresh leaves -/

section Refresh

variable {entries : WotEntries} {pubkey : String} {follows : List String}
  {outcomes : RefreshOutcomes} {now : Nat}

theorem mem_trusted_iff :
    pubkey ∈ trusted entries ↔
      sourceOf entries pubkey = some .referente ∨ pubkey ∈ overridden entries := by
  change (sourceOf entries pubkey).isSome ↔ _ ∨ sourceOf entries pubkey = some .manualOverride
  cases sourceOf entries pubkey with
  | none => simp
  | some source => cases source <;> simp

theorem sourceOf_insertReferente
    (other : String) :
    sourceOf (insertReferente now entries other) pubkey =
      if pubkey = other then some .referente else sourceOf entries pubkey := by
  unfold sourceOf insertReferente
  rw [Lib.Table.find?_put]
  split
  · rfl
  · rfl

theorem sourceOf_deleteReferente :
    sourceOf (deleteReferente entries) pubkey =
      if sourceOf entries pubkey = some .referente then none else sourceOf entries pubkey := by
  unfold sourceOf deleteReferente
  rw [Lib.Table.find?_retain]
  cases found : entries.find? pubkey with
  | none => rfl
  | some row =>
      by_cases isReferente : row.source = .referente
      · simp [isReferente, Option.filter_some_neg]
      · simp [isReferente, Option.filter_some_pos]

/-- The inserts of a list give the pubkeys whose inserts run to the referente, and leave every
other one. -/
theorem insertFollows_eq
    (now : Nat)
    (outcome : Nat → StatementOutcome)
    (place : Nat)
    (entries : WotEntries)
    (follows : List String) :
    (∀ pubkey, sourceOf (insertFollows now outcome place entries follows).1 pubkey =
      if pubkey ∈ insertsRun outcome place follows then some .referente
      else sourceOf entries pubkey) ∧
    (insertFollows now outcome place entries follows).2 = insertsEnd outcome place follows := by
  induction follows generalizing place entries with
  | nil =>
      refine ⟨fun pubkey => ?_, rfl⟩
      simp [insertFollows, insertsRun]
  | cons followed rest inductionHypothesis =>
      cases isOutcome : outcome place with
      | ran =>
          obtain ⟨sources, ends⟩ :=
            inductionHypothesis (place + 1) (insertReferente now entries followed)
          simp only [insertFollows, insertsRun, insertsEnd, isOutcome]
          refine ⟨fun pubkey => ?_, by simpa using ends⟩
          rw [sources, sourceOf_insertReferente]
          by_cases isFollowed : pubkey = followed
          · simp [isFollowed]
          · simp [isFollowed]
      | failed reason =>
          obtain ⟨sources, ends⟩ := inductionHypothesis (place + 1) entries
          simp only [insertFollows, insertsRun, insertsEnd, isOutcome]
          exact ⟨sources, by simpa using ends⟩
      | stopped =>
          simp only [insertFollows, insertsRun, insertsEnd, isOutcome]
          exact ⟨fun pubkey => by simp, by simp⟩

theorem insertsRun_subset
    (outcome : Nat → StatementOutcome)
    (place : Nat)
    (follows : List String) :
    insertsRun outcome place follows ⊆ follows := by
  induction follows generalizing place with
  | nil => exact List.nil_subset _
  | cons followed rest inductionHypothesis =>
      have later := inductionHypothesis (place + 1)
      unfold insertsRun
      split
      · exact List.cons_subset_cons followed later
      · exact List.Subset.trans later (List.subset_cons_self followed rest)
      · exact List.nil_subset _

/-- What the statements of a refresh leave of a table. -/
def LeavesRows
    (outcomes : RefreshOutcomes)
    (before after : WotEntries)
    (follows : List String) : Prop :=
  ∀ pubkey, sourceOf after pubkey =
    if pubkey ∈ outcomes.written follows then some .referente
    else if outcomes.delete = .ran ∧ sourceOf before pubkey = some .referente then none
    else sourceOf before pubkey

/-- A refresh with a list leaves what its statements leave, and is completed when none of them
ends it. -/
theorem handleRefresh_leaves
    {toLowercase : String → String}
    {verifyEventStrict : NostrEvent → Bool}
    {state : WotState}
    {body : RefreshBody}
    {referente : String}
    (now : Nat)
    (resolved : followList toLowercase verifyEventStrict
      (if outcomes.settingsRead then state.settings else none) body = .ok (referente, follows)) :
    LeavesRows outcomes state.entries
        (handleRefresh toLowercase verifyEventStrict state body now outcomes).1.entries follows ∧
      (handleRefresh toLowercase verifyEventStrict state body now outcomes).2.isRefreshed =
        outcomes.completes follows := by
  unfold handleRefresh
  simp only [resolved]
  by_cases deleteStops : outcomes.delete = .stopped
  · rw [if_pos deleteStops]
    refine ⟨fun pubkey => ?_, ?_⟩
    · simp [RefreshOutcomes.written, deleteStops]
    · simp [WotReply.isRefreshed, RefreshOutcomes.completes, deleteStops]
  · rw [if_neg deleteStops]
    obtain ⟨sources, ends⟩ := insertFollows_eq now outcomes.insert 0
      (if outcomes.delete = .ran then deleteReferente state.entries else state.entries) follows
    have cleared : ∀ pubkey, sourceOf (if outcomes.delete = .ran
        then deleteReferente state.entries else state.entries) pubkey =
        if outcomes.delete = .ran ∧ sourceOf state.entries pubkey = some .referente then none
        else sourceOf state.entries pubkey := by
      intro pubkey
      by_cases deletes : outcomes.delete = .ran
      · simp only [deletes, if_true, true_and, sourceOf_deleteReferente]
      · simp only [deletes, if_false, false_and]
    have written : outcomes.written follows = insertsRun outcomes.insert 0 follows :=
      if_neg deleteStops
    have completes : outcomes.completes follows =
        (insertsEnd outcomes.insert 0 follows && outcomes.record ≠ .stopped) := by
      simp [RefreshOutcomes.completes, deleteStops]
    have leaves : LeavesRows outcomes state.entries (insertFollows now outcomes.insert 0
        (if outcomes.delete = .ran then deleteReferente state.entries else state.entries)
        follows).1 follows := by
      intro pubkey
      rw [sources, cleared, written]
    rw [completes, ends]
    by_cases goesOn : (insertsEnd outcomes.insert 0 follows && outcomes.record ≠ .stopped) = true
    · rw [if_pos goesOn, goesOn]
      exact ⟨leaves, rfl⟩
    · rw [if_neg goesOn, Bool.eq_false_iff.mpr goesOn]
      exact ⟨leaves, rfl⟩

variable {before after : WotEntries}

theorem mem_trusted_after
    (leaves : LeavesRows outcomes before after follows) :
    pubkey ∈ trusted after ↔ pubkey ∈ outcomes.written follows ∨
      pubkey ∈ overridden before ∨ outcomes.delete ≠ .ran ∧ pubkey ∈ trusted before := by
  have isTrusted : pubkey ∈ trusted after ↔ (sourceOf after pubkey).isSome = true := Iff.rfl
  rw [isTrusted, leaves pubkey, mem_trusted_iff]
  have isOverridden : pubkey ∈ overridden before ↔
      sourceOf before pubkey = some .manualOverride := Iff.rfl
  rw [isOverridden]
  by_cases written : pubkey ∈ outcomes.written follows
  · simp [written]
  · cases held : sourceOf before pubkey with
    | none => simp [written]
    | some source => cases source <;> by_cases deletes : outcomes.delete = .ran <;>
        simp [written, deletes]

theorem mem_overridden_after
    (leaves : LeavesRows outcomes before after follows) :
    pubkey ∈ overridden after ↔
      pubkey ∉ outcomes.written follows ∧ pubkey ∈ overridden before := by
  have isOverridden : ∀ entries, pubkey ∈ overridden entries ↔
      sourceOf entries pubkey = some .manualOverride := fun _ => Iff.rfl
  rw [isOverridden, isOverridden, leaves pubkey]
  by_cases written : pubkey ∈ outcomes.written follows
  · simp [written]
  · cases held : sourceOf before pubkey with
    | none => simp [written]
    | some source => cases source <;> simp [written]

/-- The trusted set is as it was exactly when the inserts put back what the delete took. -/
theorem trusted_same_iff
    (leaves : LeavesRows outcomes before after follows) :
    trusted after = trusted before ↔ outcomes.Restores before follows := by
  rw [Set.ext_iff]
  constructor
  · intro same
    constructor
    · intro deletes pubkey isReferente
      have stays := (same pubkey).mpr (mem_trusted_iff.mpr (.inl isReferente))
      rcases (mem_trusted_after leaves).mp stays with written | isOverridden | ⟨notDeleted, -⟩
      · exact written
      · change sourceOf before pubkey = some .manualOverride at isOverridden
        rw [isReferente] at isOverridden
        cases isOverridden
      · exact absurd deletes notDeleted
    · intro pubkey written
      exact (same pubkey).mp ((mem_trusted_after leaves).mpr (.inl written))
  · rintro ⟨putBack, wereTrusted⟩ pubkey
    rw [mem_trusted_after leaves]
    constructor
    · rintro (written | isOverridden | ⟨-, isTrusted⟩)
      · exact wereTrusted pubkey written
      · exact mem_trusted_iff.mpr (.inr isOverridden)
      · exact isTrusted
    · intro isTrusted
      by_cases deletes : outcomes.delete = .ran
      · rcases mem_trusted_iff.mp isTrusted with isReferente | isOverridden
        · exact .inl (putBack deletes pubkey isReferente)
        · exact .inr (.inl isOverridden)
      · exact .inr (.inr ⟨deletes, isTrusted⟩)

theorem written_subset :
    outcomes.written follows ⊆ follows := by
  unfold RefreshOutcomes.written
  split
  · exact List.nil_subset _
  · exact insertsRun_subset outcomes.insert 0 follows

/-- The followed set is replaced exactly when the delete leaves nothing outside the list and
all of the list has rows. -/
theorem trusted_replaced_iff
    (leaves : LeavesRows outcomes before after follows) :
    trusted after = {pubkey | pubkey ∈ follows} ∪ overridden before ↔
      outcomes.Replaces before follows := by
  rw [Set.ext_iff]
  constructor
  · intro replaced
    constructor
    · by_cases deletes : outcomes.delete = .ran
      · exact .inl deletes
      · right
        intro pubkey isReferente
        have stays : pubkey ∈ trusted after :=
          (mem_trusted_after leaves).mpr (.inr (.inr ⟨deletes, mem_trusted_iff.mpr
            (.inl isReferente)⟩))
        rcases (replaced pubkey).mp stays with followed | isOverridden
        · exact followed
        · change sourceOf before pubkey = some .manualOverride at isOverridden
          rw [isReferente] at isOverridden
          cases isOverridden
    · intro pubkey followed
      exact (mem_trusted_after leaves).mp ((replaced pubkey).mpr (.inl followed))
  · rintro ⟨clears, reached⟩ pubkey
    rw [mem_trusted_after leaves]
    constructor
    · rintro (written | isOverridden | ⟨notDeleted, isTrusted⟩)
      · exact .inl (written_subset written)
      · exact .inr isOverridden
      · rcases mem_trusted_iff.mp isTrusted with isReferente | isOverridden
        · exact .inl (clears.resolve_left notDeleted pubkey isReferente)
        · exact .inr isOverridden
    · rintro (followed | isOverridden)
      · exact reached pubkey followed
      · exact .inr (.inl isOverridden)

/-- The overrides stay marked exactly when no insert that runs meets one. -/
theorem overrides_kept_iff
    (leaves : LeavesRows outcomes before after follows) :
    overridden before ⊆ overridden after ↔ outcomes.SparesOverrides before follows := by
  constructor
  · intro kept pubkey written isOverridden
    exact ((mem_overridden_after leaves).mp (kept isOverridden)).1 written
  · intro spares pubkey isOverridden
    exact (mem_overridden_after leaves).mpr
      ⟨fun written => spares pubkey written isOverridden, isOverridden⟩

theorem refreshReplaces_iff
    (leaves : LeavesRows outcomes before after follows)
    (older : Bool) :
    RefreshReplaces before after follows older (outcomes.completes follows) ↔
      RefreshFits before follows older outcomes := by
  unfold RefreshReplaces RefreshFits
  rw [overrides_kept_iff leaves, trusted_same_iff leaves, trusted_replaced_iff leaves]

end Refresh

/-! ## Runs -/

section Runs

variable (toLowercase : String → String) (verifyEventStrict : NostrEvent → Bool)

/-- One request keeps the trusted set as a refresh should exactly when its statements go well
on the table and the list that it meets. -/
theorem keepsTrust_iff
    (state : WotState)
    (request : WotRequest) :
    KeepsTrust toLowercase verifyEventStrict state request ↔
      WotFits toLowercase verifyEventStrict state request := by
  cases request with
  | setReferente pubkey enabled outcome => exact Iff.rfl
  | overrideAdd pubkey now outcome => exact Iff.rfl
  | overrideRemove pubkey outcome => exact Iff.rfl
  | refresh body now outcomes =>
      unfold KeepsTrust WotFits
      dsimp only
      cases resolved : followList toLowercase verifyEventStrict
          (if outcomes.settingsRead then state.settings else none) body with
      | error reply =>
          refine iff_of_true ?_ trivial
          unfold handleRefresh
          simp only [resolved]
      | ok list =>
          obtain ⟨referente, follows⟩ := list
          obtain ⟨leaves, completed⟩ := handleRefresh_leaves now resolved
          dsimp only
          rw [completed]
          exact refreshReplaces_iff leaves _

/-- A completed refresh that keeps the trusted set as it should leaves the overrides marked. -/
theorem KeepsTrust.overrides
    {toLowercase : String → String}
    {verifyEventStrict : NostrEvent → Bool}
    {state : WotState}
    {body : RefreshBody}
    {now : Nat}
    {outcomes : RefreshOutcomes}
    (keeps : KeepsTrust toLowercase verifyEventStrict state (.refresh body now outcomes))
    (completed : (handleRefresh toLowercase verifyEventStrict state body now
      outcomes).2.isRefreshed = true) :
    overridden state.entries ⊆ overridden
      (handleRefresh toLowercase verifyEventStrict state body now outcomes).1.entries := by
  unfold KeepsTrust at keeps
  dsimp only at keeps
  cases resolved : followList toLowercase verifyEventStrict
      (if outcomes.settingsRead then state.settings else none) body with
  | error reply =>
      unfold handleRefresh
      simp only [resolved]
      exact subset_rfl
  | ok list =>
      rw [resolved, completed] at keeps
      exact keeps.2

/-- From any tables, the refreshes of a run of requests all keep the trusted set as a refresh
should exactly when the statements of each go well where it comes. -/
theorem refreshes_replace_iff
    (start : WotState)
    (requests : List WotRequest) :
    Lib.Along (stepWot toLowercase verifyEventStrict)
        (KeepsTrust toLowercase verifyEventStrict) start requests ↔
      Lib.Along (stepWot toLowercase verifyEventStrict)
        (WotFits toLowercase verifyEventStrict) start requests :=
  ⟨Lib.Along.mono fun state request =>
      (keepsTrust_iff toLowercase verifyEventStrict state request).mp,
    Lib.Along.mono fun state request =>
      (keepsTrust_iff toLowercase verifyEventStrict state request).mpr⟩

end Runs

/-- An administrator trusts a pubkey, and the referente comes to follow it and then no longer
does.  The first refresh takes the mark of the override, the second one the trust. -/
theorem override_lost :
    let alice := "aaaaaaaaaaaaaaaaaaaaaaaaaaaaaaaaaaaaaaaaaaaaaaaaaaaaaaaaaaaaaaaa"
    let list := fun createdAt tags => (⟨"", "referente", createdAt, 3, tags, "", ""⟩ : NostrEvent)
    let allRun : RefreshOutcomes := ⟨true, .ran, fun _ => .ran, .ran⟩
    let start : WotState :=
      ⟨Lib.Table.empty, some ⟨true, some "referente", none, none⟩, []⟩
    let requests : List WotRequest :=
      [.overrideAdd alice 100 .ran,
        .refresh ⟨some (list 200 [["p", alice]]), none⟩ 200 allRun,
        .refresh ⟨some (list 300 []), none⟩ 300 allRun]
    let step := stepWot id fun _ => true
    ¬Lib.Along step (KeepsTrust id fun _ => true) start requests ∧
      alice ∉ trusted (Lib.run step start requests).entries := by
  intro alice list allRun start requests step
  have trustedAfter : sourceOf (Lib.run step start requests).entries alice = none := by
    decide
  have marked : sourceOf (Lib.run step start (requests.take 1)).entries alice =
      some .manualOverride := by
    decide
  have unmarked : sourceOf (Lib.run step start (requests.take 2)).entries alice =
      some .referente := by
    decide
  refine ⟨?_, ?_⟩
  · rintro ⟨-, keeps, -⟩
    have kept := keeps.overrides (by decide) marked
    change sourceOf (Lib.run step start (requests.take 2)).entries alice =
      some .manualOverride at kept
    rw [unmarked] at kept
    cases kept
  · intro isTrusted
    change (sourceOf (Lib.run step start requests).entries alice).isSome = true at isTrusted
    rw [trustedAfter] at isTrusted
    cases isTrusted

end Auth
end NostrBbs
