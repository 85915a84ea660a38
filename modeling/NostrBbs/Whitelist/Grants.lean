import NostrBbs.Whitelist.Cohorts

/-!
# Cohort grants as set operations

Every write of the cohorts column acts on the row of one public key, as an operation on
the list that the row stores.  A cohort that such an operation grants is held from then
on until a revoke names it, and lists without repetition stay so.
-/

namespace NostrBbs
namespace Whitelist

/-! ## Lists -/

theorem nodup_pushNew
    {cohorts : List String}
    (distinct : cohorts.Nodup)
    (added : List String) :
    (pushNew cohorts added).Nodup := by
  unfold pushNew
  induction added generalizing cohorts with
  | nil => exact distinct
  | cons first added inductionHypothesis =>
      rw [List.foldl_cons]
      apply inductionHypothesis
      split
      · exact distinct
      · rename_i fresh
        have notHeld : first ∉ cohorts := by simpa using fresh
        apply List.nodup_append.mpr
        refine ⟨distinct, List.nodup_singleton first, ?_⟩
        intro cohort held other isFirst same
        rw [List.mem_singleton.mp isFirst] at same
        exact notHeld (same ▸ held)

theorem mem_unionRows
    {first second : List String}
    {value : String} :
    value ∈ unionRows first second ↔ value ∈ first ∨ value ∈ second := by
  rw [unionRows, List.mem_insertionSort, List.mem_dedup, List.mem_append]

theorem nodup_unionRows (first second : List String) : (unionRows first second).Nodup :=
  (List.perm_insertionSort _ _).nodup_iff.mpr (List.nodup_dedup _)

/-! ## The row of one public key -/

/-- What is stored for a public key. -/
def stored (whitelist : Whitelist) (pubkey : String) : Option StoredCohorts :=
  (whitelist.find? pubkey).map WhitelistRow.cohorts

/-- The cohorts that a member holds: those of an array. -/
def StoredCohorts.held : StoredCohorts → List String
  | array values => values
  | _ => []

/-- The cohorts of a row, if there is one. -/
def held (before : Option StoredCohorts) : List String :=
  (before.map StoredCohorts.held).getD []

def heldBy (whitelist : Whitelist) (pubkey : String) : List String :=
  held (whitelist.stored pubkey)

/-- What a write makes of what is stored for a public key. -/
def CohortOp.effect (pubkey : String) : CohortOp → Option StoredCohorts → Option StoredCohorts
  | .grantCohorts target cohorts _ _, before =>
      if target = pubkey then some ((before.map (StoredCohorts.grant cohorts)).getD (.array cohorts))
      else before
  | .updateCohorts target add remove _ _, before =>
      if target = pubkey then
        let granted := if add = [] then before
          else some ((before.map (StoredCohorts.grant add)).getD (.array add))
        if remove = [] then granted else granted.map (StoredCohorts.revoke remove)
      else before
  | .insertOrIgnore row, before =>
      if row.pubkey = pubkey then some (before.getD row.cohorts) else before
  | .mergeCohorts cohorts target, before =>
      if target = pubkey then before.map (StoredCohorts.merge cohorts) else before
  | _, before => before

section Rows

variable {whitelist : Whitelist} {pubkey : String}

theorem stored_updateWhere
    (target : String)
    (change : WhitelistRow → WhitelistRow)
    (keeps : ∀ row, (change row).pubkey = row.pubkey)
    (onCohorts : StoredCohorts → StoredCohorts)
    (changes : ∀ row, (change row).cohorts = onCohorts row.cohorts) :
    Whitelist.stored (whitelist.updateWhere (fun row => row.pubkey = target) change keeps) pubkey =
      if target = pubkey then (whitelist.stored pubkey).map onCohorts
      else whitelist.stored pubkey := by
  unfold stored
  rw [Lib.Table.find?_updateWhere]
  cases found : whitelist.find? pubkey with
  | none => simp
  | some row =>
      have isKey : row.pubkey = pubkey := (Lib.Table.find?_eq_some_iff.mp found).2
      by_cases isTarget : target = pubkey
      · simp [isTarget, isKey, changes]
      · have notTarget : ¬row.pubkey = target := fun same => isTarget (same.symm.trans isKey)
        simp [isTarget, notTarget]

theorem stored_insert
    {row : WhitelistRow}
    {after : Whitelist}
    (inserted : whitelist.insert row = some after) :
    after.stored pubkey = if row.pubkey = pubkey then some row.cohorts
      else whitelist.stored pubkey := by
  unfold stored
  rw [Lib.Table.find?_of_insert inserted]
  split <;> rfl

theorem stored_of_insert_none
    {row : WhitelistRow}
    (refused : whitelist.insert row = none) :
    ∃ held, whitelist.stored row.pubkey = some held := by
  have isHeld := Lib.Table.insert_eq_none_iff.mp refused
  cases found : whitelist.find? row.pubkey with
  | none => exact absurd isHeld (Lib.Table.find?_eq_none_iff.mp found)
  | some held => exact ⟨held.cohorts, by rw [stored, found, Option.map_some]⟩

theorem stored_of_insert_some
    {row : WhitelistRow}
    {after : Whitelist}
    (inserted : whitelist.insert row = some after) :
    whitelist.stored row.pubkey = none := by
  have fresh := (Lib.Table.insert_eq_some inserted).1
  rw [stored, Lib.Table.find?_eq_none_iff.mpr fresh, Option.map_none]

theorem stored_grantCohorts
    (target : String)
    (cohorts : List String)
    (addedAt : Int)
    (addedBy : String) :
    (whitelist.grantCohorts target cohorts addedAt addedBy).stored pubkey =
      CohortOp.effect pubkey (.grantCohorts target cohorts addedAt addedBy)
        (whitelist.stored pubkey) := by
  unfold grantCohorts CohortOp.effect
  cases inserted : whitelist.insert ⟨target, .array cohorts, addedAt, addedBy, 0, none⟩ with
  | none =>
      obtain ⟨held, isStored⟩ := stored_of_insert_none inserted
      rw [Option.getD_none, stored_updateWhere target _ _ (StoredCohorts.grant cohorts) fun _ => rfl]
      by_cases isTarget : target = pubkey
      · dsimp only at isStored
        rw [isTarget] at isStored
        simp [isTarget, isStored]
      · simp [isTarget]
  | some after =>
      have absent := stored_of_insert_some inserted
      rw [Option.getD_some, stored_insert inserted]
      by_cases isTarget : target = pubkey
      · dsimp only at absent
        rw [isTarget] at absent
        simp [isTarget, absent]
      · simp [isTarget]

theorem stored_revokeCohorts
    (target : String)
    (cohorts : List String) :
    (whitelist.revokeCohorts target cohorts).stored pubkey =
      if target = pubkey then (whitelist.stored pubkey).map (StoredCohorts.revoke cohorts)
      else whitelist.stored pubkey :=
  stored_updateWhere target _ _ (StoredCohorts.revoke cohorts) fun _ => rfl

theorem stored_insertOrIgnore
    (row : WhitelistRow) :
    (whitelist.insertOrIgnore row).stored pubkey =
      CohortOp.effect pubkey (.insertOrIgnore row) (whitelist.stored pubkey) := by
  unfold insertOrIgnore CohortOp.effect
  dsimp only
  cases inserted : whitelist.insert row with
  | none =>
      obtain ⟨held, isStored⟩ := stored_of_insert_none inserted
      rw [Option.getD_none]
      split
      · rename_i isTarget
        rw [← isTarget, isStored, Option.getD_some]
      · rfl
  | some after =>
      have absent := stored_of_insert_some inserted
      rw [Option.getD_some, stored_insert inserted]
      split
      · rename_i isTarget
        rw [← isTarget, absent, Option.getD_none]
      · rfl

theorem stored_updateCohorts
    (target : String)
    (add remove : List String)
    (addedAt : Int)
    (addedBy : String) :
    (whitelist.updateCohorts target add remove addedAt addedBy).stored pubkey =
      CohortOp.effect pubkey (.updateCohorts target add remove addedAt addedBy)
        (whitelist.stored pubkey) := by
  have granted : (if add = [] then whitelist
      else whitelist.grantCohorts target add addedAt addedBy).stored pubkey =
        if add = [] then whitelist.stored pubkey
        else CohortOp.effect pubkey (.grantCohorts target add addedAt addedBy)
          (whitelist.stored pubkey) := by
    split
    · rfl
    · exact stored_grantCohorts target add addedAt addedBy
  unfold updateCohorts
  dsimp only
  by_cases isTarget : target = pubkey
  · by_cases noRemove : remove = []
    · rw [if_pos noRemove, granted]
      simp [CohortOp.effect, isTarget, noRemove]
    · rw [if_neg noRemove, stored_revokeCohorts, granted]
      simp [CohortOp.effect, isTarget, noRemove]
  · by_cases noRemove : remove = []
    · rw [if_pos noRemove, granted]
      simp [CohortOp.effect, isTarget]
    · rw [if_neg noRemove, stored_revokeCohorts, granted]
      simp [CohortOp.effect, isTarget]

end Rows

/-! ## Statements -/

/-- How the handlers' statements are: of the admin statements they perform the lookup,
an update repeats no cohort and does not grant and revoke one, and the two inserts and the
merge repeat none. -/
def CohortOp.Issued : CohortOp → Prop
  | .admin op => ∃ pubkey, op = .selectIsAdmin pubkey
  | .updateCohorts _ add remove _ _ => add.Nodup ∧ ∀ cohort ∈ add, cohort ∉ remove
  | .insertOrIgnore row => ∃ cohorts, row.cohorts = .array cohorts ∧ cohorts.Nodup
  | .mergeCohorts cohorts _ => cohorts.Nodup
  | _ => True

/-- A statement, and how it goes. -/
abbrev CohortAct := CohortOp × Circumstance

def CohortAct.succeeds (act : CohortAct) : Prop :=
  act.2.failed = false

/-- What a statement makes of what is stored for a public key. -/
def CohortAct.effect (act : CohortAct) (pubkey : String) (before : Option StoredCohorts) :
    Option StoredCohorts :=
  if act.2.failed then before else act.1.effect pubkey before

theorem stored_after
    (whitelist : Whitelist)
    {act : CohortAct}
    (issued : act.1.Issued)
    (pubkey : String) :
    (Lib.Pool.after answerCohort whitelist act).stored pubkey =
      act.effect pubkey (whitelist.stored pubkey) := by
  obtain ⟨op, ⟨failed, now⟩⟩ := act
  have ifWritten : ∀ after : Whitelist, ∀ effect : Option StoredCohorts,
      after.stored pubkey = effect →
        (written whitelist after failed).1.stored pubkey =
          if failed then whitelist.stored pubkey else effect := by
    intro after effect same
    cases failed with
    | true => rfl
    | false => exact same
  cases op with
  | admin op =>
      obtain ⟨target, rfl⟩ := issued
      simp [Lib.Pool.after, answerCohort, answer, CohortAct.effect, CohortOp.effect]
  | now => simp [Lib.Pool.after, answerCohort, CohortAct.effect, CohortOp.effect]
  | grantCohorts target cohorts addedAt addedBy =>
      exact ifWritten _ _ (stored_grantCohorts target cohorts addedAt addedBy)
  | updateCohorts target add remove addedAt addedBy =>
      exact ifWritten _ _ (stored_updateCohorts target add remove addedAt addedBy)
  | insertOrIgnore row => exact ifWritten _ _ (stored_insertOrIgnore row)
  | mergeCohorts cohorts target =>
      exact ifWritten _ _
        (stored_updateWhere target _ _ (StoredCohorts.merge cohorts) fun _ => rfl)

/-! ## What is granted and revoked -/

namespace CohortAct

/-- A statement grants a cohort to a public key whose row stores something. -/
def Grants (act : CohortAct) (pubkey : String) (before : Option StoredCohorts)
    (cohort : String) : Prop :=
  act.succeeds ∧
    match act.1 with
    | .grantCohorts target cohorts _ _ => target = pubkey ∧ cohort ∈ cohorts
    | .updateCohorts target add _ _ _ => target = pubkey ∧ cohort ∈ add
    | .insertOrIgnore row => row.pubkey = pubkey ∧ before = none ∧ cohort ∈ row.cohorts.held
    | .mergeCohorts cohorts target => target = pubkey ∧ before.isSome ∧ cohort ∈ cohorts
    | _ => False

/-- A statement revokes a cohort of a public key. -/
def Revokes (act : CohortAct) (pubkey : String) (cohort : String) : Prop :=
  act.succeeds ∧
    match act.1 with
    | .updateCohorts target _ remove _ _ => target = pubkey ∧ cohort ∈ remove
    | _ => False

/-- An addition to the whitelist names no cohort twice. -/
def AddsDistinct (act : CohortAct) : Prop :=
  match act.1 with
  | .grantCohorts _ cohorts _ _ => cohorts.Nodup
  | _ => True

end CohortAct

section Effects

variable {before : Option StoredCohorts} {cohort pubkey : String}

@[simp] theorem held_none : held none = [] :=
  rfl

@[simp] theorem held_some (stored : StoredCohorts) : held (some stored) = stored.held :=
  rfl

theorem mem_held_grant
    {stored : StoredCohorts}
    {granted : List String} :
    cohort ∈ (stored.grant granted).held ↔ cohort ∈ stored.held ∨ cohort ∈ granted := by
  cases stored with
  | array values =>
      simp only [StoredCohorts.grant, StoredCohorts.held, List.mem_append, List.mem_filter,
        decide_eq_true_eq]
      tauto
  | nonArray values => simp [StoredCohorts.grant, StoredCohorts.held]
  | invalid text => simp [StoredCohorts.grant, StoredCohorts.held]

theorem mem_held_revoke
    {stored : StoredCohorts}
    {named : List String} :
    cohort ∈ (stored.revoke named).held ↔ cohort ∈ stored.held ∧ cohort ∉ named := by
  cases stored <;> simp [StoredCohorts.revoke, StoredCohorts.held]

theorem mem_held_merge
    {stored : StoredCohorts}
    {granted : List String} :
    cohort ∈ (stored.merge granted).held ↔ cohort ∈ stored.elements ∨ cohort ∈ granted :=
  mem_unionRows

/-- What `WHITELIST_GRANT_COHORTS_SQL` makes of a row, or of none. -/
theorem mem_held_granted
    {granted : List String} :
    cohort ∈ held (some ((before.map (StoredCohorts.grant granted)).getD (.array granted))) ↔
      cohort ∈ held before ∨ cohort ∈ granted := by
  cases before with
  | none => simp [StoredCohorts.held]
  | some stored => exact mem_held_grant

theorem mem_held_revoked
    {named : List String} :
    cohort ∈ held (before.map (StoredCohorts.revoke named)) ↔
      cohort ∈ held before ∧ cohort ∉ named := by
  cases before with
  | none => simp
  | some stored => exact mem_held_revoke

/-- An update adds what it grants and removes what it names. -/
theorem mem_held_update
    (add remove : List String)
    (addedAt : Int)
    (addedBy : String) :
    cohort ∈ held (CohortOp.effect pubkey (.updateCohorts pubkey add remove addedAt addedBy)
        before) ↔
      (cohort ∈ held before ∨ cohort ∈ add) ∧ cohort ∉ remove := by
  have granted : cohort ∈ held (if add = [] then before
      else some ((before.map (StoredCohorts.grant add)).getD (.array add))) ↔
        cohort ∈ held before ∨ cohort ∈ add := by
    split
    · rename_i nothing
      simp [nothing]
    · exact mem_held_granted
  rw [CohortOp.effect, if_pos rfl]
  dsimp only
  split
  · rename_i nothing
    rw [granted, nothing]
    simp
  · rw [mem_held_revoked, granted]

/-- An update creates a row only when it grants something. -/
theorem isSome_update
    (add remove : List String)
    (addedAt : Int)
    (addedBy : String) :
    (CohortOp.effect pubkey (.updateCohorts pubkey add remove addedAt addedBy) before).isSome ↔
      before.isSome ∨ add ≠ [] := by
  rw [CohortOp.effect, if_pos rfl]
  dsimp only
  by_cases noAdd : add = []
  · rw [if_pos noAdd]
    split
    · simp [noAdd]
    · simp [noAdd]
  · rw [if_neg noAdd]
    split
    · simp [noAdd]
    · simp [noAdd]

variable {act : CohortAct}

theorem effect_of_succeeds
    (succeeds : act.succeeds) :
    act.effect pubkey before = act.1.effect pubkey before := by
  rw [CohortAct.effect, succeeds]
  rfl

theorem held_of_grants
    (issued : act.1.Issued)
    (grants : act.Grants pubkey before cohort) :
    cohort ∈ held (act.effect pubkey before) := by
  obtain ⟨succeeds, granted⟩ := grants
  rw [effect_of_succeeds succeeds]
  obtain ⟨op, choice⟩ := act
  cases op with
  | admin op => cases granted
  | now => cases granted
  | grantCohorts target cohorts addedAt addedBy =>
      obtain ⟨rfl, isGranted⟩ := granted
      rw [CohortOp.effect, if_pos rfl]
      exact mem_held_granted.mpr (.inr isGranted)
  | updateCohorts target add remove addedAt addedBy =>
      obtain ⟨rfl, isGranted⟩ := granted
      rw [mem_held_update]
      exact ⟨.inr isGranted, issued.2 cohort isGranted⟩
  | insertOrIgnore row =>
      obtain ⟨rfl, rfl, isGranted⟩ := granted
      rw [CohortOp.effect, if_pos rfl]
      exact isGranted
  | mergeCohorts cohorts target =>
      obtain ⟨rfl, isSome, isGranted⟩ := granted
      obtain ⟨stored, rfl⟩ := Option.isSome_iff_exists.mp isSome
      rw [CohortOp.effect, if_pos rfl]
      exact mem_held_merge.mpr (.inr isGranted)

/-- A cohort is held until a statement revokes it. -/
theorem held_of_held
    (issued : act.1.Issued)
    (isHeld : cohort ∈ held before)
    (kept : ¬act.Revokes pubkey cohort) :
    cohort ∈ held (act.effect pubkey before) := by
  unfold CohortAct.effect
  split
  · exact isHeld
  · rename_i notFailed
    have succeeds : act.succeeds := eq_false_of_ne_true notFailed
    obtain ⟨op, choice⟩ := act
    cases op with
    | admin op => exact isHeld
    | now => exact isHeld
    | grantCohorts target cohorts addedAt addedBy =>
        rw [CohortOp.effect]
        split
        · exact mem_held_granted.mpr (.inl isHeld)
        · exact isHeld
    | updateCohorts target add remove addedAt addedBy =>
        by_cases isTarget : target = pubkey
        · rw [isTarget, mem_held_update]
          exact ⟨.inl isHeld, fun named => kept ⟨succeeds, isTarget, named⟩⟩
        · rw [CohortOp.effect, if_neg isTarget]
          exact isHeld
    | insertOrIgnore row =>
        rw [CohortOp.effect]
        split
        · cases before with
          | none => cases isHeld
          | some stored => exact isHeld
        · exact isHeld
    | mergeCohorts cohorts target =>
        rw [CohortOp.effect]
        split
        · cases before with
          | none => cases isHeld
          | some stored =>
              cases stored with
              | array values => exact mem_held_merge.mpr (.inl isHeld)
              | nonArray values => cases isHeld
              | invalid text => cases isHeld
        · exact isHeld

/-- No statement of these removes a row. -/
theorem isSome_effect
    (isSome : before.isSome) :
    (act.effect pubkey before).isSome := by
  obtain ⟨stored, rfl⟩ := Option.isSome_iff_exists.mp isSome
  unfold CohortAct.effect
  split
  · rfl
  · cases act.1 with
    | admin op => rfl
    | now => rfl
    | grantCohorts target cohorts addedAt addedBy =>
        rw [CohortOp.effect]
        split <;> rfl
    | updateCohorts target add remove addedAt addedBy =>
        by_cases isTarget : target = pubkey
        · rw [isTarget]
          exact (isSome_update add remove addedAt addedBy).mpr (.inl rfl)
        · rw [CohortOp.effect, if_neg isTarget]
          rfl
    | insertOrIgnore row =>
        rw [CohortOp.effect]
        split <;> rfl
    | mergeCohorts cohorts target =>
        rw [CohortOp.effect]
        split <;> rfl

theorem nodup_grant
    {stored : StoredCohorts}
    {granted : List String}
    (distinct : stored.held.Nodup)
    (grantedDistinct : granted.Nodup) :
    (stored.grant granted).held.Nodup := by
  cases stored with
  | array values =>
      apply List.nodup_append.mpr
      refine ⟨distinct, grantedDistinct.filter _, ?_⟩
      intro first isHeld second isNew same
      rw [List.mem_filter, decide_eq_true_eq] at isNew
      rw [same] at isHeld
      exact isNew.2 isHeld
  | nonArray values => exact grantedDistinct
  | invalid text => exact grantedDistinct

theorem nodup_granted
    {granted : List String}
    (distinct : (held before).Nodup)
    (grantedDistinct : granted.Nodup) :
    (held (some ((before.map (StoredCohorts.grant granted)).getD (.array granted)))).Nodup := by
  cases before with
  | none => exact grantedDistinct
  | some stored => exact nodup_grant distinct grantedDistinct

theorem nodup_revoked
    {named : List String}
    (distinct : (held before).Nodup) :
    (held (before.map (StoredCohorts.revoke named))).Nodup := by
  cases before with
  | none => exact List.nodup_nil
  | some stored =>
      cases stored with
      | array values => exact distinct.filter _
      | nonArray values => exact distinct
      | invalid text => exact distinct

/-- Statements that repeat no cohort leave lists without repetition. -/
theorem nodup_effect
    (issued : act.1.Issued)
    (addsDistinct : act.AddsDistinct)
    (distinct : (held before).Nodup) :
    (held (act.effect pubkey before)).Nodup := by
  unfold CohortAct.effect
  split
  · exact distinct
  · obtain ⟨op, choice⟩ := act
    cases op with
    | admin op => exact distinct
    | now => exact distinct
    | grantCohorts target cohorts addedAt addedBy =>
        rw [CohortOp.effect]
        split
        · exact nodup_granted distinct addsDistinct
        · exact distinct
    | updateCohorts target add remove addedAt addedBy =>
        rw [CohortOp.effect]
        split
        · dsimp only
          have granted : (held (if add = [] then before
              else some ((before.map (StoredCohorts.grant add)).getD (.array add)))).Nodup := by
            split
            · exact distinct
            · exact nodup_granted distinct issued.1
          split
          · exact granted
          · exact nodup_revoked granted
        · exact distinct
    | insertOrIgnore row =>
        rw [CohortOp.effect]
        split
        · cases before with
          | none =>
              obtain ⟨cohorts, isArray, cohortsDistinct⟩ := issued
              rw [Option.getD_none, held_some, isArray]
              exact cohortsDistinct
          | some stored => exact distinct
        · exact distinct
    | mergeCohorts cohorts target =>
        rw [CohortOp.effect]
        split
        · cases before with
          | none => exact List.nodup_nil
          | some stored => exact nodup_unionRows _ _
        · exact distinct

end Effects

/-! ## What the handlers perform -/

section Handlers

theorem nodup_newJoinerCohorts (zones : List ZoneMeta) : (newJoinerCohorts zones).Nodup :=
  nodup_pushNew (List.nodup_singleton _) _

theorem issued_requireAdmin
    (isStaticAdmin : String → Bool)
    (tokenPubkey : String) :
    (requireAdmin isStaticAdmin tokenPubkey).Always CohortOp.Issued := by
  have looksUp : (requireNip98Admin isStaticAdmin tokenPubkey).Always
      fun op => ∃ pubkey, op = .selectIsAdmin pubkey := by
    unfold requireNip98Admin queryIsAdmin
    split
    · trivial
    · exact Lib.Program.always_call ⟨tokenPubkey, rfl⟩ fun _ => trivial
  exact Lib.Program.always_embed looksUp fun _ isLookup => isLookup

theorem issued_handleWhitelistAdd
    (isStaticAdmin : String → Bool)
    (tokenPubkey : String)
    (body : WhitelistAddBody) :
    (handleWhitelistAdd isStaticAdmin tokenPubkey body).Always CohortOp.Issued := by
  apply Lib.Program.always_bind (issued_requireAdmin isStaticAdmin tokenPubkey)
  intro denied
  cases denied with
  | some reply => trivial
  | none =>
      cases target : validTarget body.pubkey with
      | none => trivial
      | some pubkey =>
          exact Lib.Program.always_call trivial fun _ =>
            Lib.Program.always_call trivial fun _ => trivial

/-- A change that is accepted repeats no cohort and does not grant and revoke one. -/
theorem distinct_of_cohortChange
    {add remove legacyCohorts : Option (List String)}
    {change : CohortChange}
    (accepted : cohortChange add remove legacyCohorts = .ok change) :
    change.add.Nodup ∧ ∀ cohort ∈ change.add, cohort ∉ change.remove := by
  unfold cohortChange at accepted
  dsimp only at accepted
  split at accepted
  · cases accepted
  · split at accepted
    · cases accepted
    · rename_i notBoth
      rw [← Except.ok.inj accepted]
      refine ⟨nodup_pushNew List.nodup_nil _, ?_⟩
      simpa using notBoth

theorem issued_handleWhitelistUpdateCohorts
    (isStaticAdmin : String → Bool)
    (tokenPubkey : String)
    (body : WhitelistUpdateCohortsBody) :
    (handleWhitelistUpdateCohorts isStaticAdmin tokenPubkey body).Always CohortOp.Issued := by
  apply Lib.Program.always_bind (issued_requireAdmin isStaticAdmin tokenPubkey)
  intro denied
  cases denied with
  | some reply => trivial
  | none =>
      cases target : validTarget body.pubkey with
      | none => trivial
      | some pubkey =>
          dsimp only
          cases changed : cohortChange body.add body.remove body.cohorts with
          | error message => trivial
          | ok change =>
              exact Lib.Program.always_call trivial fun _ =>
                Lib.Program.always_call (distinct_of_cohortChange changed) fun _ => trivial

theorem issued_grantZoneCohorts
    (pubkey : String)
    (zoneCohorts : List String) :
    (grantZoneCohorts pubkey zoneCohorts).Always CohortOp.Issued := by
  have distinct : (pushNew ["members"] zoneCohorts).Nodup :=
    nodup_pushNew (List.nodup_singleton _) _
  unfold grantZoneCohorts
  split
  · trivial
  · exact Lib.Program.always_call trivial fun _ =>
      Lib.Program.always_call ⟨_, rfl, distinct⟩ fun _ =>
        Lib.Program.always_call distinct fun _ => trivial

theorem issued_handleCohorts
    (isStaticAdmin : String → Bool)
    (zones : List ZoneMeta)
    (request : CohortRequest) :
    (handleCohorts isStaticAdmin zones request).Always CohortOp.Issued := by
  cases request with
  | whitelistAdd tokenPubkey body => exact issued_handleWhitelistAdd isStaticAdmin tokenPubkey body
  | updateCohorts tokenPubkey body =>
      exact issued_handleWhitelistUpdateCohorts isStaticAdmin tokenPubkey body
  | zoneInvite pubkey zoneCohorts =>
      exact Lib.Program.always_bind (issued_grantZoneCohorts pubkey zoneCohorts) fun _ => trivial
  | usernameClaim pubkey now =>
      exact Lib.Program.always_call ⟨_, rfl, nodup_newJoinerCohorts zones⟩ fun _ => trivial

end Handlers

/-! ## Runs -/

abbrev CohortMove := Lib.Move CohortRequest Circumstance

/-- What some statements make of a whitelist, one after the other. -/
def afterAll (whitelist : Whitelist) (acts : List CohortAct) : Whitelist :=
  Lib.run (Lib.Pool.after answerCohort) whitelist acts

section Runs

variable {whitelist : Whitelist} {acts : List CohortAct} {pubkey cohort : String}

theorem afterAll_append (first second : List CohortAct) :
    whitelist.afterAll (first ++ second) = (whitelist.afterAll first).afterAll second :=
  Lib.run_append _ _ _ _

theorem stored_afterAll_cons
    {act : CohortAct}
    (issued : act.1.Issued) :
    (whitelist.afterAll [act]).stored pubkey = act.effect pubkey (whitelist.stored pubkey) :=
  stored_after whitelist issued pubkey

/-- A cohort is held until some statement revokes it. -/
theorem heldBy_afterAll
    (issued : ∀ act ∈ acts, act.1.Issued)
    (isHeld : cohort ∈ whitelist.heldBy pubkey)
    (kept : ∀ act ∈ acts, ¬CohortAct.Revokes act pubkey cohort) :
    cohort ∈ (whitelist.afterAll acts).heldBy pubkey := by
  induction acts generalizing whitelist with
  | nil => exact isHeld
  | cons act acts inductionHypothesis =>
      have actIssued := issued act (List.mem_cons_self ..)
      rw [← List.singleton_append, afterAll_append]
      apply inductionHypothesis
      · exact fun other isOther => issued other (List.mem_cons_of_mem _ isOther)
      · rw [heldBy, stored_afterAll_cons actIssued]
        exact held_of_held actIssued isHeld (kept act (List.mem_cons_self ..))
      · exact fun other isOther => kept other (List.mem_cons_of_mem _ isOther)

theorem isSome_afterAll
    (issued : ∀ act ∈ acts, act.1.Issued)
    (isSome : (whitelist.stored pubkey).isSome) :
    ((whitelist.afterAll acts).stored pubkey).isSome := by
  induction acts generalizing whitelist with
  | nil => exact isSome
  | cons act acts inductionHypothesis =>
      rw [← List.singleton_append, afterAll_append]
      apply inductionHypothesis fun other isOther => issued other (List.mem_cons_of_mem _ isOther)
      rw [stored_afterAll_cons (issued act (List.mem_cons_self ..))]
      exact isSome_effect isSome

theorem nodup_afterAll
    (issued : ∀ act ∈ acts, act.1.Issued)
    (addsDistinct : ∀ act ∈ acts, CohortAct.AddsDistinct act)
    (distinct : (whitelist.heldBy pubkey).Nodup) :
    ((whitelist.afterAll acts).heldBy pubkey).Nodup := by
  induction acts generalizing whitelist with
  | nil => exact distinct
  | cons act acts inductionHypothesis =>
      have actIssued := issued act (List.mem_cons_self ..)
      rw [← List.singleton_append, afterAll_append]
      apply inductionHypothesis
      · exact fun other isOther => issued other (List.mem_cons_of_mem _ isOther)
      · exact fun other isOther => addsDistinct other (List.mem_cons_of_mem _ isOther)
      · rw [heldBy, stored_afterAll_cons actIssued]
        exact nodup_effect actIssued (addsDistinct act (List.mem_cons_self ..)) distinct

end Runs

/-- What some statements do to the cohorts of a public key, as set operations. -/
structure SetOperations (start : Whitelist) (acts : List CohortAct) (pubkey : String) : Prop where
  /-- What is granted and not revoked later is held in the end. -/
  granted : ∀ before act later cohort, acts = before ++ act :: later →
    CohortAct.Grants act pubkey ((start.afterAll before).stored pubkey) cohort →
      (∀ other ∈ later, ¬CohortAct.Revokes other pubkey cohort) →
        cohort ∈ (start.afterAll acts).heldBy pubkey
  /-- It is held once, when neither the first list nor an addition repeats a cohort. -/
  once : (start.heldBy pubkey).Nodup → (∀ act ∈ acts, CohortAct.AddsDistinct act) →
    ((start.afterAll acts).heldBy pubkey).Nodup
  /-- An update adds what it grants and removes what it names, and nothing else. -/
  updated : ∀ before act later add remove addedAt addedBy, acts = before ++ act :: later →
    act.1 = .updateCohorts pubkey add remove addedAt addedBy → CohortAct.succeeds act →
      ∀ cohort, cohort ∈ (start.afterAll (before ++ [act])).heldBy pubkey ↔
        (cohort ∈ (start.afterAll before).heldBy pubkey ∨ cohort ∈ add) ∧ cohort ∉ remove
  /-- A revoke creates no row. -/
  created : ∀ before act later add remove addedAt addedBy, acts = before ++ act :: later →
    act.1 = .updateCohorts pubkey add remove addedAt addedBy → CohortAct.succeeds act →
      (((start.afterAll (before ++ [act])).stored pubkey).isSome ↔
        ((start.afterAll before).stored pubkey).isSome ∨ add ≠ [])
  /-- A row stays, so that a merge after it was ensured finds it. -/
  kept : ∀ before later, acts = before ++ later → ((start.afterAll before).stored pubkey).isSome →
    ((start.afterAll acts).stored pubkey).isSome

/-- Whatever the interleaving, the statements of the requests act on the cohorts of each
public key as set operations; and the two merges leave the same set for an array and for
what is not JSON. -/
theorem cohorts_are_sets
    (isStaticAdmin : String → Bool)
    (zones : List ZoneMeta)
    (start : Whitelist)
    (moves : List CohortMove)
    (pubkey : String) :
    (Lib.run (Lib.Pool.step (handleCohorts isStaticAdmin zones) answerCohort)
        (Lib.Pool.idle start) moves).state =
      start.afterAll (Lib.Pool.performed (handleCohorts isStaticAdmin zones) answerCohort
        (Lib.Pool.idle start) moves) ∧
    SetOperations start (Lib.Pool.performed (handleCohorts isStaticAdmin zones) answerCohort
      (Lib.Pool.idle start) moves) pubkey ∧
    ∀ stored : StoredCohorts, ∀ granted cohort, (∀ values, stored ≠ .nonArray values) →
      (cohort ∈ (stored.grant granted).held ↔ cohort ∈ (stored.merge granted).held) := by
  have issued : ∀ act ∈ Lib.Pool.performed (handleCohorts isStaticAdmin zones) answerCohort
      (Lib.Pool.idle start) moves, act.1.Issued := by
    intro act isPerformed
    exact Lib.Pool.performed_allowed (issued_handleCohorts isStaticAdmin zones)
      (by rintro task ⟨⟩) isPerformed
  refine ⟨Lib.Pool.state_run _ _, ?_, ?_⟩
  · generalize Lib.Pool.performed (handleCohorts isStaticAdmin zones) answerCohort
      (Lib.Pool.idle start) moves = acts at issued
    have stepped : ∀ before act later, acts = before ++ act :: later →
        act.1.Issued ∧ (start.afterAll (before ++ [act])).stored pubkey =
          CohortAct.effect act pubkey ((start.afterAll before).stored pubkey) := by
      intro before act later isSplit
      have actIssued := issued act (by simp [isSplit])
      rw [afterAll_append, stored_afterAll_cons actIssued]
      exact ⟨actIssued, rfl⟩
    refine ⟨?_, fun distinct addsDistinct => nodup_afterAll issued addsDistinct distinct,
      ?_, ?_, ?_⟩
    · intro before act later cohort isSplit grants kept
      obtain ⟨actIssued, isEffect⟩ := stepped before act later isSplit
      have isHeld : cohort ∈ (start.afterAll (before ++ [act])).heldBy pubkey := by
        rw [heldBy, isEffect]
        exact held_of_grants actIssued grants
      rw [isSplit, List.append_cons, afterAll_append]
      refine heldBy_afterAll ?_ isHeld kept
      exact fun other isOther => issued other (by simp [isSplit, isOther])
    · intro before act later add remove addedAt addedBy isSplit isUpdate succeeds cohort
      rw [heldBy, (stepped before act later isSplit).2, effect_of_succeeds succeeds, isUpdate]
      exact mem_held_update add remove addedAt addedBy
    · intro before act later add remove addedAt addedBy isSplit isUpdate succeeds
      rw [(stepped before act later isSplit).2, effect_of_succeeds succeeds, isUpdate]
      exact isSome_update add remove addedAt addedBy
    · intro before later isSplit isSome
      rw [isSplit, afterAll_append]
      refine isSome_afterAll ?_ isSome
      exact fun other isOther => issued other (by simp [isSplit, isOther])
  · intro stored granted cohort readable
    rw [mem_held_grant, mem_held_merge]
    cases stored with
    | array values => rfl
    | nonArray values => exact absurd rfl (readable values)
    | invalid text => rfl

/-- A member who redeemed an invite to a zone and then claims a username. -/
def inviteThenClaim : List CohortMove :=
  [.start (.zoneInvite "cafe" ["zone2"]), .advance 0 ⟨false, 0⟩, .advance 0 ⟨false, 0⟩,
    .advance 0 ⟨false, 0⟩, .start (.usernameClaim "cafe" 1), .advance 1 ⟨false, 1⟩]

/-- A zone that new joiners are approved for. -/
def approvedZones : List ZoneMeta :=
  [⟨"friends-zone", ["friends"], true⟩]

/-- The claim's insert finds the row and grants nothing; and the two merges leave
different lists. -/
theorem claim_grants_nothing :
    let final := (Lib.run (Lib.Pool.step (handleCohorts (fun _ => false) approvedZones)
      answerCohort) (Lib.Pool.idle Lib.Table.empty) inviteThenClaim).state
    "friends" ∈ newJoinerCohorts approvedZones ∧ "friends" ∉ heldBy final "cafe" ∧
      StoredCohorts.grant ["b"] (.array ["z"]) ≠ StoredCohorts.merge ["b"] (.array ["z"]) := by
  decide +kernel

end Whitelist
end NostrBbs
