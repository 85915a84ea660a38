import Mathlib.Data.Finset.Max
import NostrBbs.Lib.Replay

/-!
# Patches of a record

A record is created with values of all its fields, and patched with values of some.  It
keeps one stamp, of the patch that came last, and of the patches that come before it only
the newest.  What it ends as is independent of the order of its inputs exactly when the
newest patches agree with one another, and leave no field out that another patch changed.
-/

namespace Lib

/-- Values of all fields, from a moment on. -/
structure Base (Field Value : Type*) where
  stamp : Nat
  values : Field → Value

/-- Values of some fields, of a moment. -/
structure Patch (Field Value : Type*) where
  stamp : Nat
  values : Field → Option Value

/-- A record is created or patched. -/
inductive Part (Field Value : Type*)
  | base (base : Base Field Value)
  | patch (patch : Patch Field Value)

/-- A record, the stamp of the patch that it took last, and the newest of the patches that
came before it. -/
structure Slot (Field Value : Type*) where
  base : Option (Base Field Value)
  latest : Option Nat
  pending : Option (Patch Field Value)

variable {Field Value Input : Type*}

/-- What a patch makes of a field. -/
def Patch.over (patch : Patch Field Value) (base : Base Field Value) (field : Field) : Value :=
  (patch.values field).getD (base.values field)

namespace Slot

/-- Nothing came. -/
def start : Slot Field Value :=
  ⟨none, none, none⟩

/-- A patch is taken unless it is older than the one before. -/
def fold (slot : Slot Field Value) (patch : Patch Field Value) : Option (Slot Field Value) :=
  match slot.base with
  | none => none
  | some base =>
      if patch.stamp < slot.latest.getD base.stamp then none
      else
        some { slot with
          base := some { base with values := patch.over base }
          latest := some patch.stamp }

/-- A patch that was not taken is kept when it is newer than the one kept. -/
def buffer (slot : Slot Field Value) (patch : Patch Field Value) : Slot Field Value :=
  match slot.pending with
  | none => { slot with pending := some patch }
  | some existing =>
      if existing.stamp ≥ patch.stamp then slot else { slot with pending := some patch }

/-- The next part: only the first creation counts, and takes the patch that was kept. -/
def next (slot : Slot Field Value) : Part Field Value → Slot Field Value
  | .patch patch => (slot.fold patch).getD (slot.buffer patch)
  | .base base =>
      match slot.base with
      | some _ => slot
      | none =>
          let created := { slot with base := some base, pending := none }
          match slot.pending with
          | none => created
          | some patch => (created.fold patch).getD created

end Slot

/-! ## What the inputs say -/

section Inputs

variable (part : Input → Option (Part Field Value))

def Slot.step (slot : Slot Field Value) (input : Input) : Slot Field Value :=
  ((part input).map slot.next).getD slot

/-- The record after some inputs. -/
def Slot.after (order : List Input) : Slot Field Value :=
  order.foldl (Slot.step part) Slot.start

def HasBase (inputs : Set Input) (base : Base Field Value) : Prop :=
  ∃ input ∈ inputs, part input = some (.base base)

def HasPatch (inputs : Set Input) (patch : Patch Field Value) : Prop :=
  ∃ input ∈ inputs, part input = some (.patch patch)

/-- A patch that is not older than the record. -/
def Eligible (inputs : Set Input) (base : Base Field Value) (patch : Patch Field Value) : Prop :=
  HasPatch part inputs patch ∧ base.stamp ≤ patch.stamp

/-- A patch of the record that none is newer than. -/
def Newest (inputs : Set Input) (base : Base Field Value) (patch : Patch Field Value) : Prop :=
  Eligible part inputs base patch ∧
    ∀ other, Eligible part inputs base other → other.stamp ≤ patch.stamp

/-- What a newest patch makes of a field, or the creation's value when there is no patch. -/
def Settled (inputs : Set Input) (base : Base Field Value) (field : Field) (value : Value) : Prop :=
  (∃ patch, Newest part inputs base patch ∧ value = patch.over base field) ∨
    (∀ patch, ¬Eligible part inputs base patch) ∧ value = base.values field

/-- The value that the newest patch with the field has, or the creation's when none has it. -/
def Current (inputs : Set Input) (base : Base Field Value) (field : Field) (value : Value) : Prop :=
  (∃ patch, Eligible part inputs base patch ∧ patch.values field = some value ∧
      ∀ other, Eligible part inputs base other → (other.values field).isSome →
        other.stamp ≤ patch.stamp) ∨
    (∀ patch, Eligible part inputs base patch → patch.values field = none) ∧
      value = base.values field

/-- The newest patches agree on every field, and a field that they all leave out is given no
value but the creation's by any patch. -/
structure NewestDecide (inputs : Set Input) : Prop where
  agree : ∀ base other field value otherValue, HasBase part inputs base →
    HasBase part inputs other → Settled part inputs base field value →
    Settled part inputs other field otherValue → value = otherValue
  unchanged : ∀ base patch field value, HasBase part inputs base →
    Eligible part inputs base patch → patch.values field = some value →
    (∃ newest, Newest part inputs base newest ∧ (newest.values field).isSome) ∨
      value = base.values field

end Inputs

section Rules

variable {part : Input → Option (Part Field Value)} {inputs : List Input} {all seen : Set Input}
  {base : Base Field Value} {patch : Patch Field Value} {field : Field} {value : Value}
  {slot : Slot Field Value}

/-- The patch that an input is. -/
def patchOf (part : Input → Option (Part Field Value)) (input : Input) :
    Option (Patch Field Value) :=
  match part input with
  | some (.patch patch) => some patch
  | _ => none

theorem patchOf_eq_some_iff
    (input : Input) :
    patchOf part input = some patch ↔ part input = some (.patch patch) := by
  unfold patchOf
  split
  · rename_i taken isPatch
    rw [isPatch, Option.some.injEq, Option.some.injEq, Part.patch.injEq]
  · rename_i noPatch
    exact iff_of_false (fun isSome => by cases isSome) (noPatch patch)

/-- Among the patches of a kind there is one that none is newer than. -/
theorem exists_greatest
    {Holds : Patch Field Value → Prop}
    (arePatches : ∀ patch, Holds patch → HasPatch part {input | input ∈ inputs} patch)
    (holds : Holds patch) :
    ∃ newest, Holds newest ∧ ∀ other, Holds other → other.stamp ≤ newest.stamp := by
  classical
  have mem_iff : ∀ other, other ∈ (inputs.filterMap (patchOf part)).toFinset.filter Holds ↔
      Holds other := by
    intro other
    rw [Finset.mem_filter, List.mem_toFinset, List.mem_filterMap]
    refine ⟨fun isMember => isMember.2, fun isKind => ⟨?_, isKind⟩⟩
    obtain ⟨input, isInput, isPatch⟩ := arePatches other isKind
    exact ⟨input, isInput, (patchOf_eq_some_iff input).mpr isPatch⟩
  obtain ⟨newest, isMember, greatest⟩ := Finset.exists_max_image _ (fun other => other.stamp)
    ⟨patch, (mem_iff patch).mpr holds⟩
  exact ⟨newest, (mem_iff newest).mp isMember, fun other isOther =>
    greatest other ((mem_iff other).mpr isOther)⟩

theorem exists_newest
    (eligible : Eligible part {input | input ∈ inputs} base patch) :
    ∃ newest, Newest part {input | input ∈ inputs} base newest :=
  exists_greatest (fun _ isEligible => isEligible.1) eligible

theorem exists_settled
    (part : Input → Option (Part Field Value))
    (inputs : List Input)
    (base : Base Field Value)
    (field : Field) :
    ∃ value, Settled part {input | input ∈ inputs} base field value := by
  by_cases noPatch : ∀ patch, ¬Eligible part {input | input ∈ inputs} base patch
  · exact ⟨base.values field, .inr ⟨noPatch, rfl⟩⟩
  · push Not at noPatch
    obtain ⟨patch, eligible⟩ := noPatch
    obtain ⟨newest, isNewest⟩ := exists_newest eligible
    exact ⟨newest.over base field, .inl ⟨newest, isNewest, rfl⟩⟩

theorem Newest.settled
    (isNewest : Newest part all base patch)
    (field : Field) :
    Settled part all base field (patch.over base field) :=
  .inl ⟨patch, isNewest, rfl⟩

theorem Patch.over_of_some
    (isValue : patch.values field = some value) :
    patch.over base field = value := by
  unfold Patch.over
  rw [isValue, Option.getD_some]

theorem Patch.over_of_none
    (noValue : patch.values field = none) :
    patch.over base field = base.values field := by
  unfold Patch.over
  rw [noValue, Option.getD_none]

/-! ## The record in every order -/

/-- Before the creation the newest patch is kept. -/
structure Unborn (part : Input → Option (Part Field Value)) (seen : Set Input)
    (slot : Slot Field Value) : Prop where
  noBase : ∀ base, ¬HasBase part seen base
  isNone : slot.base = none
  noLatest : slot.latest = none
  pending : ∀ patch, slot.pending = some patch → HasPatch part seen patch
  kept : ∀ patch, HasPatch part seen patch →
    ∃ newest, slot.pending = some newest ∧ patch.stamp ≤ newest.stamp

/-- After the creation a field has the creation's value or that of a patch, and what the
newest patches decide as soon as one of them came. -/
structure Born (part : Input → Option (Part Field Value)) (all seen : Set Input)
    (created held : Base Field Value) (slot : Slot Field Value) : Prop where
  isCreated : HasBase part seen created
  isHeld : slot.base = some held
  sameStamp : held.stamp = created.stamp
  fromPatch : ∀ stamp, slot.latest = some stamp →
    ∃ patch, Eligible part seen created patch ∧ patch.stamp = stamp
  upTo : ∀ patch, Eligible part seen created patch →
    ∃ stamp, slot.latest = some stamp ∧ patch.stamp ≤ stamp
  values : ∀ field, held.values field = created.values field ∨
    ∃ patch, Eligible part seen created patch ∧ patch.values field = some (held.values field)
  decided : ∀ field newest value, Newest part all created newest → HasPatch part seen newest →
    (newest.values field).isSome → Settled part all created field value →
    held.values field = value

theorem HasBase.mono
    (isBase : HasBase part seen base)
    (includes : seen ⊆ all) :
    HasBase part all base := by
  obtain ⟨input, isInput, isBase⟩ := isBase
  exact ⟨input, includes isInput, isBase⟩

theorem HasPatch.mono
    (isPatch : HasPatch part seen patch)
    (includes : seen ⊆ all) :
    HasPatch part all patch := by
  obtain ⟨input, isInput, isPatch⟩ := isPatch
  exact ⟨input, includes isInput, isPatch⟩

theorem Eligible.mono
    (eligible : Eligible part seen base patch)
    (includes : seen ⊆ all) :
    Eligible part all base patch :=
  ⟨eligible.1.mono includes, eligible.2⟩

theorem hasPatch_insert_iff
    (input : Input) :
    HasPatch part (insert input seen) patch ↔
      part input = some (.patch patch) ∨ HasPatch part seen patch := by
  simp [HasPatch, Set.mem_insert_iff, or_and_right, exists_or]

theorem hasBase_insert_iff
    (input : Input) :
    HasBase part (insert input seen) base ↔
      part input = some (.base base) ∨ HasBase part seen base := by
  simp [HasBase, Set.mem_insert_iff, or_and_right, exists_or]

theorem fold_eq_none
    (noBase : slot.base = none) :
    slot.fold patch = none := by
  unfold Slot.fold
  rw [noBase]

theorem fold_of_older
    (isBase : slot.base = some base)
    (older : patch.stamp < slot.latest.getD base.stamp) :
    slot.fold patch = none := by
  unfold Slot.fold
  rw [isBase]
  exact if_pos older

theorem fold_of_not_older
    (isBase : slot.base = some base)
    (notOlder : slot.latest.getD base.stamp ≤ patch.stamp) :
    slot.fold patch = some { slot with
      base := some { base with values := patch.over base }
      latest := some patch.stamp } := by
  unfold Slot.fold
  rw [isBase]
  exact if_neg (Nat.not_lt_of_le notOlder)

theorem next_of_refused
    (refused : slot.fold patch = none) :
    slot.next (.patch patch) = slot.buffer patch := by
  change (slot.fold patch).getD (slot.buffer patch) = _
  rw [refused, Option.getD_none]

theorem next_of_taken
    {after : Slot Field Value}
    (taken : slot.fold patch = some after) :
    slot.next (.patch patch) = after := by
  change (slot.fold patch).getD (slot.buffer patch) = _
  rw [taken, Option.getD_some]

theorem next_of_created
    {held : Base Field Value}
    (isHeld : slot.base = some held) :
    slot.next (.base base) = slot := by
  unfold Slot.next
  rw [isHeld]

@[simp] theorem buffer_base
    (slot : Slot Field Value)
    (patch : Patch Field Value) :
    (slot.buffer patch).base = slot.base := by
  unfold Slot.buffer
  split
  · rfl
  · split <;> rfl

@[simp] theorem buffer_latest
    (slot : Slot Field Value)
    (patch : Patch Field Value) :
    (slot.buffer patch).latest = slot.latest := by
  unfold Slot.buffer
  split
  · rfl
  · split <;> rfl

/-- The patch that is kept is the newer of the two, the earlier one of equals. -/
theorem buffer_pending
    (slot : Slot Field Value)
    (patch : Patch Field Value) :
    (slot.buffer patch).pending = some patch ∧
        (∀ kept, slot.pending = some kept → kept.stamp ≤ patch.stamp) ∨
      ∃ kept, slot.pending = some kept ∧ (slot.buffer patch).pending = some kept ∧
        patch.stamp ≤ kept.stamp := by
  unfold Slot.buffer
  cases isPending : slot.pending with
  | none => exact .inl ⟨rfl, fun kept isKept => by cases isKept⟩
  | some existing =>
      dsimp only
      split
      · rename_i newer
        exact .inr ⟨existing, rfl, isPending, newer⟩
      · rename_i older
        refine .inl ⟨rfl, fun kept isKept => ?_⟩
        cases isKept
        omega

theorem Unborn.buffered
    (unborn : Unborn part seen slot)
    {input : Input}
    (isPatch : part input = some (.patch patch)) :
    Unborn part (insert input seen) (slot.next (.patch patch)) := by
  rw [next_of_refused (fold_eq_none unborn.isNone)]
  have kept := buffer_pending slot patch
  constructor
  case noBase =>
    intro base isBase
    rcases (hasBase_insert_iff input).mp isBase with isInput | wasBase
    · cases isPatch.symm.trans isInput
    · exact unborn.noBase base wasBase
  case isNone => exact (buffer_base slot patch).trans unborn.isNone
  case noLatest => exact (buffer_latest slot patch).trans unborn.noLatest
  case pending =>
    intro other isPending
    rw [hasPatch_insert_iff]
    rcases kept with ⟨isKept, -⟩ | ⟨existing, wasKept, isKept, -⟩
    · cases isKept.symm.trans isPending
      exact .inl isPatch
    · cases isKept.symm.trans isPending
      exact .inr (unborn.pending _ wasKept)
  case kept =>
    intro other isOther
    rcases (hasPatch_insert_iff input).mp isOther with isInput | wasOther
    · cases isPatch.symm.trans isInput
      rcases kept with ⟨isKept, -⟩ | ⟨existing, -, isKept, newer⟩
      · exact ⟨patch, isKept, le_rfl⟩
      · exact ⟨existing, isKept, newer⟩
    · obtain ⟨existing, wasKept, newer⟩ := unborn.kept other wasOther
      rcases kept with ⟨isKept, older⟩ | ⟨same, isSame, isKept, -⟩
      · exact ⟨patch, isKept, newer.trans (older existing wasKept)⟩
      · cases isSame.symm.trans wasKept
        exact ⟨existing, isKept, newer⟩

/-- An input that brings no new patch changes nothing that is said of a record. -/
theorem Born.congr
    {created held : Base Field Value}
    {after : Slot Field Value}
    {others : Set Input}
    (born : Born part all seen created held slot)
    (sameBase : after.base = slot.base)
    (sameLatest : after.latest = slot.latest)
    (includes : seen ⊆ others)
    (samePatches : ∀ patch, HasPatch part others patch → HasPatch part seen patch) :
    Born part all others created held after := by
  have sameEligible : ∀ patch, Eligible part others created patch →
      Eligible part seen created patch :=
    fun patch eligible => ⟨samePatches patch eligible.1, eligible.2⟩
  constructor
  case isCreated => exact born.isCreated.mono includes
  case isHeld => exact sameBase.trans born.isHeld
  case sameStamp => exact born.sameStamp
  case fromPatch =>
    intro stamp isLatest
    obtain ⟨patch, eligible, isStamp⟩ := born.fromPatch stamp (sameLatest.symm.trans isLatest)
    exact ⟨patch, eligible.mono includes, isStamp⟩
  case upTo =>
    intro patch eligible
    rw [sameLatest]
    exact born.upTo patch (sameEligible patch eligible)
  case values =>
    intro field
    refine (born.values field).imp_right ?_
    rintro ⟨patch, eligible, isValue⟩
    exact ⟨patch, eligible.mono includes, isValue⟩
  case decided =>
    intro field newest value isNewest isPatch
    exact born.decided field newest value isNewest (samePatches newest isPatch)

/-- The stamp below which a record refuses patches. -/
theorem Born.baseline
    {created held : Base Field Value}
    (born : Born part all seen created held slot) :
    created.stamp ≤ slot.latest.getD held.stamp := by
  cases isLatest : slot.latest with
  | none => exact Nat.le_of_eq born.sameStamp.symm
  | some stamp =>
      obtain ⟨patch, eligible, isStamp⟩ := born.fromPatch stamp isLatest
      rw [← isStamp]
      exact eligible.2

/-- A patch that is not older than the last is taken. -/
theorem Born.taken
    {created held : Base Field Value}
    (born : Born part all seen created held slot)
    (decide : NewestDecide part all)
    (includes : seen ⊆ all)
    {input : Input}
    (isInput : input ∈ all)
    (isPatch : part input = some (.patch patch))
    (notOlder : slot.latest.getD held.stamp ≤ patch.stamp) :
    Born part all (insert input seen) created { held with values := patch.over held }
      { slot with
        base := some { held with values := patch.over held }
        latest := some patch.stamp } := by
  have eligible : Eligible part (insert input seen) created patch :=
    ⟨(hasPatch_insert_iff input).mpr (.inl isPatch), born.baseline.trans notOlder⟩
  have within : insert input seen ⊆ all := Set.insert_subset isInput includes
  have subset := Set.subset_insert input seen
  have later : ∀ other, Eligible part seen created other → other.stamp ≤ patch.stamp := by
    intro other isEligible
    obtain ⟨stamp, isLatest, below⟩ := born.upTo other isEligible
    rw [isLatest, Option.getD_some] at notOlder
    exact below.trans notOlder
  constructor
  case isCreated => exact born.isCreated.mono subset
  case isHeld => rfl
  case sameStamp => exact born.sameStamp
  case fromPatch =>
    intro stamp isLatest
    exact ⟨patch, eligible, Option.some.inj isLatest⟩
  case upTo =>
    intro other isEligible
    refine ⟨patch.stamp, rfl, ?_⟩
    rcases (hasPatch_insert_iff input).mp isEligible.1 with isOther | wasOther
    · cases isPatch.symm.trans isOther
      exact le_rfl
    · exact later other ⟨wasOther, isEligible.2⟩
  case values =>
    intro field
    cases isValue : patch.values field with
    | some value =>
        exact .inr ⟨patch, eligible,
          isValue.trans (congrArg some (Patch.over_of_some isValue).symm)⟩
    | none =>
        dsimp only
        rw [Patch.over_of_none isValue]
        refine (born.values field).imp_right ?_
        rintro ⟨other, isEligible, otherValue⟩
        exact ⟨other, isEligible.mono subset, otherValue⟩
  case decided =>
    intro field newest value isNewest newestSeen carries settled
    dsimp only
    have isLast : Newest part all created patch := by
      refine ⟨eligible.mono within, fun other isEligible => ?_⟩
      refine (isNewest.2 other isEligible).trans ?_
      rcases (hasPatch_insert_iff input).mp newestSeen with isSame | wasSeen
      · cases isPatch.symm.trans isSame
        exact le_rfl
      · exact later newest ⟨wasSeen, isNewest.1.2⟩
    have isCreated : HasBase part all created := (born.isCreated.mono subset).mono within
    cases isValue : patch.values field with
    | some carried =>
        have settles : Settled part all created field carried := by
          rw [← show patch.over created field = carried from Patch.over_of_some isValue]
          exact isLast.settled field
        rw [Patch.over_of_some isValue]
        exact decide.agree created created field carried value isCreated isCreated settles settled
    | none =>
        rw [Patch.over_of_none isValue]
        rcases (hasPatch_insert_iff input).mp newestSeen with isSame | wasSeen
        · cases isPatch.symm.trans isSame
          rw [isValue] at carries
          cases carries
        · exact born.decided field newest value isNewest wasSeen carries settled

/-- A patch that is older than the last changes nothing. -/
theorem Born.refused
    {created held : Base Field Value}
    (born : Born part all seen created held slot)
    (includes : seen ⊆ all)
    {input : Input}
    (isPatch : part input = some (.patch patch))
    (older : patch.stamp < slot.latest.getD held.stamp) :
    Born part all (insert input seen) created held (slot.buffer patch) := by
  have subset := Set.subset_insert input seen
  have eligible_or : ∀ other, Eligible part (insert input seen) created other →
      other = patch ∨ Eligible part seen created other := by
    intro other isEligible
    rcases (hasPatch_insert_iff input).mp isEligible.1 with isOther | wasOther
    · cases isPatch.symm.trans isOther
      exact .inl rfl
    · exact .inr ⟨wasOther, isEligible.2⟩
  -- Only an eligible patch is younger than the creation, so one came before this.
  have refusing : created.stamp ≤ patch.stamp →
      ∃ last, Eligible part seen created last ∧ slot.latest = some last.stamp ∧
        patch.stamp < last.stamp := by
    intro isEligible
    cases isLatest : slot.latest with
    | none =>
        rw [isLatest, Option.getD_none, born.sameStamp] at older
        omega
    | some stamp =>
        obtain ⟨last, lastEligible, rfl⟩ := born.fromPatch stamp isLatest
        rw [isLatest, Option.getD_some] at older
        exact ⟨last, lastEligible, rfl, older⟩
  constructor
  case isCreated => exact born.isCreated.mono subset
  case isHeld => exact (buffer_base slot patch).trans born.isHeld
  case sameStamp => exact born.sameStamp
  case fromPatch =>
    intro stamp isLatest
    rw [buffer_latest] at isLatest
    obtain ⟨other, eligible, isStamp⟩ := born.fromPatch stamp isLatest
    exact ⟨other, eligible.mono subset, isStamp⟩
  case upTo =>
    intro other isEligible
    rw [buffer_latest]
    rcases eligible_or other isEligible with rfl | wasEligible
    · obtain ⟨last, -, isLatest, later⟩ := refusing isEligible.2
      exact ⟨last.stamp, isLatest, Nat.le_of_lt later⟩
    · exact born.upTo other wasEligible
  case values =>
    intro field
    refine (born.values field).imp_right ?_
    rintro ⟨other, eligible, isValue⟩
    exact ⟨other, eligible.mono subset, isValue⟩
  case decided =>
    intro field newest value isNewest newestSeen
    rcases (hasPatch_insert_iff input).mp newestSeen with isSame | wasSeen
    · cases isPatch.symm.trans isSame
      obtain ⟨last, lastEligible, -, later⟩ := refusing isNewest.1.2
      have notLater := isNewest.2 last (lastEligible.mono includes)
      omega
    · exact born.decided field newest value isNewest wasSeen

/-- The creation takes the patch that was kept. -/
theorem Unborn.created
    (unborn : Unborn part seen slot)
    (decide : NewestDecide part all)
    (includes : seen ⊆ all)
    {input : Input}
    (isInput : input ∈ all)
    (isBase : part input = some (.base base)) :
    ∃ held, Born part all (insert input seen) base held (slot.next (.base base)) := by
  have subset := Set.subset_insert input seen
  have created : HasBase part (insert input seen) base :=
    (hasBase_insert_iff input).mpr (.inl isBase)
  have samePatches : ∀ other, HasPatch part (insert input seen) other → HasPatch part seen other := by
    intro other isOther
    rcases (hasPatch_insert_iff input).mp isOther with isSame | wasOther
    · cases isBase.symm.trans isSame
    · exact wasOther
  -- The record as it is before it takes the patch.
  have fresh : (∀ other, ¬Eligible part (insert input seen) base other) →
      Born part all (insert input seen) base base
        { slot with base := some base, pending := none } := by
    intro noPatch
    constructor
    case isCreated => exact created
    case isHeld => rfl
    case sameStamp => rfl
    case fromPatch =>
      intro stamp isLatest
      cases unborn.noLatest.symm.trans isLatest
    case upTo => exact fun other eligible => absurd eligible (noPatch other)
    case values => exact fun field => .inl rfl
    case decided =>
      intro field newest value isNewest newestSeen
      exact absurd ⟨newestSeen, isNewest.1.2⟩ (noPatch newest)
  unfold Slot.next
  rw [unborn.isNone]
  dsimp only
  cases isPending : slot.pending with
  | none =>
      refine ⟨base, fresh fun other eligible => ?_⟩
      obtain ⟨kept, isKept, -⟩ := unborn.kept other (samePatches other eligible.1)
      cases isPending.symm.trans isKept
  | some kept =>
      have keptSeen := unborn.pending kept isPending
      have keptNewest : ∀ other, HasPatch part (insert input seen) other →
          other.stamp ≤ kept.stamp := by
        intro other isOther
        obtain ⟨same, isSame, below⟩ := unborn.kept other (samePatches other isOther)
        cases isPending.symm.trans isSame
        exact below
      dsimp only
      by_cases older : kept.stamp < base.stamp
      · refine ⟨base, ?_⟩
        rw [fold_of_older rfl (by rw [unborn.noLatest]; exact older)]
        refine fresh fun other eligible => ?_
        have below := keptNewest other eligible.1
        have notBelow := eligible.2
        omega
      · rw [fold_of_not_older rfl (by rw [unborn.noLatest]; exact Nat.le_of_not_lt older)]
        have eligible : Eligible part (insert input seen) base kept :=
          ⟨keptSeen.mono subset, Nat.le_of_not_lt older⟩
        have within : insert input seen ⊆ all := Set.insert_subset isInput includes
        refine ⟨{ base with values := kept.over base }, ?_⟩
        constructor
        case isCreated => exact created
        case isHeld => rfl
        case sameStamp => rfl
        case fromPatch =>
          intro stamp isLatest
          exact ⟨kept, eligible, Option.some.inj isLatest⟩
        case upTo => exact fun other isOther => ⟨kept.stamp, rfl, keptNewest other isOther.1⟩
        case values =>
          intro field
          cases isValue : kept.values field with
          | some value =>
              exact .inr ⟨kept, eligible,
                isValue.trans (congrArg some (Patch.over_of_some isValue).symm)⟩
          | none => exact .inl (Patch.over_of_none isValue)
        case decided =>
          intro field newest value isNewest newestSeen carries settled
          have isLast : Newest part all base kept := ⟨eligible.mono within,
            fun other isOther => (isNewest.2 other isOther).trans (keptNewest newest newestSeen)⟩
          exact decide.agree base base field _ value (created.mono within) (created.mono within)
            (isLast.settled field) settled

/-- What some inputs make of a record. -/
def Describes (part : Input → Option (Part Field Value)) (all seen : Set Input)
    (slot : Slot Field Value) : Prop :=
  Unborn part seen slot ∨ ∃ created held, Born part all seen created held slot

theorem Describes.step
    (describes : Describes part all seen slot)
    (decide : NewestDecide part all)
    (includes : seen ⊆ all)
    {input : Input}
    (isInput : input ∈ all) :
    Describes part all (insert input seen) (slot.step part input) := by
  unfold Slot.step
  cases isPart : part input with
  | none =>
      have samePatches : ∀ patch, HasPatch part (insert input seen) patch →
          HasPatch part seen patch :=
        fun patch isPatch => ((hasPatch_insert_iff input).mp isPatch).resolve_left
          (by rw [isPart]; rintro ⟨⟩)
      rcases describes with unborn | ⟨created, held, born⟩
      · refine .inl ⟨fun base isBase => ?_, unborn.isNone, unborn.noLatest, ?_, ?_⟩
        · exact unborn.noBase base (((hasBase_insert_iff input).mp isBase).resolve_left
            (by rw [isPart]; rintro ⟨⟩))
        · exact fun patch isPending =>
            (unborn.pending patch isPending).mono (Set.subset_insert input seen)
        · exact fun patch isPatch => unborn.kept patch (samePatches patch isPatch)
      · exact .inr ⟨created, held,
          born.congr rfl rfl (Set.subset_insert input seen) samePatches⟩
  | some taken =>
      cases taken with
      | patch patch =>
          rcases describes with unborn | ⟨created, held, born⟩
          · exact .inl (unborn.buffered isPart)
          · by_cases older : patch.stamp < slot.latest.getD held.stamp
            · refine .inr ⟨created, held, ?_⟩
              rw [Option.map_some, Option.getD_some,
                next_of_refused (fold_of_older born.isHeld older)]
              exact born.refused includes isPart older
            · have notOlder := Nat.le_of_not_lt older
              refine .inr ⟨created, { held with values := patch.over held }, ?_⟩
              rw [Option.map_some, Option.getD_some,
                next_of_taken (fold_of_not_older born.isHeld notOlder)]
              exact born.taken decide includes isInput isPart notOlder
      | base base =>
          rcases describes with unborn | ⟨created, held, born⟩
          · obtain ⟨held, born⟩ := unborn.created decide includes isInput isPart
            exact .inr ⟨base, held, born⟩
          · refine .inr ⟨created, held, ?_⟩
            rw [Option.map_some, Option.getD_some, next_of_created born.isHeld]
            refine born.congr rfl rfl (Set.subset_insert input seen) fun patch isPatch => ?_
            exact ((hasPatch_insert_iff input).mp isPatch).resolve_left (by rw [isPart]; rintro ⟨⟩)

theorem describes_after
    {order : List Input}
    (decide : NewestDecide part {input | input ∈ inputs})
    (same : SameInputs order inputs) :
    Describes part {input | input ∈ inputs} {input | input ∈ inputs} (Slot.after part order) := by
  have start : Describes part {input | input ∈ inputs} ∅ Slot.start := by
    refine .inl ⟨?_, rfl, rfl, ?_, ?_⟩
    · rintro base ⟨input, ⟨⟩, -⟩
    · rintro patch ⟨⟩
    · rintro patch ⟨input, ⟨⟩, -⟩
  have described := describes_foldl (Slot.step part)
    (fun seen slot => seen ⊆ {input | input ∈ inputs} →
      Describes part {input | input ∈ inputs} seen slot)
    order (fun _ => start) fun later current input isInput _ describes within => by
      have isMember : input ∈ {input | input ∈ inputs} := (same input).mp isInput
      have laterWithin := (Set.subset_insert input later).trans within
      exact (describes laterWithin).step decide laterWithin isMember
  have sameSet : (∅ : Set Input) ∪ {input | input ∈ order} = {input | input ∈ inputs} := by
    rw [Set.empty_union]
    exact Set.ext same
  rw [sameSet] at described
  exact described subset_rfl

/-- What a record ends as: what the newest patches decide. -/
theorem Born.settled
    {created held : Base Field Value}
    (born : Born part all all created held slot)
    (decide : NewestDecide part all)
    (settled : Settled part all created field value) :
    held.values field = value := by
  by_cases carried : ∃ newest, Newest part all created newest ∧ (newest.values field).isSome
  · obtain ⟨newest, isNewest, carries⟩ := carried
    exact born.decided field newest value isNewest isNewest.1.1 carries settled
  · have unchanged : held.values field = created.values field := by
      rcases born.values field with isCreated | ⟨patch, eligible, isValue⟩
      · exact isCreated
      · exact (decide.unchanged created patch field _ born.isCreated eligible isValue).resolve_left
          carried
    rcases settled with ⟨newest, isNewest, rfl⟩ | ⟨-, rfl⟩
    · have noValue : newest.values field = none := by
        rw [← Option.not_isSome_iff_eq_none]
        exact fun carries => carried ⟨newest, isNewest, carries⟩
      rw [unchanged, Patch.over_of_none noValue]
    · exact unchanged

/-- What the newest patches decide is what the newest patch with the field has. -/
theorem Settled.current
    (decide : NewestDecide part {input | input ∈ inputs})
    (isBase : HasBase part {input | input ∈ inputs} base)
    (settled : Settled part {input | input ∈ inputs} base field value) :
    Current part {input | input ∈ inputs} base field value := by
  by_cases carried : ∃ newest, Newest part {input | input ∈ inputs} base newest ∧
      (newest.values field).isSome
  · obtain ⟨newest, isNewest, carries⟩ := carried
    obtain ⟨carriedValue, isCarried⟩ := Option.isSome_iff_exists.mp carries
    have same := decide.agree base base field _ _ isBase isBase (isNewest.settled field) settled
    rw [Patch.over_of_some isCarried] at same
    rw [same] at isCarried
    exact .inl ⟨newest, isNewest.1, isCarried, fun other eligible _ => isNewest.2 other eligible⟩
  · have isCreated : value = base.values field := by
      rcases settled with ⟨newest, isNewest, rfl⟩ | ⟨-, rfl⟩
      · apply Patch.over_of_none
        rw [← Option.not_isSome_iff_eq_none]
        exact fun carries => carried ⟨newest, isNewest, carries⟩
      · rfl
    by_cases someCarrier : ∃ patch, Eligible part {input | input ∈ inputs} base patch ∧
        (patch.values field).isSome
    · obtain ⟨patch, carrier⟩ := someCarrier
      obtain ⟨last, lastCarrier, greatest⟩ : ∃ last,
          (Eligible part {input | input ∈ inputs} base last ∧ (last.values field).isSome) ∧
            ∀ other, Eligible part {input | input ∈ inputs} base other ∧
              (other.values field).isSome → other.stamp ≤ last.stamp :=
        exists_greatest (fun _ isCarrier => isCarrier.1.1) carrier
      obtain ⟨lastValue, isLast⟩ := Option.isSome_iff_exists.mp lastCarrier.2
      have unchanged := (decide.unchanged base last field lastValue isBase lastCarrier.1
        isLast).resolve_left carried
      rw [unchanged, ← isCreated] at isLast
      exact .inl ⟨last, lastCarrier.1, isLast, fun other eligible carries =>
        greatest other ⟨eligible, carries⟩⟩
    · refine .inr ⟨fun patch eligible => ?_, isCreated⟩
      rw [← Option.not_isSome_iff_eq_none]
      exact fun carries => someCarrier ⟨patch, eligible, carries⟩

/-! ## Orders that part the patches -/

theorem Slot.step_of_patch
    {input : Input}
    (isPatch : part input = some (.patch patch)) :
    slot.step part input = slot.next (.patch patch) := by
  unfold Slot.step
  rw [isPatch]
  rfl

theorem Slot.step_of_base
    {input : Input}
    (isBase : part input = some (.base base)) :
    slot.step part input = slot.next (.base base) := by
  unfold Slot.step
  rw [isBase]
  rfl

/-- The inputs that are patches. -/
def patches (part : Input → Option (Part Field Value)) (inputs : List Input) : List Input :=
  inputs.filter fun input => (patchOf part input).isSome

/-- The inputs that are none. -/
def others (part : Input → Option (Part Field Value)) (inputs : List Input) : List Input :=
  inputs.filter fun input => !(patchOf part input).isSome

theorem mem_patches_or_others
    (part : Input → Option (Part Field Value))
    (inputs : List Input)
    (input : Input) :
    input ∈ inputs ↔ input ∈ patches part inputs ∨ input ∈ others part inputs := by
  simp only [patches, others, List.mem_filter, Bool.not_eq_true', ← and_or_left]
  exact (and_iff_left (Bool.eq_false_or_eq_true _)).symm

/-- While only patches come, none newer than the one that is kept, that one is kept. -/
theorem foldl_patches
    (notNewer : ∀ other, HasPatch part {input | input ∈ inputs} other → other.stamp ≤ patch.stamp) :
    (patches part inputs).foldl (Slot.step part) ⟨none, none, some patch⟩ =
      ⟨none, none, some patch⟩ := by
  have arePatches : ∀ input ∈ patches part inputs, ∃ other,
      part input = some (.patch other) ∧ other.stamp ≤ patch.stamp := by
    intro input isInput
    obtain ⟨isMember, isPatch⟩ := List.mem_filter.mp isInput
    obtain ⟨other, isOther⟩ := Option.isSome_iff_exists.mp isPatch
    have isPart := (patchOf_eq_some_iff input).mp isOther
    exact ⟨other, isPart, notNewer other ⟨input, isMember, isPart⟩⟩
  generalize patches part inputs = order at arePatches
  induction order with
  | nil => rfl
  | cons input order inductionHypothesis =>
      obtain ⟨other, isPart, below⟩ := arePatches input List.mem_cons_self
      rw [List.foldl_cons, Slot.step_of_patch isPart, next_of_refused (fold_eq_none rfl)]
      have same : Slot.buffer ⟨none, none, some patch⟩ other = ⟨none, none, some patch⟩ :=
        if_pos below
      rw [same]
      exact inductionHypothesis fun later isLater =>
        arePatches later (List.mem_cons_of_mem input isLater)

/-- What comes beside the patches leaves a record as it is. -/
theorem foldl_others
    {held : Base Field Value}
    (isHeld : slot.base = some held) :
    (others part inputs).foldl (Slot.step part) slot = slot := by
  have noPatches : ∀ input ∈ others part inputs, ∀ other, part input ≠ some (.patch other) := by
    intro input isInput other isPart
    have noPatch := (List.mem_filter.mp isInput).2
    rw [(patchOf_eq_some_iff input).mpr isPart] at noPatch
    cases noPatch
  generalize others part inputs = order at noPatches
  induction order with
  | nil => rfl
  | cons input order inductionHypothesis =>
      have same : slot.step part input = slot := by
        unfold Slot.step
        cases isPart : part input with
        | none => rfl
        | some taken =>
            cases taken with
            | base base => exact next_of_created isHeld
            | patch other => exact absurd isPart (noPatches input List.mem_cons_self other)
      rw [List.foldl_cons, same]
      exact inductionHypothesis fun later isLater =>
        noPatches later (List.mem_cons_of_mem input isLater)

/-- What each patch keeps of a record, any inputs keep of it. -/
theorem foldl_keeps
    (Keeps : Slot Field Value → Prop)
    (created : ∀ current, Keeps current → current.base.isSome)
    (keeps : ∀ current patch, HasPatch part {input | input ∈ inputs} patch → Keeps current →
      Keeps (current.next (.patch patch)))
    (start : Keeps slot) :
    Keeps (inputs.foldl (Slot.step part) slot) := by
  suffices kept : ∀ order : List Input, (∀ input ∈ order, input ∈ inputs) →
      ∀ current, Keeps current → Keeps (order.foldl (Slot.step part) current) by
    exact kept inputs (fun input isInput => isInput) slot start
  intro order areInputs
  induction order with
  | nil => exact fun current isKept => isKept
  | cons input order inductionHypothesis =>
      intro current isKept
      refine inductionHypothesis (fun later isLater =>
        areInputs later (List.mem_cons_of_mem input isLater)) _ ?_
      unfold Slot.step
      cases isPart : part input with
      | none => exact isKept
      | some taken =>
          cases taken with
          | base base =>
              obtain ⟨held, isHeld⟩ := Option.isSome_iff_exists.mp (created current isKept)
              rw [Option.map_some, Option.getD_some, next_of_created isHeld]
              exact isKept
          | patch other =>
              exact keeps current other ⟨input, areInputs input List.mem_cons_self, isPart⟩ isKept

/-- Any of the newest patches may be the one that decides. -/
theorem exists_order_settled
    (isBase : HasBase part {input | input ∈ inputs} base)
    (settled : Settled part {input | input ∈ inputs} base field value) :
    ∃ order, SameInputs order inputs ∧ ∃ held, (Slot.after part order).base = some held ∧
      held.values field = value := by
  obtain ⟨creation, isCreation, isBase⟩ := isBase
  rcases settled with ⟨newest, isNewest, rfl⟩ | ⟨noPatch, rfl⟩
  · obtain ⟨⟨⟨last, isLast, isPatch⟩, notOlder⟩, greatest⟩ := isNewest
    have notNewer : ∀ other, HasPatch part {input | input ∈ inputs} other →
        other.stamp ≤ newest.stamp := by
      intro other isOther
      by_cases eligible : base.stamp ≤ other.stamp
      · exact greatest other ⟨isOther, eligible⟩
      · omega
    refine ⟨[last] ++ (patches part inputs ++ ([creation] ++ others part inputs)), ?_, ?_⟩
    · intro input
      rw [mem_patches_or_others part inputs input]
      simp only [List.mem_append, List.mem_cons, List.not_mem_nil, or_false]
      constructor
      · rintro (rfl | isPatch | rfl | isOther)
        · exact (mem_patches_or_others part inputs _).mp isLast
        · exact .inl isPatch
        · exact (mem_patches_or_others part inputs _).mp isCreation
        · exact .inr isOther
      · exact fun isInput => .inr (isInput.imp_right .inr)
    · have buffered : Slot.start.step part last = ⟨none, none, some newest⟩ := by
        rw [Slot.step_of_patch isPatch]
        rfl
      have taken : Slot.step part ⟨none, none, some newest⟩ creation =
          ⟨some { base with values := newest.over base }, some newest.stamp, none⟩ := by
        have folded : Slot.fold ⟨some base, none, none⟩ newest =
            some ⟨some { base with values := newest.over base }, some newest.stamp, none⟩ :=
          fold_of_not_older rfl notOlder
        rw [Slot.step_of_base isBase]
        unfold Slot.next
        dsimp only
        rw [folded, Option.getD_some]
      unfold Slot.after
      rw [List.foldl_append, List.foldl_append, List.foldl_append, List.foldl_cons, List.foldl_nil,
        List.foldl_cons, List.foldl_nil, buffered, foldl_patches notNewer, taken, foldl_others rfl]
      exact ⟨_, rfl, rfl⟩
  · refine ⟨[creation] ++ inputs, ?_, ?_⟩
    · intro input
      simp only [List.mem_append, List.mem_cons, List.not_mem_nil, or_false]
      constructor
      · rintro (rfl | isInput)
        · exact isCreation
        · exact isInput
      · exact .inr
    · unfold Slot.after
      rw [List.foldl_append, List.foldl_cons, List.foldl_nil, Slot.step_of_base isBase]
      let Keeps : Slot Field Value → Prop := fun current =>
        current.base = some base ∧ current.latest = none
      have created : ∀ current, Keeps current → current.base.isSome := by
        rintro current ⟨isHeld, -⟩
        rw [isHeld]
        rfl
      have keeps : ∀ current other, HasPatch part {input | input ∈ inputs} other →
          Keeps current → Keeps (current.next (.patch other)) := by
        rintro current other isOther ⟨isHeld, noLatest⟩
        have older : other.stamp < base.stamp := by
          by_contra notOlder
          exact noPatch other ⟨isOther, Nat.le_of_not_lt notOlder⟩
        rw [next_of_refused (fold_of_older isHeld (by rw [noLatest]; exact older))]
        exact ⟨(buffer_base current other).trans isHeld, (buffer_latest current other).trans noLatest⟩
      exact ⟨base, (foldl_keeps Keeps created keeps ⟨rfl, rfl⟩).1, rfl⟩

/-- A field that the newest patches leave out may keep what an older one gave it. -/
theorem exists_order_changed
    (isBase : HasBase part {input | input ∈ inputs} base)
    (eligible : Eligible part {input | input ∈ inputs} base patch)
    (isValue : patch.values field = some value)
    (leftOut : ∀ newest, Newest part {input | input ∈ inputs} base newest →
      newest.values field = none) :
    ∃ order, SameInputs order inputs ∧ ∃ held, (Slot.after part order).base = some held ∧
      held.values field = value := by
  obtain ⟨newest, isNewest⟩ := exists_newest eligible
  obtain ⟨creation, isCreation, isBase⟩ := isBase
  have older := isNewest.2 patch eligible
  obtain ⟨⟨earlier, isEarlier, isPatch⟩, notOlder⟩ := eligible
  obtain ⟨last, isLast, isLastPatch⟩ := isNewest.1.1
  refine ⟨[creation, earlier, last] ++ inputs, ?_, ?_⟩
  · intro input
    simp only [List.mem_append, List.mem_cons, List.not_mem_nil, or_false]
    constructor
    · rintro ((rfl | rfl | rfl) | isInput)
      · exact isCreation
      · exact isEarlier
      · exact isLast
      · exact isInput
    · exact .inr
  · unfold Slot.after
    rw [List.foldl_append, List.foldl_cons, List.foldl_cons, List.foldl_cons, List.foldl_nil,
      Slot.step_of_base isBase, Slot.step_of_patch isPatch, Slot.step_of_patch isLastPatch]
    obtain ⟨patched, isPatched⟩ : ∃ patched : Base Field Value,
        patched = { base with values := patch.over base } := ⟨_, rfl⟩
    have first : (Slot.next Slot.start (.base base)).next (.patch patch) =
        ⟨some patched, some patch.stamp, none⟩ := by
      rw [isPatched]
      exact next_of_taken (fold_of_not_older rfl notOlder)
    have second : Slot.next ⟨some patched, some patch.stamp, none⟩ (.patch newest) =
        ⟨some { patched with values := newest.over patched }, some newest.stamp, none⟩ :=
      next_of_taken (fold_of_not_older rfl older)
    have isField : patched.values field = value := by
      rw [isPatched]
      exact Patch.over_of_some isValue
    rw [first, second]
    -- From here on only newest patches are taken, and they leave the field as it is.
    let Keeps : Slot Field Value → Prop := fun current =>
      current.latest = some newest.stamp ∧ ∃ held, current.base = some held ∧
        held.values field = value
    have created : ∀ current, Keeps current → current.base.isSome := by
      rintro current ⟨-, held, isHeld, -⟩
      rw [isHeld]
      rfl
    have keeps : ∀ current other, HasPatch part {input | input ∈ inputs} other →
        Keeps current → Keeps (current.next (.patch other)) := by
      rintro current other isOther ⟨isLatest, held, isHeld, isField⟩
      by_cases refused : other.stamp < newest.stamp
      · rw [next_of_refused (fold_of_older isHeld (by rw [isLatest]; exact refused))]
        exact ⟨(buffer_latest current other).trans isLatest, held,
          (buffer_base current other).trans isHeld, isField⟩
      · have notOlder := Nat.le_of_not_lt refused
        have eligible : Eligible part {input | input ∈ inputs} base other :=
          ⟨isOther, isNewest.1.2.trans notOlder⟩
        have sameStamp := Nat.le_antisymm (isNewest.2 other eligible) notOlder
        have otherNewest : Newest part {input | input ∈ inputs} base other :=
          ⟨eligible, fun later isLater => (isNewest.2 later isLater).trans notOlder⟩
        rw [next_of_taken (fold_of_not_older isHeld (by rw [isLatest]; exact notOlder))]
        refine ⟨congrArg some sameStamp, _, rfl, ?_⟩
        exact (Patch.over_of_none (leftOut other otherNewest)).trans isField
    exact (foldl_keeps Keeps created keeps
      ⟨rfl, _, rfl, (Patch.over_of_none (leftOut newest isNewest)).trans isField⟩).2

/-- The values that a record ends with. -/
def Slot.values (slot : Slot Field Value) : Option (Field → Value) :=
  slot.base.map Base.values

/-- In every order and with any repetition of the inputs a record ends with the same values,
each that of the newest patch with the field, exactly when the newest patches decide. -/
theorem newestDecide_iff
    (part : Input → Option (Part Field Value))
    (inputs : List Input) :
    ((∀ order other, SameInputs order inputs → SameInputs other inputs →
        (Slot.after part order).values = (Slot.after part other).values) ∧
      ∀ order, SameInputs order inputs → ∀ base, HasBase part {input | input ∈ inputs} base →
        ∃ values, (Slot.after part order).values = some values ∧
          ∀ field, Current part {input | input ∈ inputs} base field (values field)) ↔
      NewestDecide part {input | input ∈ inputs} := by
  constructor
  · rintro ⟨independent, -⟩
    have unique : ∀ {order other : List Input} {held otherHeld : Base Field Value} {field : Field},
        SameInputs order inputs → SameInputs other inputs →
        (Slot.after part order).base = some held → (Slot.after part other).base = some otherHeld →
        held.values field = otherHeld.values field := by
      intro order other held otherHeld field same otherSame isHeld isOther
      have sameValues := independent order other same otherSame
      unfold Slot.values at sameValues
      rw [isHeld, isOther, Option.map_some, Option.map_some, Option.some.injEq] at sameValues
      rw [sameValues]
    constructor
    case agree =>
      intro base otherBase field value otherValue isBase isOther settled otherSettled
      obtain ⟨order, same, held, isHeld, rfl⟩ := exists_order_settled isBase settled
      obtain ⟨other, otherSame, otherHeld, isOtherHeld, rfl⟩ :=
        exists_order_settled isOther otherSettled
      exact unique same otherSame isHeld isOtherHeld
    case unchanged =>
      intro base patch field value isBase eligible isValue
      by_cases carried : ∃ newest, Newest part {input | input ∈ inputs} base newest ∧
          (newest.values field).isSome
      · exact .inl carried
      · right
        have leftOut : ∀ newest, Newest part {input | input ∈ inputs} base newest →
            newest.values field = none := by
          intro newest isNewest
          rw [← Option.not_isSome_iff_eq_none]
          exact fun carries => carried ⟨newest, isNewest, carries⟩
        obtain ⟨newest, isNewest⟩ := exists_newest eligible
        obtain ⟨order, same, held, isHeld, rfl⟩ :=
          exists_order_changed isBase eligible isValue leftOut
        obtain ⟨other, otherSame, otherHeld, isOtherHeld, settles⟩ :=
          exists_order_settled isBase (isNewest.settled field)
        rw [unique same otherSame isHeld isOtherHeld, settles,
          Patch.over_of_none (leftOut newest isNewest)]
  · intro decide
    have final : ∀ order, SameInputs order inputs →
        ((Slot.after part order).values = none ∧
          ∀ base, ¬HasBase part {input | input ∈ inputs} base) ∨
        ∃ created held, HasBase part {input | input ∈ inputs} created ∧
          (Slot.after part order).values = some held ∧
          ∀ field value, Settled part {input | input ∈ inputs} created field value →
            held field = value := by
      intro order same
      unfold Slot.values
      rcases describes_after decide same with unborn | ⟨created, held, born⟩
      · exact .inl ⟨by rw [unborn.isNone]; rfl, unborn.noBase⟩
      · refine .inr ⟨created, held.values, born.isCreated, by rw [born.isHeld]; rfl, ?_⟩
        exact fun field value settled => born.settled decide settled
    constructor
    · intro order other same otherSame
      rcases final order same with ⟨isNone, noBase⟩ | ⟨created, held, isCreated, isHeld, settles⟩
      · rcases final other otherSame with ⟨otherNone, -⟩ | ⟨created, held, isCreated, -⟩
        · rw [isNone, otherNone]
        · exact absurd isCreated (noBase created)
      · rcases final other otherSame with
          ⟨-, noBase⟩ | ⟨otherCreated, otherHeld, isOther, isOtherHeld, otherSettles⟩
        · exact absurd isCreated (noBase created)
        · rw [isHeld, isOtherHeld]
          refine congrArg some (funext fun field => ?_)
          obtain ⟨value, settled⟩ := exists_settled part inputs created field
          obtain ⟨otherValue, otherSettled⟩ :=
            exists_settled part inputs otherCreated field
          rw [settles field value settled, otherSettles field otherValue otherSettled]
          exact decide.agree created otherCreated field value otherValue isCreated isOther settled
            otherSettled
    · intro order same base isBase
      rcases final order same with ⟨-, noBase⟩ | ⟨created, held, isCreated, isHeld, settles⟩
      · exact absurd isBase (noBase base)
      · refine ⟨held, isHeld, fun field => ?_⟩
        obtain ⟨value, settled⟩ := exists_settled part inputs base field
        obtain ⟨createdValue, createdSettled⟩ :=
          exists_settled part inputs created field
        rw [settles field createdValue createdSettled,
          decide.agree created base field createdValue value isCreated isBase createdSettled settled]
        exact settled.current decide isBase

end Rules

end Lib
