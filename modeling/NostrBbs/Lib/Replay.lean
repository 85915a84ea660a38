import Mathlib.Data.Set.Insert
import Mathlib.Logic.Function.Basic
import Mathlib.Tactic.Tauto

/-!
# Deliveries in any order

Inputs reach a state one at a time, in any order and any number of times.  What
a state holds is described by the set of the inputs that it was given: when each
input keeps the description, two orders of the same inputs end in states that
one set describes.

Values come under ids, and ids are taken back.  A state that holds the values as a set,
and takes a value out with the first of its ids, holds those that have an id left in every
order exactly when the ids of a value are taken back together or not at all.
-/

namespace Lib

variable {Input State : Type*}

/-- What every input keeps describes the state after all of them. -/
theorem describes_foldl
    (step : State → Input → State)
    (Describes : Set Input → State → Prop)
    (inputs : List Input)
    {seen : Set Input}
    {state : State}
    (start : Describes seen state)
    (keeps : ∀ (later : Set Input) (current : State), ∀ input ∈ inputs, seen ⊆ later →
      Describes later current → Describes (insert input later) (step current input)) :
    Describes (seen ∪ {input | input ∈ inputs}) (inputs.foldl step state) := by
  induction inputs generalizing seen state with
  | nil => simpa using start
  | cons input inputs inductionHypothesis =>
      have next := keeps seen state input List.mem_cons_self subset_rfl start
      have rest := inductionHypothesis next fun later current other isLater includes =>
        keeps later current other (List.mem_cons_of_mem _ isLater)
          ((Set.subset_insert input seen).trans includes)
      have sameInputs : insert input seen ∪ {other | other ∈ inputs} =
          seen ∪ {other | other ∈ input :: inputs} := by
        ext other
        simp only [Set.mem_union, Set.mem_insert_iff, Set.mem_ofPred_eq, List.mem_cons]
        tauto
      rw [← sameInputs]
      exact rest

/-- Two lists of the same inputs, in any order and with any repetition. -/
def SameInputs (order inputs : List Input) : Prop :=
  ∀ input, input ∈ order ↔ input ∈ inputs

/-! ## Values under ids -/

/-- A value comes under an id, or ids are taken back. -/
inductive Change (Id Value : Type*)
  | add (id : Id) (value : Value)
  | retract (ids : List Id)

/-- The values held, the value that came last under each id, and the ids taken back. -/
@[ext] structure Holding (Id Value : Type*) where
  held : Set Value
  index : Id → Option Value
  retracted : Set Id

section Holdings

open scoped Classical

variable {Id Value : Type*}

namespace Holding

/-- Nothing is held. -/
def start : Holding Id Value :=
  ⟨∅, fun _ => none, ∅⟩

/-- A value is held unless its id was taken back. -/
noncomputable def add (holding : Holding Id Value) (id : Id) (value : Value) : Holding Id Value :=
  if id ∈ holding.retracted then holding
  else
    { holding with
      held := insert value holding.held
      index := Function.update holding.index id (some value) }

/-- An id is taken back, and with it the value that came under it. -/
noncomputable def retractOne (holding : Holding Id Value) (id : Id) : Holding Id Value where
  held := holding.held \ {value | holding.index id = some value}
  index := Function.update holding.index id none
  retracted := insert id holding.retracted

noncomputable def change (holding : Holding Id Value) : Change Id Value → Holding Id Value
  | .add id value => holding.add id value
  | .retract ids => ids.foldl retractOne holding

end Holding

variable (change : Input → Option (Change Id Value))

/-- An input changes what is held, or does not. -/
noncomputable def Holding.step (holding : Holding Id Value) (input : Input) : Holding Id Value :=
  ((change input).map holding.change).getD holding

/-- What is held after some inputs. -/
noncomputable def Holding.after (order : List Input) : Holding Id Value :=
  order.foldl (Holding.step change) Holding.start

/-- A value comes under an id. -/
def Added (inputs : List Input) (id : Id) (value : Value) : Prop :=
  ∃ input ∈ inputs, change input = some (.add id value)

/-- An id is taken back. -/
def Retracted (inputs : List Input) (id : Id) : Prop :=
  ∃ input ∈ inputs, ∃ ids, change input = some (.retract ids) ∧ id ∈ ids

/-- A value has an id that is not taken back. -/
def Lives (inputs : List Input) (value : Value) : Prop :=
  ∃ id, Added change inputs id value ∧ ¬Retracted change inputs id

/-- With one id of a value all are taken back, and the id is of no other value. -/
def RetractedWhole (inputs : List Input) : Prop :=
  ∀ id value, Added change inputs id value → Retracted change inputs id →
    (∀ other, Added change inputs other value → Retracted change inputs other) ∧
      ∀ otherValue, Added change inputs id otherValue → otherValue = value

variable {change} {order inputs : List Input} {holding : Holding Id Value} {id : Id} {value : Value}

theorem added_cons
    (input : Input) :
    Added change (input :: order) id value ↔
      change input = some (.add id value) ∨ Added change order id value := by
  simp [Added]

theorem retracted_cons
    (input : Input) :
    Retracted change (input :: order) id ↔
      (∃ ids, change input = some (.retract ids) ∧ id ∈ ids) ∨ Retracted change order id := by
  simp [Retracted]

theorem SameInputs.added_iff
    (same : SameInputs order inputs) :
    Added change order id value ↔ Added change inputs id value := by
  unfold Added
  simp only [same _]

theorem SameInputs.retracted_iff
    (same : SameInputs order inputs) :
    Retracted change order id ↔ Retracted change inputs id := by
  unfold Retracted
  simp only [same _]

namespace Holding

@[simp] theorem retracted_add
    (holding : Holding Id Value)
    (id : Id)
    (value : Value) :
    (holding.add id value).retracted = holding.retracted := by
  unfold add
  split <;> rfl

theorem add_of_mem
    (isRetracted : id ∈ holding.retracted) :
    holding.add id value = holding :=
  if_pos isRetracted

theorem held_add
    (notRetracted : id ∉ holding.retracted) :
    (holding.add id value).held = insert value holding.held := by
  rw [add, if_neg notRetracted]

theorem index_add_self
    (notRetracted : id ∉ holding.retracted) :
    (holding.add id value).index id = some value := by
  rw [add, if_neg notRetracted]
  exact Function.update_self id (some value) holding.index

theorem index_add_of_ne
    {other : Id}
    (isOther : other ≠ id) :
    (holding.add id value).index other = holding.index other := by
  unfold add
  split
  · rfl
  · exact Function.update_of_ne isOther (some value) holding.index

theorem mem_held_retractOne :
    value ∈ (holding.retractOne id).held ↔ value ∈ holding.held ∧ holding.index id ≠ some value :=
  Iff.rfl

@[simp] theorem index_retractOne_self :
    (holding.retractOne id).index id = none := by
  unfold retractOne
  exact Function.update_self id none holding.index

theorem index_retractOne_of_ne
    {other : Id}
    (isOther : other ≠ id) :
    (holding.retractOne id).index other = holding.index other := by
  unfold retractOne
  exact Function.update_of_ne isOther none holding.index

end Holding

/-! ### What is held when values are taken back whole -/

/-- What holds in every order of some inputs, after those that were given so far. -/
structure Settles (change : Input → Option (Change Id Value)) (inputs : List Input)
    (gone : Set Id) (came : Id → Value → Prop) (holding : Holding Id Value) : Prop where
  retracted : holding.retracted = gone
  indexed : ∀ id value, holding.index id = some value → came id value ∧ id ∉ holding.retracted
  known : ∀ id value, came id value → Added change inputs id value
  taken : ∀ id ∈ gone, Retracted change inputs id
  /-- A value of which some id is taken back is held only while one of its ids is indexed. -/
  doomed : ∀ id value, Added change inputs id value → Retracted change inputs id →
    value ∈ holding.held → ∃ other, holding.index other = some value
  safe : ∀ value, (∀ id, Added change inputs id value → ¬Retracted change inputs id) →
    (value ∈ holding.held ↔ ∃ id, came id value)

theorem settles_start :
    Settles change inputs ∅ (fun _ _ => False) Holding.start := by
  constructor
  case retracted => rfl
  case indexed => rintro id value ⟨⟩
  case known => rintro id value ⟨⟩
  case taken => rintro id ⟨⟩
  case doomed => rintro id value - - ⟨⟩
  case safe =>
    intro value _
    exact iff_of_false (fun isHeld => by cases isHeld) fun ⟨_, isAdded⟩ => isAdded

theorem Settles.add
    {gone : Set Id}
    {came : Id → Value → Prop}
    (settles : Settles change inputs gone came holding)
    (whole : RetractedWhole change inputs)
    (isAdded : Added change inputs id value) :
    Settles change inputs gone
      (fun other otherValue => came other otherValue ∨ other = id ∧ otherValue = value)
      (holding.add id value) := by
  have known : ∀ other otherValue, came other otherValue ∨ other = id ∧ otherValue = value →
      Added change inputs other otherValue := by
    rintro other otherValue (wasAdded | ⟨rfl, rfl⟩)
    · exact settles.known other otherValue wasAdded
    · exact isAdded
  by_cases isRetracted : id ∈ holding.retracted
  · rw [Holding.add_of_mem isRetracted]
    have takenBack : Retracted change inputs id :=
      settles.taken id (settles.retracted ▸ isRetracted)
    constructor
    case retracted => exact settles.retracted
    case indexed =>
      intro other otherValue isIndexed
      exact (settles.indexed other otherValue isIndexed).imp_left .inl
    case known => exact known
    case taken => exact settles.taken
    case doomed => exact settles.doomed
    case safe =>
      intro otherValue isSafe
      rw [settles.safe otherValue isSafe]
      constructor
      · rintro ⟨other, wasAdded⟩
        exact ⟨other, .inl wasAdded⟩
      · rintro ⟨other, wasAdded | ⟨rfl, rfl⟩⟩
        · exact ⟨other, wasAdded⟩
        · exact absurd takenBack (isSafe other isAdded)
  · constructor
    case retracted => exact (Holding.retracted_add holding id value).trans settles.retracted
    case indexed =>
      intro other otherValue isIndexed
      rw [Holding.retracted_add]
      by_cases isSame : other = id
      · rw [isSame, Holding.index_add_self isRetracted] at isIndexed
        exact ⟨.inr ⟨isSame, (Option.some.inj isIndexed).symm⟩, isSame ▸ isRetracted⟩
      · rw [Holding.index_add_of_ne isSame] at isIndexed
        exact (settles.indexed other otherValue isIndexed).imp_left .inl
    case known => exact known
    case taken => exact settles.taken
    case doomed =>
      intro other otherValue otherAdded otherTaken isHeld
      rw [Holding.held_add isRetracted] at isHeld
      rcases isHeld with rfl | isHeld
      · exact ⟨id, Holding.index_add_self isRetracted⟩
      · obtain ⟨indexedId, isIndexed⟩ := settles.doomed other otherValue otherAdded otherTaken isHeld
        by_cases isSame : indexedId = id
        · -- The id is taken back with the others of the value, so it is of no other value.
          have indexedAdded := settles.known _ _ (settles.indexed _ _ isIndexed).1
          have indexedTaken := (whole other otherValue otherAdded otherTaken).1 _ indexedAdded
          rw [isSame] at indexedAdded indexedTaken
          rw [(whole id value isAdded indexedTaken).2 otherValue indexedAdded]
          exact ⟨id, Holding.index_add_self isRetracted⟩
        · exact ⟨indexedId, (Holding.index_add_of_ne isSame).trans isIndexed⟩
    case safe =>
      intro otherValue isSafe
      rw [Holding.held_add isRetracted, Set.mem_insert_iff, settles.safe otherValue isSafe]
      constructor
      · rintro (rfl | ⟨other, wasAdded⟩)
        · exact ⟨id, .inr ⟨rfl, rfl⟩⟩
        · exact ⟨other, .inl wasAdded⟩
      · rintro ⟨other, wasAdded | ⟨-, rfl⟩⟩
        · exact .inr ⟨other, wasAdded⟩
        · exact .inl rfl

theorem Settles.retractOne
    {gone : Set Id}
    {came : Id → Value → Prop}
    (settles : Settles change inputs gone came holding)
    (isRetracted : Retracted change inputs id) :
    Settles change inputs (insert id gone) came (holding.retractOne id) := by
  constructor
  case retracted => exact congrArg (insert id) settles.retracted
  case indexed =>
    intro other otherValue isIndexed
    by_cases isSame : other = id
    · rw [isSame, Holding.index_retractOne_self] at isIndexed
      cases isIndexed
    · rw [Holding.index_retractOne_of_ne isSame] at isIndexed
      obtain ⟨wasAdded, notRetracted⟩ := settles.indexed other otherValue isIndexed
      refine ⟨wasAdded, ?_⟩
      rintro (isId | wasRetracted)
      · exact isSame isId
      · exact notRetracted wasRetracted
  case known => exact settles.known
  case taken =>
    rintro other (rfl | wasRetracted)
    · exact isRetracted
    · exact settles.taken other wasRetracted
  case doomed =>
    intro other otherValue otherAdded otherTaken isHeld
    obtain ⟨isHeld, notIndexed⟩ := Holding.mem_held_retractOne.mp isHeld
    obtain ⟨indexedId, isIndexed⟩ := settles.doomed other otherValue otherAdded otherTaken isHeld
    have isOther : indexedId ≠ id := by
      rintro rfl
      exact notIndexed isIndexed
    exact ⟨indexedId, (Holding.index_retractOne_of_ne isOther).trans isIndexed⟩
  case safe =>
    intro otherValue isSafe
    rw [← settles.safe otherValue isSafe, Holding.mem_held_retractOne]
    constructor
    · exact fun isHeld => isHeld.1
    · refine fun isHeld => ⟨isHeld, fun isIndexed => ?_⟩
      have isAdded := settles.known _ _ (settles.indexed _ _ isIndexed).1
      exact isSafe id isAdded isRetracted

theorem Settles.retract
    {gone : Set Id}
    {came : Id → Value → Prop}
    (settles : Settles change inputs gone came holding)
    {ids : List Id}
    (areRetracted : ∀ id ∈ ids, Retracted change inputs id) :
    Settles change inputs (gone ∪ {id | id ∈ ids}) came
      (ids.foldl Holding.retractOne holding) := by
  induction ids generalizing gone holding with
  | nil => simpa using settles
  | cons id ids inductionHypothesis =>
      have next := settles.retractOne (areRetracted id List.mem_cons_self)
      have rest := inductionHypothesis next fun other isOther =>
        areRetracted other (List.mem_cons_of_mem id isOther)
      have sameIds : insert id gone ∪ {other | other ∈ ids} =
          gone ∪ {other | other ∈ id :: ids} := by
        ext other
        simp only [Set.mem_union, Set.mem_insert_iff, Set.mem_ofPred_eq, List.mem_cons]
        tauto
      rw [← sameIds]
      exact rest

theorem Settles.congr
    {gone others : Set Id}
    {came arrived : Id → Value → Prop}
    (settles : Settles change inputs gone came holding)
    (sameGone : ∀ id, id ∈ gone ↔ id ∈ others)
    (sameCame : ∀ id value, came id value ↔ arrived id value) :
    Settles change inputs others arrived holding := by
  obtain rfl : gone = others := Set.ext sameGone
  obtain rfl : came = arrived := funext fun id => funext fun value => propext (sameCame id value)
  exact settles

/-- Whatever the order, what is held settles. -/
theorem Settles.foldl
    {gone : Set Id}
    {came : Id → Value → Prop}
    (settles : Settles change inputs gone came holding)
    (whole : RetractedWhole change inputs)
    (areInputs : ∀ input ∈ order, input ∈ inputs) :
    Settles change inputs (gone ∪ {id | Retracted change order id})
      (fun id value => came id value ∨ Added change order id value)
      (order.foldl (Holding.step change) holding) := by
  induction order generalizing gone came holding with
  | nil =>
      refine settles.congr (fun id => ?_) fun id value => ?_
      · simp [Retracted]
      · simp [Added]
  | cons input order inductionHypothesis =>
      have isInput := areInputs input List.mem_cons_self
      have areRest : ∀ other ∈ order, other ∈ inputs :=
        fun other isOther => areInputs other (List.mem_cons_of_mem input isOther)
      rw [List.foldl_cons, Holding.step]
      cases isChange : change input with
      | none =>
          rw [Option.map_none, Option.getD_none]
          refine (inductionHypothesis settles areRest).congr (fun id => ?_) fun id value => ?_
          · simp [retracted_cons, isChange]
          · simp [added_cons, isChange]
      | some taken =>
          rw [Option.map_some, Option.getD_some]
          cases taken with
          | add addedId addedValue =>
              have next := settles.add whole ⟨input, isInput, isChange⟩
              refine (inductionHypothesis next areRest).congr (fun id => ?_) fun id value => ?_
              · simp [retracted_cons, isChange]
              · rw [added_cons, isChange, Option.some.injEq, Change.add.injEq, or_assoc,
                  eq_comm (a := id), eq_comm (a := value)]
          | retract ids =>
              have next := settles.retract fun id isId => ⟨input, isInput, ids, isChange, isId⟩
              refine (inductionHypothesis next areRest).congr (fun id => ?_) fun id value => ?_
              · simp [retracted_cons, isChange, or_assoc]
              · simp [added_cons, isChange]

/-- Values that are taken back whole are held, in every order, while they live. -/
theorem mem_held_iff_lives
    (whole : RetractedWhole change inputs)
    (same : SameInputs order inputs) :
    value ∈ (Holding.after change order).held ↔ Lives change inputs value := by
  have settles := settles_start.foldl whole fun input isInput => (same input).mp isInput
  rw [Set.empty_union] at settles
  unfold Lives
  by_cases isSafe : ∀ id, Added change inputs id value → ¬Retracted change inputs id
  · refine (settles.safe value isSafe).trans ⟨?_, ?_⟩
    · rintro ⟨id, isFalse | isAdded⟩
      · exact isFalse.elim
      · have wasAdded := same.added_iff.mp isAdded
        exact ⟨id, wasAdded, isSafe id wasAdded⟩
    · rintro ⟨id, isAdded, -⟩
      exact ⟨id, .inr (same.added_iff.mpr isAdded)⟩
  · push Not at isSafe
    obtain ⟨id, isAdded, isRetracted⟩ := isSafe
    constructor
    · intro isHeld
      obtain ⟨other, isIndexed⟩ := settles.doomed id value isAdded isRetracted isHeld
      obtain ⟨isFalse | otherAdded, notRetracted⟩ := settles.indexed other value isIndexed
      · exact isFalse.elim
      · have otherRetracted := (whole id value isAdded isRetracted).1 other
          (same.added_iff.mp otherAdded)
        refine absurd ?_ notRetracted
        rw [settles.retracted]
        exact same.retracted_iff.mpr otherRetracted
    · rintro ⟨other, otherAdded, notRetracted⟩
      exact absurd ((whole id value isAdded isRetracted).1 other otherAdded) notRetracted

/-! ### Orders that part the ids of a value -/

/-- Inputs that bring a value under an id. -/
noncomputable def additions (change : Input → Option (Change Id Value)) (inputs : List Input) :
    List Input :=
  inputs.filter fun input => ∃ id value, change input = some (.add id value)

/-- The other inputs. -/
noncomputable def retractions (change : Input → Option (Change Id Value)) (inputs : List Input) :
    List Input :=
  inputs.filter fun input => ¬∃ id value, change input = some (.add id value)

theorem mem_additions_or_retractions
    (change : Input → Option (Change Id Value))
    (inputs : List Input)
    (input : Input) :
    input ∈ inputs ↔ input ∈ additions change inputs ∨ input ∈ retractions change inputs := by
  simp only [additions, retractions, List.mem_filter, decide_eq_true_eq]
  rw [← and_or_left]
  exact (and_iff_left (Classical.em _)).symm

theorem Holding.step_of_add
    {input : Input}
    (isAdd : change input = some (.add id value)) :
    holding.step change input = holding.add id value := by
  rw [Holding.step, isAdd]
  rfl

/-- What every single taking back keeps, a list of them keeps. -/
theorem foldl_retractOne
    (Keeps : Holding Id Value → Prop)
    (keeps : ∀ current id, Keeps current → Keeps (current.retractOne id))
    (start : Keeps holding)
    (ids : List Id) :
    Keeps (ids.foldl Holding.retractOne holding) := by
  induction ids generalizing holding with
  | nil => exact start
  | cons id ids inductionHypothesis => exact inductionHypothesis (keeps holding id start)

/-- What every single taking back keeps, the inputs that take ids back keep. -/
theorem foldl_retractions
    (Keeps : Holding Id Value → Prop)
    (keeps : ∀ current id, Keeps current → Keeps (current.retractOne id))
    (start : Keeps holding) :
    Keeps ((retractions change inputs).foldl (Holding.step change) holding) := by
  have noAddition : ∀ input ∈ retractions change inputs,
      ¬∃ id value, change input = some (.add id value) :=
    fun input isInput => by simpa using (List.mem_filter.mp isInput).2
  revert noAddition start
  generalize retractions change inputs = order
  intro start noAddition
  induction order generalizing holding with
  | nil => exact start
  | cons input order inductionHypothesis =>
      rw [List.foldl_cons]
      refine inductionHypothesis ?_ fun other isOther =>
        noAddition other (List.mem_cons_of_mem input isOther)
      unfold Holding.step
      cases isChange : change input with
      | none => exact start
      | some taken =>
          cases taken with
          | add id value => exact absurd ⟨id, value, isChange⟩ (noAddition input List.mem_cons_self)
          | retract ids => exact foldl_retractOne Keeps keeps start ids

/-- What every addition keeps, the inputs that add values keep. -/
theorem foldl_additions
    (Keeps : Holding Id Value → Prop)
    (keeps : ∀ current id value, Keeps current → Keeps (current.add id value))
    (start : Keeps holding) :
    Keeps ((additions change inputs).foldl (Holding.step change) holding) := by
  have areAdditions : ∀ input ∈ additions change inputs,
      ∃ id value, change input = some (.add id value) :=
    fun input isInput => by simpa using (List.mem_filter.mp isInput).2
  revert areAdditions start
  generalize additions change inputs = order
  intro start areAdditions
  induction order generalizing holding with
  | nil => exact start
  | cons input order inductionHypothesis =>
      obtain ⟨id, value, isAdd⟩ := areAdditions input List.mem_cons_self
      rw [List.foldl_cons, Holding.step_of_add isAdd]
      exact inductionHypothesis (keeps holding id value start) fun other isOther =>
        areAdditions other (List.mem_cons_of_mem input isOther)

/-- With its last id a value is taken out. -/
theorem not_held_of_retract
    {ids : List Id}
    (isIndexed : holding.index id = some value)
    (isTaken : id ∈ ids) :
    value ∉ (ids.foldl Holding.retractOne holding).held := by
  induction ids generalizing holding with
  | nil => cases isTaken
  | cons other ids inductionHypothesis =>
      rw [List.foldl_cons]
      by_cases isSame : id = other
      · refine foldl_retractOne (fun current => value ∉ current.held) ?_ ?_ ids
        · exact fun current other notHeld isHeld => notHeld (Holding.mem_held_retractOne.mp isHeld).1
        · rw [isSame] at isIndexed
          exact fun isHeld => (Holding.mem_held_retractOne.mp isHeld).2 isIndexed
      · exact inductionHypothesis ((Holding.index_retractOne_of_ne isSame).trans isIndexed)
          ((List.mem_cons.mp isTaken).resolve_left isSame)

/-- A value is held although it is indexed under no id. -/
def Holding.Orphaned (holding : Holding Id Value) (value : Value) : Prop :=
  value ∈ holding.held ∧ ∀ id, holding.index id ≠ some value

theorem Holding.Orphaned.retractOne
    (orphaned : holding.Orphaned value)
    (id : Id) :
    (holding.retractOne id).Orphaned value := by
  refine ⟨Holding.mem_held_retractOne.mpr ⟨orphaned.1, orphaned.2 id⟩, fun other isIndexed => ?_⟩
  by_cases isSame : other = id
  · rw [isSame, Holding.index_retractOne_self] at isIndexed
    cases isIndexed
  · rw [Holding.index_retractOne_of_ne isSame] at isIndexed
    exact orphaned.2 other isIndexed

theorem Holding.step_of_retract
    {input : Input}
    {ids : List Id}
    (isRetraction : change input = some (.retract ids)) :
    holding.step change input = ids.foldl Holding.retractOne holding := by
  rw [Holding.step, isRetraction]
  rfl

/-- A value is not held when one of its ids comes last and is then taken back. -/
theorem exists_order_not_held
    (isAdded : Added change inputs id value)
    (isRetracted : Retracted change inputs id) :
    ∃ order, SameInputs order inputs ∧ value ∉ (Holding.after change order).held := by
  obtain ⟨addition, isInput, isAdd⟩ := isAdded
  obtain ⟨retraction, isRetraction, ids, isRetract, isTaken⟩ := isRetracted
  refine ⟨additions change inputs ++ ([addition, retraction] ++ retractions change inputs), ?_, ?_⟩
  · intro input
    rw [mem_additions_or_retractions change inputs input]
    simp only [List.mem_append, List.mem_cons, List.not_mem_nil, or_false]
    constructor
    · rintro (isAddition | (rfl | rfl) | isOther)
      · exact .inl isAddition
      · exact (mem_additions_or_retractions change inputs _).mp isInput
      · exact (mem_additions_or_retractions change inputs _).mp isRetraction
      · exact .inr isOther
    · exact fun isInput => isInput.imp_right .inr
  · unfold Holding.after
    rw [List.foldl_append, List.foldl_append, List.foldl_cons, List.foldl_cons, List.foldl_nil,
      Holding.step_of_add isAdd, Holding.step_of_retract isRetract]
    have noneRetracted : id ∉ ((additions change inputs).foldl (Holding.step change)
        Holding.start).retracted := by
      refine foldl_additions (fun current => id ∉ current.retracted) ?_ ?_
      · intro current other otherValue notRetracted
        rwa [Holding.retracted_add]
      · exact fun isRetracted => isRetracted
    refine foldl_retractions (fun current => value ∉ current.held) ?_
      (not_held_of_retract (Holding.index_add_self noneRetracted) isTaken)
    exact fun current other notHeld isHeld => notHeld (Holding.mem_held_retractOne.mp isHeld).1

/-- A value is held when its id comes again for another value and is then taken back. -/
theorem exists_order_held
    {otherValue : Value}
    (isAdded : Added change inputs id value)
    (isOther : Added change inputs id otherValue)
    (different : otherValue ≠ value)
    (isRetracted : Retracted change inputs id) :
    ∃ order, SameInputs order inputs ∧ value ∈ (Holding.after change order).held := by
  obtain ⟨addition, isInput, isAdd⟩ := isAdded
  obtain ⟨other, isOtherInput, isOtherAdd⟩ := isOther
  obtain ⟨retraction, isRetraction, ids, isRetract, -⟩ := isRetracted
  refine ⟨[addition, other, retraction] ++ (retractions change inputs ++ additions change inputs),
    ?_, ?_⟩
  · intro input
    rw [mem_additions_or_retractions change inputs input]
    simp only [List.mem_append, List.mem_cons, List.not_mem_nil, or_false]
    constructor
    · rintro ((rfl | rfl | rfl) | isLater)
      · exact (mem_additions_or_retractions change inputs _).mp isInput
      · exact (mem_additions_or_retractions change inputs _).mp isOtherInput
      · exact (mem_additions_or_retractions change inputs _).mp isRetraction
      · exact isLater.symm
    · exact fun isInput => .inr isInput.symm
  · unfold Holding.after
    rw [List.foldl_append, List.foldl_append, List.foldl_cons, List.foldl_cons, List.foldl_cons,
      List.foldl_nil, Holding.step_of_add isAdd, Holding.step_of_add isOtherAdd,
      Holding.step_of_retract isRetract]
    -- The id is indexed for the other value, so nothing takes this one out.
    have fresh : id ∉ (Holding.start : Holding Id Value).retracted := fun isRetracted => isRetracted
    have notRetracted : id ∉ (Holding.start.add id value).retracted := by
      rw [Holding.retracted_add]
      exact fresh
    have orphaned : ((Holding.start.add id value).add id otherValue).Orphaned value := by
      constructor
      · rw [Holding.held_add notRetracted, Holding.held_add fresh]
        exact .inr (.inl rfl)
      · intro indexedId isIndexed
        by_cases isSame : indexedId = id
        · rw [isSame, Holding.index_add_self notRetracted] at isIndexed
          exact different (Option.some.inj isIndexed)
        · rw [Holding.index_add_of_ne isSame, Holding.index_add_of_ne isSame] at isIndexed
          cases isIndexed
    have taken := foldl_retractOne (fun current => current.Orphaned value)
      (fun current other isOrphan => isOrphan.retractOne other) orphaned ids
    refine foldl_additions (fun current => value ∈ current.held) ?_ ?_
    · intro current addedId addedValue isHeld
      unfold Holding.add
      split
      · exact isHeld
      · exact .inr isHeld
    · exact (foldl_retractions (fun current => current.Orphaned value)
        (fun current other isOrphan => isOrphan.retractOne other) taken).1

/-- In every order and with any repetition the values held are those that live, exactly when
values are taken back whole. -/
theorem held_iff_lives_iff
    (change : Input → Option (Change Id Value))
    (inputs : List Input) :
    (∀ order, SameInputs order inputs → ∀ value,
        value ∈ (Holding.after change order).held ↔ Lives change inputs value) ↔
      RetractedWhole change inputs := by
  constructor
  · intro holds
    have together : ∀ id value, Added change inputs id value → Retracted change inputs id →
        ∀ other, Added change inputs other value → Retracted change inputs other := by
      intro id value isAdded isRetracted other otherAdded
      obtain ⟨order, same, notHeld⟩ := exists_order_not_held isAdded isRetracted
      by_contra notRetracted
      exact notHeld ((holds order same value).mpr ⟨other, otherAdded, notRetracted⟩)
    intro id value isAdded isRetracted
    refine ⟨together id value isAdded isRetracted, fun otherValue isOther => ?_⟩
    by_contra different
    obtain ⟨order, same, isHeld⟩ := exists_order_held isAdded isOther different isRetracted
    obtain ⟨other, otherAdded, notRetracted⟩ := (holds order same value).mp isHeld
    exact notRetracted (together id value isAdded isRetracted other otherAdded)
  · exact fun whole order same value => mem_held_iff_lives whole same

end Holdings

end Lib
