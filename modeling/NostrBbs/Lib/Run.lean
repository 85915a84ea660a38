import Mathlib.Data.List.Induction

/-!
# Runs of a deterministic system

A system is a total step function on states.  A run is a list of inputs.  The
rules below carry what one step preserves to every state that a run visits, and
characterise the runs on which a property survives by a condition on each of
their steps.
-/

namespace Lib

variable {State Input : Type*}

/-- The state in which a run ends. -/
def run
    (step : State → Input → State)
    (start : State)
    (inputs : List Input) : State :=
  inputs.foldl step start

@[simp] theorem run_nil
    (step : State → Input → State)
    (start : State) :
    run step start [] = start :=
  rfl

@[simp] theorem run_cons
    (step : State → Input → State)
    (start : State)
    (input : Input)
    (inputs : List Input) :
    run step start (input :: inputs) = run step (step start input) inputs :=
  rfl

theorem run_append
    (step : State → Input → State)
    (start : State)
    (first second : List Input) :
    run step start (first ++ second) = run step (run step start first) second :=
  List.foldl_append

/-- A property holds in every state that a run visits, the first one
included. -/
def Visits
    (step : State → Input → State)
    (property : State → Prop) : State → List Input → Prop
  | state, [] => property state
  | state, input :: inputs =>
      property state ∧ Visits step property (step state input) inputs

instance Visits.decidable
    (step : State → Input → State)
    (property : State → Prop)
    [∀ state, Decidable (property state)]
    (start : State)
    (inputs : List Input) :
    Decidable (Visits step property start inputs) :=
  match inputs with
  | [] => inferInstanceAs (Decidable (property start))
  | input :: inputs =>
      have := Visits.decidable step property (step start input) inputs
      inferInstanceAs (Decidable (property start ∧
        Visits step property (step start input) inputs))

/-- Every step of a run meets a condition on its input and on the state it is
taken in. -/
def Along
    (step : State → Input → State)
    (condition : State → Input → Prop) : State → List Input → Prop
  | _, [] => True
  | state, input :: inputs =>
      condition state input ∧ Along step condition (step state input) inputs

instance Along.decidable
    (step : State → Input → State)
    (condition : State → Input → Prop)
    [∀ state input, Decidable (condition state input)]
    (start : State)
    (inputs : List Input) :
    Decidable (Along step condition start inputs) :=
  match inputs with
  | [] => inferInstanceAs (Decidable True)
  | input :: inputs =>
      have := Along.decidable step condition (step start input) inputs
      inferInstanceAs (Decidable (condition start input ∧
        Along step condition (step start input) inputs))

section Rules

variable {step : State → Input → State}
  {property invariant : State → Prop}
  {condition : State → Input → Prop}

/-- A property of all visited states holds of the first one. -/
theorem Visits.head
    {start : State}
    {inputs : List Input}
    (visits : Visits step property start inputs) :
    property start := by
  cases inputs with
  | nil => exact visits
  | cons input inputs => exact visits.1

/-- The visited states are the ends of the initial segments of the run. -/
theorem visits_iff_prefixes
    (start : State)
    (inputs : List Input) :
    Visits step property start inputs ↔
      ∀ taken, taken <+: inputs → property (run step start taken) := by
  induction inputs generalizing start with
  | nil =>
      simp [Visits]
  | cons input inputs inductionHypothesis =>
      constructor
      · rintro ⟨first, later⟩ taken isInitial
        cases taken with
        | nil => exact first
        | cons head tail =>
            obtain ⟨rfl, tailInitial⟩ := List.cons_prefix_cons.mp isInitial
            exact (inductionHypothesis (step start head)).mp later tail tailInitial
      · intro everywhere
        refine ⟨everywhere [] List.nil_prefix, ?_⟩
        refine (inductionHypothesis (step start input)).mpr ?_
        intro taken isInitial
        exact everywhere (input :: taken)
          (List.cons_prefix_cons.mpr ⟨rfl, isInitial⟩)

/-- An invariant that every step keeps holds at the end of every run. -/
theorem invariant_run
    (preserved : ∀ state input, invariant state → invariant (step state input))
    {start : State}
    (initially : invariant start)
    (inputs : List Input) :
    invariant (run step start inputs) := by
  induction inputs generalizing start with
  | nil => exact initially
  | cons input inputs inductionHypothesis =>
      exact inductionHypothesis (preserved start input initially)

/-- An invariant kept by the steps that meet a condition holds wherever a run
of such steps ends. -/
theorem invariant_run_along
    (preserved : ∀ state input, invariant state → condition state input →
      invariant (step state input))
    {start : State}
    (initially : invariant start)
    {inputs : List Input}
    (along : Along step condition start inputs) :
    invariant (run step start inputs) := by
  induction inputs generalizing start with
  | nil => exact initially
  | cons input inputs inductionHypothesis =>
      exact inductionHypothesis (preserved start input initially along.1) along.2

/-- An invariant kept by the steps that meet a condition holds in every state
that a run of such steps visits. -/
theorem visits_of_along
    (preserved : ∀ state input, invariant state → condition state input →
      invariant (step state input))
    {start : State}
    (initially : invariant start)
    {inputs : List Input}
    (along : Along step condition start inputs) :
    Visits step invariant start inputs := by
  induction inputs generalizing start with
  | nil => exact initially
  | cons input inputs inductionHypothesis =>
      exact ⟨initially,
        inductionHypothesis (preserved start input initially along.1) along.2⟩

/-- A weaker property is visited wherever a stronger one is. -/
theorem Visits.mono
    (weaker : ∀ state, invariant state → property state)
    {start : State}
    {inputs : List Input}
    (visits : Visits step invariant start inputs) :
    Visits step property start inputs := by
  induction inputs generalizing start with
  | nil => exact weaker start visits
  | cons input inputs inductionHypothesis =>
      exact ⟨weaker start visits.1, inductionHypothesis visits.2⟩

/-- Of the runs whose steps meet an assumption, those on which a property
survives are exactly those whose steps meet a condition, when the condition keeps
an invariant that implies the property and every other step breaks the property
at once. -/
theorem visits_iff_along
    {assumption : State → Input → Prop}
    (preserved : ∀ state input, invariant state → assumption state input →
      condition state input → invariant (step state input))
    (sufficient : ∀ state, invariant state → property state)
    (necessary : ∀ state input, invariant state → assumption state input →
      property (step state input) → condition state input)
    {start : State}
    (initially : invariant start)
    {inputs : List Input}
    (assumed : Along step assumption start inputs) :
    Visits step property start inputs ↔ Along step condition start inputs := by
  induction inputs generalizing start with
  | nil =>
      exact iff_of_true (sufficient start initially) trivial
  | cons input inputs inductionHypothesis =>
      constructor
      · rintro ⟨-, later⟩
        have held : condition start input :=
          necessary start input initially assumed.1 later.head
        have kept := preserved start input initially assumed.1 held
        exact ⟨held, (inductionHypothesis kept assumed.2).mp later⟩
      · rintro ⟨held, later⟩
        have kept := preserved start input initially assumed.1 held
        exact ⟨sufficient start initially, (inductionHypothesis kept assumed.2).mpr later⟩

/-- What the steps of a run that meet a condition conclude from an invariant that
they keep. -/
theorem along_of_along
    {conclusion : State → Input → Prop}
    (preserved : ∀ state input, invariant state → condition state input →
      invariant (step state input))
    (concludes : ∀ state input, invariant state → condition state input →
      conclusion state input)
    {start : State}
    (initially : invariant start)
    {inputs : List Input}
    (along : Along step condition start inputs) :
    Along step conclusion start inputs := by
  induction inputs generalizing start with
  | nil => trivial
  | cons input inputs inductionHypothesis =>
      exact ⟨concludes start input initially along.1,
        inductionHypothesis (preserved start input initially along.1) along.2⟩

/-- The steps of a run have a property exactly when they meet a condition, when the two
agree wherever an invariant holds and the condition keeps it. -/
theorem along_iff_along
    {claim : State → Input → Prop}
    (preserved : ∀ state input, invariant state → condition state input →
      invariant (step state input))
    (exact : ∀ state input, invariant state → (claim state input ↔ condition state input))
    {start : State}
    (initially : invariant start)
    (inputs : List Input) :
    Along step claim start inputs ↔ Along step condition start inputs := by
  induction inputs generalizing start with
  | nil => exact Iff.rfl
  | cons input inputs inductionHypothesis =>
      constructor
      · rintro ⟨first, later⟩
        have meets := (exact start input initially).mp first
        exact ⟨meets, (inductionHypothesis (preserved start input initially meets)).mp later⟩
      · rintro ⟨meets, later⟩
        exact ⟨(exact start input initially).mpr meets,
          (inductionHypothesis (preserved start input initially meets)).mpr later⟩

/-- A condition is met along a run when it is met after every initial segment. -/
theorem along_iff_prefixes
    (start : State)
    (inputs : List Input) :
    Along step condition start inputs ↔
      ∀ taken input, taken ++ [input] <+: inputs → condition (run step start taken) input := by
  induction inputs generalizing start with
  | nil =>
      simp [Along]
  | cons head inputs inductionHypothesis =>
      constructor
      · rintro ⟨first, later⟩ taken input isInitial
        cases taken with
        | nil =>
            obtain ⟨rfl, -⟩ := List.cons_prefix_cons.mp isInitial
            exact first
        | cons other taken =>
            obtain ⟨rfl, tailInitial⟩ := List.cons_prefix_cons.mp isInitial
            exact (inductionHypothesis (step start other)).mp later taken input tailInitial
      · intro everywhere
        refine ⟨everywhere [] head (by simp), ?_⟩
        refine (inductionHypothesis (step start head)).mpr ?_
        intro taken input isInitial
        exact everywhere (head :: taken) input (List.cons_prefix_cons.mpr ⟨rfl, isInitial⟩)

/-- The steps of a run that meet a condition meet a weaker one. -/
theorem Along.mono
    {weaker : State → Input → Prop}
    (implies : ∀ state input, condition state input → weaker state input)
    {start : State}
    {inputs : List Input}
    (along : Along step condition start inputs) :
    Along step weaker start inputs := by
  induction inputs generalizing start with
  | nil => trivial
  | cons input inputs inductionHypothesis =>
      exact ⟨implies start input along.1, inductionHypothesis along.2⟩

/-- The steps of a run that meet two conditions meet both. -/
theorem Along.and
    {other : State → Input → Prop}
    {start : State}
    {inputs : List Input}
    (first : Along step condition start inputs)
    (second : Along step other start inputs) :
    Along step (fun state input => condition state input ∧ other state input) start inputs := by
  induction inputs generalizing start with
  | nil => trivial
  | cons input inputs inductionHypothesis =>
      exact ⟨⟨first.1, second.1⟩, inductionHypothesis first.2 second.2⟩

/-- Two runs in succession meet a condition when each meets it from where it starts. -/
theorem along_append
    (start : State)
    (first second : List Input) :
    Along step condition start (first ++ second) ↔
      Along step condition start first ∧ Along step condition (run step start first) second := by
  induction first generalizing start with
  | nil => exact (and_iff_right trivial).symm
  | cons input first inductionHypothesis =>
      change condition start input ∧ Along step condition (step start input) (first ++ second) ↔
        (condition start input ∧ Along step condition (step start input) first) ∧ _
      rw [inductionHypothesis, and_assoc]
      rfl

/-- The states of a run are ordered by a preorder exactly when each step goes up
in it. -/
theorem ordered_iff_along
    {below : State → State → Prop}
    (refl : ∀ state, below state state)
    (trans : ∀ first second third, below first second → below second third → below first third)
    (start : State)
    (inputs : List Input) :
    (∀ earlier later, earlier <+: later → later <+: inputs →
        below (run step start earlier) (run step start later)) ↔
      Along step (fun state input => below state (step state input)) start inputs := by
  rw [along_iff_prefixes]
  constructor
  · intro ordered taken input isInitial
    have up := ordered taken (taken ++ [input]) (List.prefix_append taken [input]) isInitial
    rw [run_append] at up
    exact up
  · rintro climbs earlier later ⟨rest, rfl⟩ isInitial
    induction rest generalizing earlier with
    | nil =>
        rw [List.append_nil]
        exact refl _
    | cons input rest inductionHypothesis =>
        rw [List.append_cons] at isInitial ⊢
        have first := climbs earlier input ((List.prefix_append _ rest).trans isInitial)
        refine trans _ _ _ first ?_
        have later := inductionHypothesis (earlier ++ [input]) isInitial
        rw [run_append step start earlier] at later
        exact later

/-- An invariant on a run and its end, kept by one more input. -/
theorem invariant_history
    {history : List Input → State → Prop}
    {start : State}
    (initially : history [] start)
    (preserved : ∀ past input, history past (run step start past) →
      history (past ++ [input]) (step (run step start past) input))
    (inputs : List Input) :
    history inputs (run step start inputs) := by
  induction inputs using List.reverseRecOn with
  | nil => exact initially
  | append_singleton past input inductionHypothesis =>
      rw [run_append]
      exact preserved past input inductionHypothesis

/-- A run whose steps each lower a measure is no longer than the measure of its
start. -/
theorem length_le_of_descends
    {measure : State → Nat}
    (preserved : ∀ state input, invariant state → condition state input →
      invariant (step state input))
    (descends : ∀ state input, invariant state → condition state input →
      measure (step state input) < measure state)
    {start : State}
    (initially : invariant start)
    {inputs : List Input}
    (along : Along step condition start inputs) :
    inputs.length ≤ measure start := by
  induction inputs generalizing start with
  | nil => exact Nat.zero_le _
  | cons input inputs inductionHypothesis =>
      have rest := inductionHypothesis (preserved start input initially along.1) along.2
      exact Nat.lt_of_le_of_lt rest (descends start input initially along.1)

end Rules

end Lib
