import Mathlib.Data.List.Forall2
import Mathlib.Order.Basic

/-!
# Computations that may fail

What a computation that ends well says of the parts it is put together from.
-/

namespace Lib

universe u

variable {Failure Other : Type*} {Value Result : Type u}

theorem bind_eq_ok_iff
    {first : Except Failure Value}
    {next : Value → Except Failure Result}
    {result : Result} :
    (first >>= next) = .ok result ↔ ∃ value, first = .ok value ∧ next value = .ok result := by
  cases first with
  | error failure =>
      refine iff_of_false (fun ends => nomatch ends) ?_
      rintro ⟨value, ends, -⟩
      cases ends
  | ok value =>
      constructor
      · exact fun ends => ⟨value, rfl, ends⟩
      · rintro ⟨_, ends, rest⟩
        cases ends
        exact rest

theorem mapError_eq_ok_iff
    {first : Except Failure Value}
    {translate : Failure → Other}
    {value : Value} :
    first.mapError translate = .ok value ↔ first = .ok value := by
  cases first with
  | error failure => exact iff_of_false (fun ends => nomatch ends) (fun ends => nomatch ends)
  | ok held =>
      constructor
      · rintro ends
        cases ends
        rfl
      · rintro ends
        cases ends
        rfl

/-- A list of computations ends well when each of them does, with the values of each. -/
theorem mapM_eq_ok_iff
    {Input : Type*}
    {compute : Input → Except Failure Value}
    {holds : Input → Prop}
    {make : Input → Value}
    {inputs : List Input}
    (spec : ∀ input ∈ inputs, ∀ value,
      compute input = .ok value ↔ holds input ∧ value = make input)
    {values : List Value} :
    inputs.mapM compute = .ok values ↔
      (∀ input ∈ inputs, holds input) ∧ values = inputs.map make := by
  induction inputs generalizing values with
  | nil =>
      rw [List.mapM_nil, List.map_nil]
      constructor
      · intro ends
        cases ends
        exact ⟨fun _ isInput => absurd isInput List.not_mem_nil, rfl⟩
      · rintro ⟨-, rfl⟩
        rfl
  | cons input inputs inductionHypothesis =>
      have specHere := spec input List.mem_cons_self
      have specRest := @inductionHypothesis
        fun other isOther => spec other (List.mem_cons_of_mem input isOther)
      rw [List.mapM_cons, bind_eq_ok_iff, List.map_cons]
      constructor
      · rintro ⟨value, isValue, ends⟩
        obtain ⟨rest, areRest, ends⟩ := bind_eq_ok_iff.mp ends
        cases ends
        obtain ⟨holdsHere, rfl⟩ := (specHere value).mp isValue
        obtain ⟨holdRest, rfl⟩ := specRest.mp areRest
        refine ⟨fun other isOther => ?_, rfl⟩
        rcases List.mem_cons.mp isOther with rfl | isLater
        · exact holdsHere
        · exact holdRest other isLater
      · rintro ⟨hold, rfl⟩
        refine ⟨make input, (specHere _).mpr ⟨hold input List.mem_cons_self, rfl⟩, ?_⟩
        refine bind_eq_ok_iff.mpr ⟨inputs.map make, specRest.mpr ⟨?_, rfl⟩, rfl⟩
        exact fun other isOther => hold other (List.mem_cons_of_mem input isOther)

/-- A list is read when each of its items is. -/
theorem mapM_eq_some_iff
    {Item Read : Type*}
    {read : Item → Option Read}
    {items : List Item}
    {values : List Read} :
    items.mapM read = some values ↔
      List.Forall₂ (fun item value => read item = some value) items values := by
  induction items generalizing values with
  | nil =>
      rw [List.mapM_nil, List.forall₂_nil_left_iff, eq_comm]
      exact Option.some_inj
  | cons item items inductionHypothesis =>
      rw [List.mapM_cons, List.forall₂_cons_left_iff]
      constructor
      · intro isRead
        obtain ⟨value, isValue, isRest⟩ := Option.bind_eq_some_iff.mp isRead
        obtain ⟨rest, areRest, isValues⟩ := Option.bind_eq_some_iff.mp isRest
        exact ⟨value, rest, isValue, inductionHypothesis.mp areRest,
          (Option.some.inj isValues).symm⟩
      · rintro ⟨value, rest, isValue, areRest, rfl⟩
        rw [isValue, inductionHypothesis.mpr areRest]
        rfl

end Lib
