import Mathlib.Data.List.Nodup

/-!
# Limited selections

A query that asks for some of the rows, ordered by a rank and limited in number, is
answered by the first of them; which of equally ranked rows is first is left to the
database.
-/

namespace Lib

variable {Row : Type*}

/-- An answer to a query: as many of the wanted rows as it asks for, the first by their
ranks and in that order. -/
structure IsSelection
    (rows : List Row)
    (wanted : Row → Bool)
    (rank : Row → Nat)
    (limit : Nat)
    (answer : List Row) : Prop where
  distinct : answer.Nodup
  selected : ∀ row ∈ answer, row ∈ rows ∧ wanted row
  sorted : answer.Pairwise fun first second => rank first ≤ rank second
  full : answer.length = min limit (rows.countP wanted)
  first : ∀ row ∈ answer, ∀ other ∈ rows, wanted other → other ∉ answer → rank row ≤ rank other

instance [DecidableEq Row]
    (rows : List Row)
    (wanted : Row → Bool)
    (rank : Row → Nat)
    (limit : Nat)
    (answer : List Row) :
    Decidable (IsSelection rows wanted rank limit answer) :=
  decidable_of_iff
    (answer.Nodup ∧ (∀ row ∈ answer, row ∈ rows ∧ wanted row) ∧
      (answer.Pairwise fun first second => rank first ≤ rank second) ∧
      answer.length = min limit (rows.countP wanted) ∧
      ∀ row ∈ answer, ∀ other ∈ rows, wanted other → other ∉ answer → rank row ≤ rank other)
    ⟨fun ⟨distinct, selected, sorted, full, first⟩ => ⟨distinct, selected, sorted, full, first⟩,
      fun isAnswer =>
        ⟨isAnswer.distinct, isAnswer.selected, isAnswer.sorted, isAnswer.full, isAnswer.first⟩⟩

variable {rows : List Row} {wanted : Row → Bool} {rank : Row → Nat} {limit : Nat}

/-- All the rows, when they are wanted, in order and no more than the limit. -/
theorem isSelection_all
    (distinct : rows.Nodup)
    (allWanted : ∀ row ∈ rows, wanted row)
    (sorted : rows.Pairwise fun first second => rank first ≤ rank second)
    (within : rows.length ≤ limit) :
    IsSelection rows wanted rank limit rows where
  distinct := distinct
  selected := fun row isRow => ⟨isRow, allWanted row isRow⟩
  sorted := sorted
  full := by
    rw [List.countP_eq_length.mpr allWanted, Nat.min_eq_right within]
  first := fun _ _ _ isOther _ notRow => absurd isOther notRow

end Lib
