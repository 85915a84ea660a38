import Mathlib.Order.Bounds.Image
import Mathlib.Order.MinMax
import NostrBbs.Lib.Table

/-!
# The greatest values and the best rows

A running maximum over values that come one by one: none before the first, and the greatest
of those that came after it.  In a table that rows come to, a row takes the place of the one
that holds its key unless that one stays, and ranks say which of two rows may stay.
Whatever the order in which the rows come, the table has one row of each key that came, and
one of the highest rank.
-/

namespace Lib

/-! ## The greatest of some values -/

section

variable {Value : Type*} [LinearOrder Value]

/-- A running maximum and the next value. -/
def larger
    (greatest : Option Value)
    (value : Value) : Option Value :=
  some (greatest.elim value (max · value))

/-- What a running maximum is of the values that came. -/
def GreatestOf
    (values : Set Value) : Option Value → Prop
  | none => values = ∅
  | some greatest => IsGreatest values greatest

section Rules

variable {values : Set Value} {greatest : Option Value}

theorem greatestOf_empty :
    GreatestOf (∅ : Set Value) none :=
  rfl

/-- The next value, put among the others. -/
theorem GreatestOf.insert
    (isGreatest : GreatestOf values greatest)
    (value : Value) :
    GreatestOf (insert value values) (larger greatest value) := by
  cases greatest with
  | none =>
      have noneCame : values = ∅ := isGreatest
      rw [noneCame, insert_empty_eq]
      exact isGreatest_singleton
  | some last =>
      have among : IsGreatest values last := isGreatest
      have grown := among.insert value
      rw [max_comm] at grown
      exact grown

/-- A value came when there is a greatest one. -/
theorem GreatestOf.isSome_iff
    (isGreatest : GreatestOf values greatest) :
    greatest.isSome ↔ values.Nonempty := by
  cases greatest with
  | none =>
      have noneCame : values = ∅ := isGreatest
      simp [noneCame]
  | some last =>
      have among : IsGreatest values last := isGreatest
      exact iff_of_true rfl ⟨last, among.1⟩

/-- Of two running maxima the one exceeds the other when one of its values exceeds all of
the other's. -/
theorem GreatestOf.exceeds_iff
    {others : Set Value}
    {other : Option Value}
    (isGreatest : GreatestOf values greatest)
    (otherGreatest : GreatestOf others other) :
    (∃ value ∈ values, ∀ rival ∈ others, rival < value) ↔
      ∃ last, greatest = some last ∧ ∀ rival, other = some rival → rival < last := by
  constructor
  · rintro ⟨value, member, exceeds⟩
    cases greatest with
    | none =>
        have noneCame : values = ∅ := isGreatest
        rw [noneCame] at member
        cases member
    | some last =>
        have among : IsGreatest values last := isGreatest
        refine ⟨last, rfl, ?_⟩
        rintro rival rfl
        have rivalAmong : IsGreatest others rival := otherGreatest
        exact (exceeds rival rivalAmong.1).trans_le (among.2 member)
  · rintro ⟨last, rfl, exceeds⟩
    have among : IsGreatest values last := isGreatest
    refine ⟨last, among.1, ?_⟩
    intro rival member
    cases other with
    | none =>
        have noneCame : others = ∅ := otherGreatest
        rw [noneCame] at member
        cases member
    | some greatestRival =>
        have rivalAmong : IsGreatest others greatestRival := otherGreatest
        exact (rivalAmong.2 member).trans_lt (exceeds greatestRival rfl)

/-- Two running maxima agree when the values of each are reached by the other's. -/
theorem GreatestOf.eq_iff
    {others : Set Value}
    {other : Option Value}
    (isGreatest : GreatestOf values greatest)
    (otherGreatest : GreatestOf others other) :
    greatest = other ↔
      (∀ value ∈ values, ∃ rival ∈ others, value ≤ rival) ∧
        ∀ rival ∈ others, ∃ value ∈ values, rival ≤ value := by
  cases greatest with
  | none =>
      have noneCame : values = ∅ := isGreatest
      cases other with
      | none =>
          have noOther : others = ∅ := otherGreatest
          simp [noneCame, noOther]
      | some last =>
          have among : IsGreatest others last := otherGreatest
          refine iff_of_false (by simp) ?_
          rintro ⟨-, reached⟩
          obtain ⟨value, member, -⟩ := reached last among.1
          rw [noneCame] at member
          cases member
  | some first =>
      have firstAmong : IsGreatest values first := isGreatest
      cases other with
      | none =>
          have noOther : others = ∅ := otherGreatest
          refine iff_of_false (by simp) ?_
          rintro ⟨reached, -⟩
          obtain ⟨rival, member, -⟩ := reached first firstAmong.1
          rw [noOther] at member
          cases member
      | some last =>
          have among : IsGreatest others last := otherGreatest
          rw [Option.some.injEq]
          constructor
          · rintro rfl
            exact ⟨fun value member => ⟨first, among.1, firstAmong.2 member⟩,
              fun rival member => ⟨first, firstAmong.1, among.2 member⟩⟩
          · rintro ⟨reached, reaches⟩
            obtain ⟨rival, isRival, firstLe⟩ := reached first firstAmong.1
            obtain ⟨value, isValue, lastLe⟩ := reaches last among.1
            exact le_antisymm (firstLe.trans (among.2 isRival)) (lastLe.trans (firstAmong.2 isValue))

/-- A running maximum of values in a larger order. -/
theorem GreatestOf.image
    {Wider : Type*}
    [LinearOrder Wider]
    {embed : Value → Wider}
    (monotone : Monotone embed)
    (isGreatest : GreatestOf values greatest) :
    GreatestOf (embed '' values) (greatest.map embed) := by
  cases greatest with
  | none =>
      have noneCame : values = ∅ := isGreatest
      rw [noneCame, Set.image_empty]
      exact greatestOf_empty
  | some last =>
      have among : IsGreatest values last := isGreatest
      exact monotone.map_isGreatest among

/-- The greatest of the values of a list. -/
theorem greatestOf_max
    (list : List Value) :
    GreatestOf {value | value ∈ list} list.max? := by
  have lawful : Std.LawfulOrderMax Value :=
    { max_eq_or := max_choice, max_le_iff := fun _ _ _ => max_le_iff }
  cases isMax : list.max? with
  | none =>
      rw [List.max?_eq_none_iff] at isMax
      simp [isMax, GreatestOf]
  | some last => exact List.max?_eq_some_iff.mp isMax

end Rules

end

/-! ## The best row of each key -/

section

variable {Row Key Rank : Type*} [DecidableEq Key] [LinearOrder Rank] {key : Row → Key}

/-- A row comes to a table. -/
def keepBest (stays : Row → Row → Bool) (table : Table Row key) (row : Row) : Table Row key :=
  match table.find? (key row) with
  | some current => if stays current row then table else table.put row
  | none => table.put row

/-- Only a row of at least the rank stays, and only for one of at least the rank it
goes. -/
structure Ranks (rank : Row → Rank) (stays : Row → Row → Bool) : Prop where
  keeps : ∀ current row, stays current row = true → rank row ≤ rank current
  goes : ∀ current row, stays current row = false → rank current ≤ rank row

/-- A table has of each key one row of the highest rank that came, and no other rows. -/
structure BestOf (rank : Row → Rank) (came : Set Row) (table : Table Row key) : Prop where
  drawn : ∀ row ∈ table.rows, row ∈ came
  greatest : ∀ wanted, GreatestOf (rank '' {row | row ∈ came ∧ key row = wanted})
    ((table.find? wanted).map rank)

variable {rank : Row → Rank} {stays : Row → Row → Bool} {came : Set Row} {table : Table Row key}

theorem bestOf_empty : BestOf rank ∅ (Table.empty : Table Row key) where
  drawn := fun _ held => absurd held List.not_mem_nil
  greatest := by
    intro wanted
    have none : rank '' {row | row ∈ (∅ : Set Row) ∧ key row = wanted} = ∅ := by simp
    rw [none]
    exact greatestOf_empty

/-- What is found after a row came has the larger of the two ranks. -/
theorem rank_find?_keepBest
    (ranks : Ranks rank stays)
    (table : Table Row key)
    (row : Row)
    (wanted : Key) :
    ((keepBest stays table row).find? wanted).map rank =
      if wanted = key row then larger ((table.find? wanted).map rank) (rank row)
      else (table.find? wanted).map rank := by
  unfold keepBest
  by_cases isKey : wanted = key row
  · rw [if_pos isKey, isKey]
    cases found : table.find? (key row) with
    | none =>
        rw [Table.find?_put, if_pos rfl]
        rfl
    | some current =>
        dsimp only
        cases kept : stays current row with
        | true =>
            rw [if_pos rfl, found]
            exact congrArg some (max_eq_left (ranks.keeps current row kept)).symm
        | false =>
            rw [if_neg (by simp), Table.find?_put, if_pos rfl]
            exact congrArg some (max_eq_right (ranks.goes current row kept)).symm
  · rw [if_neg isKey]
    split
    · split
      · rfl
      · rw [Table.find?_put, if_neg isKey]
    · rw [Table.find?_put, if_neg isKey]

theorem mem_keepBest
    {row other : Row}
    (held : other ∈ (keepBest stays table row).rows) :
    other = row ∨ other ∈ table.rows := by
  unfold keepBest at held
  split at held
  · split at held
    · exact .inr held
    · exact (Table.mem_put.mp held).imp_right And.left
  · exact (Table.mem_put.mp held).imp_right And.left

/-- A row that comes is one of those that came. -/
theorem BestOf.next
    (ranks : Ranks rank stays)
    (best : BestOf rank came table)
    (row : Row) :
    BestOf rank (insert row came) (keepBest stays table row) where
  drawn := by
    intro other held
    rcases mem_keepBest held with rfl | old
    · exact Set.mem_insert _ _
    · exact Set.mem_insert_of_mem _ (best.drawn other old)
  greatest := by
    intro wanted
    rw [rank_find?_keepBest ranks]
    by_cases isKey : wanted = key row
    · have grown : rank '' {other | other ∈ insert row came ∧ key other = wanted} =
          insert (rank row) (rank '' {other | other ∈ came ∧ key other = wanted}) := by
        rw [← Set.image_insert_eq]
        congr 1
        ext other
        constructor
        · rintro ⟨rfl | old, named⟩
          · exact .inl rfl
          · exact .inr ⟨old, named⟩
        · rintro (rfl | ⟨old, named⟩)
          · exact ⟨.inl rfl, isKey.symm⟩
          · exact ⟨.inr old, named⟩
      rw [if_pos isKey, grown]
      exact (best.greatest wanted).insert (rank row)
    · have same : {other | other ∈ insert row came ∧ key other = wanted} =
          {other | other ∈ came ∧ key other = wanted} := by
        ext other
        constructor
        · rintro ⟨rfl | old, named⟩
          · exact absurd named.symm isKey
          · exact ⟨old, named⟩
        · rintro ⟨old, named⟩
          exact ⟨.inr old, named⟩
      rw [if_neg isKey, same]
      exact best.greatest wanted

/-- Rows that come one after the other. -/
theorem BestOf.foldl
    (ranks : Ranks rank stays)
    (best : BestOf rank came table)
    (rows : List Row) :
    BestOf rank (came ∪ {row | row ∈ rows}) (rows.foldl (keepBest stays) table) := by
  induction rows generalizing came table with
  | nil => simpa using best
  | cons row rows inductionHypothesis =>
      have grown : came ∪ {other | other ∈ row :: rows} =
          insert row came ∪ {other | other ∈ rows} := by
        ext other
        change (other ∈ came ∨ other ∈ row :: rows) ↔ (other = row ∨ other ∈ came) ∨ other ∈ rows
        rw [List.mem_cons]
        tauto
      rw [List.foldl_cons, grown]
      exact inductionHypothesis (best.next ranks row)

/-- The best of the best and of others is the best of all. -/
theorem BestOf.absorb
    {others : Set Row}
    {earlier : Table Row key}
    (earlierBest : BestOf rank came earlier)
    (best : BestOf rank ({row | row ∈ earlier.rows} ∪ others) table) :
    BestOf rank (came ∪ others) table where
  drawn := by
    intro row held
    rcases best.drawn row held with kept | isOther
    · exact .inl (earlierBest.drawn row kept)
    · exact .inr isOther
  greatest := by
    intro wanted
    have isBest := best.greatest wanted
    have isEarlierBest := earlierBest.greatest wanted
    cases found : (table.find? wanted).map rank with
    | none =>
        rw [found] at isBest
        have noneCame : rank '' {row | row ∈ {row | row ∈ earlier.rows} ∪ others ∧
            key row = wanted} = ∅ := isBest
        rw [Set.image_eq_empty] at noneCame
        change rank '' {row | row ∈ came ∪ others ∧ key row = wanted} = ∅
        rw [Set.image_eq_empty, Set.eq_empty_iff_forall_notMem]
        rintro row ⟨isCame | isOther, named⟩
        · -- of a key that came before, a row is still there
          have someCame : (rank '' {row | row ∈ came ∧ key row = wanted}).Nonempty :=
            ⟨rank row, row, ⟨isCame, named⟩, rfl⟩
          have stillThere := isEarlierBest.isSome_iff.mpr someCame
          rw [Option.isSome_map] at stillThere
          obtain ⟨kept, isKept⟩ := Option.isSome_iff_exists.mp stillThere
          obtain ⟨held, keptNamed⟩ := Table.find?_eq_some_iff.mp isKept
          exact Set.eq_empty_iff_forall_notMem.mp noneCame kept ⟨.inl held, keptNamed⟩
        · exact Set.eq_empty_iff_forall_notMem.mp noneCame row ⟨.inr isOther, named⟩
    | some top =>
        rw [found] at isBest
        have isTop : IsGreatest (rank '' {row | row ∈ {row | row ∈ earlier.rows} ∪ others ∧
            key row = wanted}) top := isBest
        refine ⟨?_, ?_⟩
        · obtain ⟨row, ⟨kept | isOther, named⟩, isRank⟩ := isTop.1
          · exact ⟨row, ⟨.inl (earlierBest.drawn row kept), named⟩, isRank⟩
          · exact ⟨row, ⟨.inr isOther, named⟩, isRank⟩
        · rintro _ ⟨row, ⟨isCame | isOther, named⟩, rfl⟩
          · cases isKept : earlier.find? wanted with
            | none =>
                rw [isKept] at isEarlierBest
                have noneCame : rank '' {row | row ∈ came ∧ key row = wanted} = ∅ := isEarlierBest
                rw [Set.image_eq_empty] at noneCame
                exact absurd ⟨isCame, named⟩ (Set.eq_empty_iff_forall_notMem.mp noneCame row)
            | some kept =>
                rw [isKept] at isEarlierBest
                have keptTop : IsGreatest (rank '' {row | row ∈ came ∧ key row = wanted})
                    (rank kept) := isEarlierBest
                obtain ⟨held, keptNamed⟩ := Table.find?_eq_some_iff.mp isKept
                exact (keptTop.2 ⟨row, ⟨isCame, named⟩, rfl⟩).trans
                  (isTop.2 ⟨kept, ⟨.inl held, keptNamed⟩, rfl⟩)
          · exact isTop.2 ⟨row, ⟨.inr isOther, named⟩, rfl⟩

/-- A row of a table is the best of its key. -/
theorem BestOf.best
    (best : BestOf rank came table)
    {row : Row}
    (held : row ∈ table.rows) :
    ∀ other ∈ came, key other = key row → rank other ≤ rank row := by
  intro other isCame sameKey
  have isTop := best.greatest (key row)
  rw [Table.find?_of_mem held] at isTop
  have top : IsGreatest (rank '' {other | other ∈ came ∧ key other = key row}) (rank row) := isTop
  exact top.2 ⟨other, ⟨isCame, sameKey⟩, rfl⟩

/-- Of every key that came there is a row. -/
theorem BestOf.exists_row
    (best : BestOf rank came table)
    {row : Row}
    (isCame : row ∈ came) :
    ∃ kept ∈ table.rows, key kept = key row := by
  have someCame : (rank '' {other | other ∈ came ∧ key other = key row}).Nonempty :=
    ⟨rank row, row, ⟨isCame, rfl⟩, rfl⟩
  have isHeld := (best.greatest (key row)).isSome_iff.mpr someCame
  rw [Option.isSome_map] at isHeld
  obtain ⟨kept, isKept⟩ := Option.isSome_iff_exists.mp isHeld
  exact ⟨kept, Table.find?_eq_some_iff.mp isKept⟩

/-- Only the row of its own key can be another after a row came. -/
theorem find?_keepBest_of_ne
    {row : Row}
    {wanted : Key}
    (different : wanted ≠ key row) :
    (keepBest stays table row).find? wanted = table.find? wanted := by
  unfold keepBest
  split
  · split
    · rfl
    · rw [Table.find?_put, if_neg different]
  · rw [Table.find?_put, if_neg different]

/-- A row that came before changes nothing when it comes again, unless another row of its
key and rank stands. -/
theorem BestOf.find?_again
    (ranks : Ranks rank stays)
    (best : BestOf rank came table)
    {row : Row}
    (isCame : row ∈ came)
    (alone : ∀ current, table.find? (key row) = some current → rank current = rank row →
      current = row)
    (wanted : Key) :
    (keepBest stays table row).find? wanted = table.find? wanted := by
  by_cases isKey : wanted = key row
  · obtain ⟨current, held, named⟩ := best.exists_row isCame
    have found : table.find? (key row) = some current :=
      Table.find?_eq_some_iff.mpr ⟨held, named⟩
    unfold keepBest
    rw [isKey, found]
    dsimp only
    cases kept : stays current row with
    | true =>
        rw [if_pos rfl]
        exact found
    | false =>
        have sameRank : rank current = rank row := le_antisymm (ranks.goes current row kept)
          (best.best held row isCame named.symm)
        rw [if_neg (by simp), Table.find?_put, if_pos rfl, alone current found sameRank]
  · exact find?_keepBest_of_ne isKey

/-- Two tables of the best of the same rows have rows of the same keys and ranks. -/
theorem BestOf.stamps_perm
    (best : BestOf rank came table)
    {other : Table Row key}
    (otherBest : BestOf rank came other) :
    (table.rows.map fun row => (key row, rank row)).Perm
      (other.rows.map fun row => (key row, rank row)) := by
  have distinct : ∀ table : Table Row key,
      (table.rows.map fun row => (key row, rank row)).Nodup := by
    intro table
    have keys : ((table.rows.map fun row => (key row, rank row)).map Prod.fst).Nodup := by
      rw [List.map_map]
      exact table.distinct
    exact List.Nodup.of_map _ keys
  have among : ∀ first second : Table Row key, BestOf rank came first → BestOf rank came second →
      ∀ stamp ∈ first.rows.map (fun row => (key row, rank row)),
        stamp ∈ second.rows.map fun row => (key row, rank row) := by
    intro first second firstBest secondBest stamp held
    obtain ⟨row, rowHeld, rfl⟩ := List.mem_map.mp held
    obtain ⟨kept, keptHeld, sameKey⟩ := secondBest.exists_row (firstBest.drawn row rowHeld)
    have sameRank : rank kept = rank row := le_antisymm
      (firstBest.best rowHeld kept (secondBest.drawn kept keptHeld) sameKey)
      (secondBest.best keptHeld row (firstBest.drawn row rowHeld) sameKey.symm)
    exact List.mem_map.mpr ⟨kept, keptHeld, Prod.ext sameKey sameRank⟩
  exact (List.perm_ext_iff_of_nodup (distinct table) (distinct other)).mpr fun stamp =>
    ⟨among table other best otherBest stamp, among other table otherBest best stamp⟩

/-- They are the same rows where no two that came have one key and one rank. -/
theorem BestOf.rows_perm
    (best : BestOf rank came table)
    {other : Table Row key}
    (otherBest : BestOf rank came other)
    (apart : ∀ first ∈ came, ∀ second ∈ came, key first = key second →
      rank first = rank second → first = second) :
    table.rows.Perm other.rows := by
  have distinct : ∀ table : Table Row key, table.rows.Nodup :=
    fun table => List.Nodup.of_map _ table.distinct
  have among : ∀ first second : Table Row key, BestOf rank came first → BestOf rank came second →
      ∀ row ∈ first.rows, row ∈ second.rows := by
    intro first second firstBest secondBest row held
    obtain ⟨kept, keptHeld, sameKey⟩ := secondBest.exists_row (firstBest.drawn row held)
    have sameRank : rank kept = rank row := le_antisymm
      (firstBest.best held kept (secondBest.drawn kept keptHeld) sameKey)
      (secondBest.best keptHeld row (firstBest.drawn row held) sameKey.symm)
    have same := apart kept (secondBest.drawn kept keptHeld) row (firstBest.drawn row held)
      sameKey sameRank
    exact same ▸ keptHeld
  exact (List.perm_ext_iff_of_nodup (distinct table) (distinct other)).mpr fun row =>
    ⟨among table other best otherBest row, among other table otherBest best row⟩

end

end Lib
