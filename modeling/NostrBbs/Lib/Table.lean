import Mathlib.Data.List.Nodup

/-!
# Keyed tables

A table is a list of rows with distinct keys.  A statement inserts a row, which
fails when its key is held, or changes the rows that a condition names and
leaves their keys.  A map puts a row in the place of the one that holds its key,
and keeps the rows that a condition names.  Rows are read by their keys.
-/

namespace Lib

/-- Rows with distinct keys. -/
structure Table (Row : Type*) {Key : Type*} (key : Row → Key) where
  rows : List Row
  distinct : (rows.map key).Nodup

namespace Table

variable {Row Key : Type*} {key : Row → Key}

instance [DecidableEq Row] : DecidableEq (Table Row key) := fun first second =>
  decidable_of_iff (first.rows = second.rows) <| by
    obtain ⟨rows, distinct⟩ := first
    obtain ⟨otherRows, otherDistinct⟩ := second
    exact ⟨fun same => by cases same; rfl, fun same => by cases same; rfl⟩

/-- A table without rows. -/
def empty : Table Row key :=
  ⟨[], List.nodup_nil⟩

/-- Two rows with one key are the same row. -/
theorem eq_of_key
    (table : Table Row key)
    {first second : Row}
    (firstHeld : first ∈ table.rows)
    (secondHeld : second ∈ table.rows)
    (sameKey : key first = key second) :
    first = second :=
  List.inj_on_of_nodup_map table.distinct firstHeld secondHeld sameKey

/-- Changing the rows that a condition names. -/
def updateWhere
    (table : Table Row key)
    (condition : Row → Bool)
    (change : Row → Row)
    (keeps : ∀ row, key (change row) = key row) : Table Row key where
  rows := table.rows.map fun row => if condition row then change row else row
  distinct := by
    have sameKeys : (table.rows.map fun row => if condition row then change row else row).map key =
        table.rows.map key := by
      rw [List.map_map]
      apply List.map_congr_left
      intro row _
      rw [Function.comp_apply]
      split
      · exact keeps row
      · rfl
    rw [sameKeys]
    exact table.distinct

/-- The number of rows that a condition names. -/
def countWhere (table : Table Row key) (condition : Row → Bool) : Nat :=
  table.rows.countP condition

theorem mem_updateWhere
    {table : Table Row key}
    {other : Row}
    {condition : Row → Bool}
    {change : Row → Row}
    {keeps : ∀ row, key (change row) = key row} :
    other ∈ (table.updateWhere condition change keeps).rows ↔
      ∃ old ∈ table.rows, (if condition old then change old else old) = other := by
  simp [updateWhere]

/-- What a change leaves of the rows, it leaves of the table. -/
theorem map_updateWhere
    {Value : Type*}
    (table : Table Row key)
    (condition : Row → Bool)
    {change : Row → Row}
    (keeps : ∀ row, key (change row) = key row)
    {value : Row → Value}
    (leaves : ∀ row, value (change row) = value row) :
    (table.updateWhere condition change keeps).rows.map value = table.rows.map value := by
  unfold updateWhere
  rw [List.map_map]
  apply List.map_congr_left
  intro row _
  rw [Function.comp_apply]
  split
  · exact leaves row
  · rfl

/-- An update that names no row changes nothing. -/
theorem updateWhere_of_none
    {table : Table Row key}
    {condition : Row → Bool}
    (change : Row → Row)
    (keeps : ∀ row, key (change row) = key row)
    (named : ∀ row ∈ table.rows, condition row = false) :
    table.updateWhere condition change keeps = table := by
  have sameRows : (table.rows.map fun row => if condition row then change row else row) =
      table.rows := by
    conv_rhs => rw [← List.map_id table.rows]
    apply List.map_congr_left
    intro row held
    simp [named row held]
  cases table
  simpa [updateWhere] using sameRows

/-- Only the rows that a condition names. -/
def retain
    (table : Table Row key)
    (condition : Row → Bool) : Table Row key where
  rows := table.rows.filter condition
  distinct := by
    exact table.distinct.sublist (List.filter_sublist.map key)

theorem mem_retain
    {table : Table Row key}
    {condition : Row → Bool}
    {row : Row} :
    row ∈ (table.retain condition).rows ↔ row ∈ table.rows ∧ condition row :=
  List.mem_filter

variable [DecidableEq Key]

/-- The row of a key. -/
def find? (table : Table Row key) (wanted : Key) : Option Row :=
  table.rows.find? fun row => key row = wanted

/-- Inserting a row, which fails when its key is held. -/
def insert (table : Table Row key) (row : Row) : Option (Table Row key) :=
  if held : key row ∈ table.rows.map key then none
  else
    some
      { rows := table.rows ++ [row]
        distinct := by
          rw [List.map_append, List.map_singleton]
          apply List.nodup_append.mpr
          refine ⟨table.distinct, List.nodup_singleton _, ?_⟩
          intro first firstHeld second isNew same
          rw [List.mem_singleton] at isNew
          rw [same, isNew] at firstHeld
          exact held firstHeld }

/-- The rows of every key but one. -/
def erase (table : Table Row key) (unwanted : Key) : Table Row key :=
  table.retain fun row => key row ≠ unwanted

/-- A row put in the place of the one that holds its key, or at the end. -/
def put (table : Table Row key) (row : Row) : Table Row key where
  rows := (table.erase (key row)).rows ++ [row]
  distinct := by
    rw [List.map_append, List.map_singleton]
    apply List.nodup_append.mpr
    refine ⟨(table.erase (key row)).distinct, List.nodup_singleton _, ?_⟩
    intro first firstHeld second isNew same
    rw [List.mem_singleton] at isNew
    obtain ⟨old, oldHeld, rfl⟩ := List.mem_map.mp firstHeld
    have kept := (mem_retain.mp oldHeld).2
    simp [same, isNew] at kept

section

variable {table after : Table Row key} {row other : Row} {wanted : Key}

theorem find?_eq_some_iff :
    table.find? wanted = some row ↔ row ∈ table.rows ∧ key row = wanted := by
  constructor
  · intro found
    have named := List.find?_some found
    exact ⟨List.mem_of_find?_eq_some found, by simpa using named⟩
  · rintro ⟨held, isWanted⟩
    unfold find?
    cases found : table.rows.find? fun row => key row = wanted with
    | none =>
        have unnamed := List.find?_eq_none.mp found row held
        simp [isWanted] at unnamed
    | some other =>
        have named := List.find?_some found
        have otherHeld := List.mem_of_find?_eq_some found
        have same : other = row := table.eq_of_key otherHeld held (by
          rw [isWanted]
          simpa using named)
        rw [same]

theorem find?_eq_none_iff :
    table.find? wanted = none ↔ wanted ∉ table.rows.map key := by
  unfold find?
  simp

theorem find?_of_mem
    (held : row ∈ table.rows) :
    table.find? (key row) = some row :=
  find?_eq_some_iff.mpr ⟨held, rfl⟩

/-- Of one key there is the row that is found, or none. -/
theorem filter_key
    (table : Table Row key)
    (wanted : Key) :
    (table.rows.filter fun row => key row = wanted) = (table.find? wanted).toList := by
  obtain ⟨rows, distinct⟩ := table
  unfold find?
  induction rows with
  | nil => rfl
  | cons head rows inductionHypothesis =>
      rw [List.map_cons, List.nodup_cons] at distinct
      by_cases isWanted : key head = wanted
      · have others : (rows.filter fun row => key row = wanted) = [] := by
          rw [List.filter_eq_nil_iff]
          intro other held
          have different : key other ≠ wanted := by
            rintro rfl
            exact distinct.1 (isWanted ▸ List.mem_map_of_mem held)
          simpa using different
        rw [List.filter_cons_of_pos (by simpa using isWanted), others,
          List.find?_cons_of_pos (by simpa using isWanted)]
        rfl
      · rw [List.filter_cons_of_neg (by simpa using isWanted),
          List.find?_cons_of_neg (by simpa using isWanted)]
        exact inductionHypothesis distinct.2

theorem insert_eq_none_iff :
    table.insert row = none ↔ key row ∈ table.rows.map key := by
  unfold insert
  split
  · rename_i held
    exact iff_of_true rfl held
  · rename_i fresh
    exact iff_of_false (by simp) fresh

/-- An insert that succeeds adds the row at the end. -/
theorem insert_eq_some
    (inserted : table.insert row = some after) :
    key row ∉ table.rows.map key ∧ after.rows = table.rows ++ [row] := by
  unfold insert at inserted
  split at inserted
  · cases inserted
  · cases inserted
    exact ⟨‹_›, rfl⟩

theorem mem_of_insert
    (inserted : table.insert row = some after) :
    other ∈ after.rows ↔ other ∈ table.rows ∨ other = row := by
  rw [(insert_eq_some inserted).2, List.mem_append, List.mem_singleton]

/-- After an insert the new row is found by its key, and every other as before. -/
theorem find?_of_insert
    (inserted : table.insert row = some after)
    (wanted : Key) :
    after.find? wanted = if key row = wanted then some row else table.find? wanted := by
  obtain ⟨fresh, rows⟩ := insert_eq_some inserted
  split
  · rename_i isWanted
    rw [find?_eq_some_iff]
    exact ⟨by simp [rows], isWanted⟩
  · rename_i notWanted
    unfold find?
    rw [rows, List.find?_append]
    simp [notWanted]

/-- An update is found by the keys that were held. -/
theorem find?_updateWhere
    (condition : Row → Bool)
    (change : Row → Row)
    (keeps : ∀ row, key (change row) = key row)
    (wanted : Key) :
    (table.updateWhere condition change keeps).find? wanted =
      (table.find? wanted).map fun row => if condition row then change row else row := by
  cases found : table.find? wanted with
  | none =>
      rw [Option.map_none, find?_eq_none_iff]
      rw [find?_eq_none_iff] at found
      intro held
      obtain ⟨other, otherHeld, isWanted⟩ := List.mem_map.mp held
      obtain ⟨old, oldHeld, rfl⟩ := mem_updateWhere.mp otherHeld
      apply found
      refine List.mem_map.mpr ⟨old, oldHeld, ?_⟩
      rw [← isWanted]
      split
      · exact (keeps old).symm
      · rfl
  | some row =>
      obtain ⟨held, isWanted⟩ := find?_eq_some_iff.mp found
      rw [Option.map_some, find?_eq_some_iff]
      refine ⟨mem_updateWhere.mpr ⟨row, held, rfl⟩, ?_⟩
      split
      · rw [keeps row, isWanted]
      · exact isWanted

/-- Of one key at most one row is named. -/
theorem countWhere_key
    {condition : Row → Bool}
    (onlyWanted : ∀ row, condition row → key row = wanted) :
    table.countWhere condition = if (table.find? wanted).any condition then 1 else 0 := by
  unfold countWhere
  rw [List.countP_eq_length_filter]
  have atMostOne : ∀ first ∈ table.rows.filter condition,
      ∀ second ∈ table.rows.filter condition, first = second := by
    intro first firstNamed second secondNamed
    rw [List.mem_filter] at firstNamed secondNamed
    exact table.eq_of_key firstNamed.1 secondNamed.1
      ((onlyWanted first firstNamed.2).trans (onlyWanted second secondNamed.2).symm)
  have distinctNamed : (table.rows.filter condition).Nodup :=
    (List.Nodup.of_map key table.distinct).filter condition
  split
  · rename_i found
    obtain ⟨row, isRow, named⟩ := (Option.any_eq_true _ _).mp found
    have member : row ∈ table.rows.filter condition :=
      List.mem_filter.mpr ⟨(find?_eq_some_iff.mp isRow).1, named⟩
    have only : table.rows.filter condition = [row] := by
      cases rest : table.rows.filter condition with
      | nil => simp [rest] at member
      | cons head tail =>
          rw [rest] at atMostOne distinctNamed member
          have headIs : head = row := atMostOne head (by simp) row member
          cases tail with
          | nil => rw [headIs]
          | cons next tail =>
              have same := atMostOne head (by simp) next (by simp)
              simp [same] at distinctNamed
    rw [only, List.length_singleton]
  · rename_i notFound
    rw [List.length_eq_zero_iff, List.filter_eq_nil_iff]
    intro row held named
    apply notFound
    apply (Option.any_eq_true _ _).mpr
    exact ⟨row, find?_eq_some_iff.mpr ⟨held, onlyWanted row named⟩, named⟩

/-- A condition that names a held row and no row of another key names one. -/
theorem countWhere_eq_one
    {condition : Row → Bool}
    (found : table.find? wanted = some row)
    (named : condition row)
    (onlyWanted : ∀ row, condition row → key row = wanted) :
    table.countWhere condition = 1 := by
  rw [countWhere_key onlyWanted, found, Option.any_some, if_pos named]

omit [DecidableEq Key] in
/-- Beside a named row there is another one of another key exactly when more than one is
named. -/
theorem one_lt_countWhere_iff
    {condition : Row → Bool}
    (held : row ∈ table.rows)
    (named : condition row) :
    1 < table.countWhere condition ↔
      ∃ other ∈ table.rows, key other ≠ key row ∧ condition other := by
  classical
  have rowNamed : row ∈ table.rows.filter condition :=
    List.mem_filter.mpr ⟨held, named⟩
  have distinctNamed : (table.rows.filter condition).Nodup :=
    (List.Nodup.of_map key table.distinct).filter condition
  have others : 1 < table.countWhere condition ↔
      0 < ((table.rows.filter condition).erase row).length := by
    unfold countWhere
    rw [List.countP_eq_length_filter, List.length_erase_of_mem rowNamed]
    omega
  rw [others, List.length_pos_iff_exists_mem]
  constructor
  · rintro ⟨other, isOther⟩
    obtain ⟨different, otherNamed⟩ := distinctNamed.mem_erase_iff.mp isOther
    obtain ⟨otherHeld, otherMeets⟩ := List.mem_filter.mp otherNamed
    exact ⟨other, otherHeld, fun same => different (table.eq_of_key otherHeld held same),
      otherMeets⟩
  · rintro ⟨other, otherHeld, different, otherMeets⟩
    refine ⟨other, distinctNamed.mem_erase_iff.mpr ⟨?_, List.mem_filter.mpr ⟨otherHeld, otherMeets⟩⟩⟩
    rintro rfl
    exact different rfl

/-- The rows that are kept are found as before, when a condition is about the key
alone or about the row that is found. -/
theorem find?_retain
    (condition : Row → Bool) :
    (table.retain condition).find? wanted = (table.find? wanted).filter condition := by
  cases found : table.find? wanted with
  | none =>
      rw [Option.filter_none, find?_eq_none_iff]
      rw [find?_eq_none_iff] at found
      intro held
      obtain ⟨row, rowHeld, isWanted⟩ := List.mem_map.mp held
      exact found (List.mem_map.mpr ⟨row, (mem_retain.mp rowHeld).1, isWanted⟩)
  | some row =>
      obtain ⟨held, isWanted⟩ := find?_eq_some_iff.mp found
      cases kept : condition row with
      | true =>
          rw [Option.filter_some_pos kept, find?_eq_some_iff]
          exact ⟨mem_retain.mpr ⟨held, kept⟩, isWanted⟩
      | false =>
          rw [Option.filter_some_neg (by simp [kept]), find?_eq_none_iff]
          intro again
          obtain ⟨other, otherHeld, same⟩ := List.mem_map.mp again
          obtain ⟨otherOld, otherKept⟩ := mem_retain.mp otherHeld
          have isRow : other = row := table.eq_of_key otherOld held (same.trans isWanted.symm)
          rw [isRow, kept] at otherKept
          cases otherKept

theorem find?_erase
    (unwanted : Key) :
    (table.erase unwanted).find? wanted =
      if wanted = unwanted then none else table.find? wanted := by
  unfold erase
  rw [find?_retain]
  cases found : table.find? wanted with
  | none =>
      rw [Option.filter_none]
      split <;> rfl
  | some row =>
      have isWanted := (find?_eq_some_iff.mp found).2
      split
      · rename_i same
        exact Option.filter_some_neg (by simp [isWanted, same])
      · rename_i different
        exact Option.filter_some_pos (by simpa [isWanted] using different)

/-- After a row is put it is found by its key, and every other as before. -/
theorem find?_put
    (row : Row)
    (wanted : Key) :
    (table.put row).find? wanted =
      if wanted = key row then some row else table.find? wanted := by
  have rest : (table.put row).find? wanted =
      ((table.erase (key row)).find? wanted).or (if key row = wanted then some row else none) := by
    unfold find? put
    rw [List.find?_append]
    congr 1
    simp only [List.find?_singleton, decide_eq_true_eq]
  rw [rest, find?_erase]
  split
  · rename_i same
    simp [same]
  · rename_i different
    rw [if_neg (Ne.symm different), Option.or_none]

theorem mem_put :
    other ∈ (table.put row).rows ↔ other = row ∨ other ∈ table.rows ∧ key other ≠ key row := by
  unfold put erase
  rw [List.mem_append, mem_retain, List.mem_singleton]
  simp [or_comm]

end

end Table

end Lib
