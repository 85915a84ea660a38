import Mathlib.Logic.Function.Basic

/-!
# Memos with a time to live

A memo remembers answers of a table together with the time they were taken at, and
serves one again while it is younger than the time to live.  Only present answers are
remembered.
-/

namespace Lib

variable {Key Value : Type*}

/-- Remembered answers, each with its time. -/
structure Memo (Key Value : Type*) where
  entry : Key → Option (Value × Nat)

namespace Memo

/-- Nothing is remembered. -/
def empty : Memo Key Value :=
  ⟨fun _ => none⟩

/-- The remembered answer, while it is young. -/
def get
    (memo : Memo Key Value)
    (ttl : Nat)
    (key : Key)
    (now : Nat) : Option Value :=
  match memo.entry key with
  | none => none
  | some (value, fetchedAt) => if now - fetchedAt < ttl then some value else none

variable [DecidableEq Key]

def insert
    (memo : Memo Key Value)
    (key : Key)
    (value : Value)
    (now : Nat) : Memo Key Value :=
  ⟨Function.update memo.entry key (some (value, now))⟩

/-- A lookup through the memo: its answer, and the memo after it. -/
def lookup
    (memo : Memo Key Value)
    (ttl : Nat)
    (table : Key → Option Value)
    (key : Key)
    (now : Nat) : Option Value × Memo Key Value :=
  match memo.get ttl key now with
  | some value => (some value, memo)
  | none =>
      match table key with
      | none => (none, memo)
      | some value => (some value, memo.insert key value now)

/-- What is remembered of each time stands in a history of the table. -/
def Sourced
    (held : Key → Value → Nat → Prop)
    (memo : Memo Key Value) : Prop :=
  ∀ key value fetchedAt, memo.entry key = some (value, fetchedAt) → held key value fetchedAt

section Rules

variable {held later : Key → Value → Nat → Prop}
  {memo : Memo Key Value}
  {table : Key → Option Value}
  {ttl now : Nat}

omit [DecidableEq Key] in
theorem sourced_empty :
    (empty : Memo Key Value).Sourced held := by
  intro key value fetchedAt isEntry
  cases isEntry

omit [DecidableEq Key] in
theorem Sourced.mono
    (sourced : memo.Sourced held)
    (grows : ∀ key value moment, held key value moment → later key value moment) :
    memo.Sourced later :=
  fun key value fetchedAt isEntry => grows key value fetchedAt
    (sourced key value fetchedAt isEntry)

omit [DecidableEq Key] in
/-- An answer from the memo was the table's less than the time to live ago. -/
theorem get_recent
    (sourced : memo.Sourced held)
    {key : Key}
    {value : Value}
    (answered : memo.get ttl key now = some value) :
    ∃ moment, now - moment < ttl ∧ held key value moment := by
  unfold get at answered
  split at answered
  · cases answered
  · rename_i remembered fetchedAt isEntry
    split at answered
    · rename_i young
      cases answered
      exact ⟨fetchedAt, young, sourced key value fetchedAt isEntry⟩
    · cases answered

/-- A lookup keeps what the memo remembers in the history. -/
theorem lookup_sourced
    (ttl : Nat)
    (sourced : memo.Sourced held)
    (current : ∀ key value, table key = some value → held key value now)
    (key : Key) :
    (memo.lookup ttl table key now).2.Sourced held := by
  unfold lookup
  split
  · exact sourced
  · split
    · exact sourced
    · rename_i value isValue
      intro other found fetchedAt isEntry
      change Function.update memo.entry key (some (value, now)) other = some (found, fetchedAt)
        at isEntry
      by_cases same : other = key
      · subst same
        rw [Function.update_self] at isEntry
        cases isEntry
        exact current other value isValue
      · rw [Function.update_of_ne same] at isEntry
        exact sourced other found fetchedAt isEntry

/-- An answer of a lookup was the table's less than the time to live ago. -/
theorem lookup_recent
    (sourced : memo.Sourced held)
    (current : ∀ key value, table key = some value → held key value now)
    (positive : 0 < ttl)
    {key : Key}
    {value : Value}
    (answered : (memo.lookup ttl table key now).1 = some value) :
    ∃ moment, now - moment < ttl ∧ held key value moment := by
  unfold lookup at answered
  split at answered
  · rename_i remembered isRemembered
    cases answered
    exact get_recent sourced isRemembered
  · split at answered
    · cases answered
    · rename_i found isFound
      cases answered
      refine ⟨now, ?_, current key value isFound⟩
      rw [Nat.sub_self]
      exact positive

/-- A lookup answers nothing only where the table has nothing. -/
theorem table_of_lookup_none
    {key : Key}
    (answered : (memo.lookup ttl table key now).1 = none) :
    table key = none := by
  unfold lookup at answered
  split at answered
  · cases answered
  · split at answered
    · assumption
    · cases answered

end Rules

end Memo

end Lib
