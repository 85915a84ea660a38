import NostrBbs.Lib.Program
import NostrBbs.Lib.Run

/-!
# Pools of programs

The programs of several requests share a state.  Each performs its operations in order,
and between two of them the others may perform any number of theirs.  How an operation
goes is chosen from outside.
-/

namespace Lib

/-- An operation that was performed, how it went, and what was answered. -/
structure Event (Op Choice : Type) (Answer : Op → Type) where
  op : Op
  choice : Choice
  answer : Answer op

/-- A request that is being answered: what was performed for it, and what is left. -/
structure Task (Request Op Choice : Type) (Answer : Op → Type) (Result : Type) where
  request : Request
  past : List (Event Op Choice Answer)
  rest : Program Op Answer Result

/-- A state, and the requests that are being answered from it. -/
structure Pool (State Request Op Choice : Type) (Answer : Op → Type) (Result : Type) where
  state : State
  tasks : List (Task Request Op Choice Answer Result)

/-- A request comes in, or the next operation for one is performed. -/
inductive Move (Request Choice : Type) where
  | start (request : Request)
  | advance (index : Nat) (choice : Choice)

variable {State Request Op Choice Result : Type} {Answer : Op → Type}

/-! ## Programs and what was performed for them -/

namespace Program

/-- Each operation of a program is allowed after what was performed before it. -/
def Follows (allowed : List (Event Op Choice Answer) → Op → Prop) :
    List (Event Op Choice Answer) → Program Op Answer Result → Prop
  | _, done _ => True
  | past, perform op next =>
      allowed past op ∧
        ∀ choice answer, (next answer).Follows allowed (past ++ [⟨op, choice, answer⟩])

section Follows

variable {Value : Type} {allowed : List (Event Op Choice Answer) → Op → Prop}
  {past : List (Event Op Choice Answer)}

theorem follows_done
    (result : Result) :
    (done result : Program Op Answer Result).Follows allowed past :=
  trivial

theorem follows_call
    {op : Op}
    {continuation : Answer op → Program Op Answer Result}
    (isAllowed : allowed past op)
    (rest : ∀ choice answer,
      (continuation answer).Follows allowed (past ++ [⟨op, choice, answer⟩])) :
    (call op >>= continuation).Follows allowed past :=
  ⟨isAllowed, rest⟩

theorem Follows.bind
    {program : Program Op Answer Value}
    {continuation : Value → Program Op Answer Result}
    (first : program.Follows allowed past)
    (rest : ∀ value more, (continuation value).Follows allowed (past ++ more)) :
    (program >>= continuation).Follows allowed past := by
  induction program generalizing past with
  | done value =>
      have following := rest value []
      rw [List.append_nil] at following
      exact following
  | perform op next inductionHypothesis =>
      refine ⟨first.1, ?_⟩
      intro choice answer
      refine inductionHypothesis answer (first.2 choice answer) ?_
      intro value more
      rw [List.append_assoc]
      exact rest value _

/-- A program that goes on after one whose operations have a property: each that was
performed in between has it. -/
theorem Follows.bind_of_always
    {always : Op → Prop}
    {program : Program Op Answer Value}
    {continuation : Value → Program Op Answer Result}
    (first : program.Follows allowed past)
    (allows : program.Always always)
    (rest : ∀ value more, (∀ event ∈ more, always event.op) →
      (continuation value).Follows allowed (past ++ more)) :
    (program >>= continuation).Follows allowed past := by
  induction program generalizing past with
  | done value =>
      have following := rest value [] (by simp)
      rw [List.append_nil] at following
      exact following
  | perform op next inductionHypothesis =>
      refine ⟨first.1, ?_⟩
      intro choice answer
      refine inductionHypothesis answer (first.2 choice answer) (allows.2 answer) ?_
      intro value more allAlways
      rw [List.append_assoc]
      apply rest value
      intro event member
      rcases List.mem_append.mp member with isFirst | isMore
      · rw [List.mem_singleton.mp isFirst]
        exact allows.1
      · exact allAlways event isMore

/-- Operations that are allowed whatever was performed before. -/
theorem Always.follows
    {always : Op → Prop}
    {program : Program Op Answer Result}
    (allows : program.Always always)
    (implies : ∀ past op, always op → allowed past op) :
    program.Follows allowed past := by
  induction program generalizing past with
  | done result => trivial
  | perform op next inductionHypothesis =>
      exact ⟨implies past op allows.1, fun choice answer =>
        inductionHypothesis answer (allows.2 answer)⟩

theorem Follows.mono
    {weaker : List (Event Op Choice Answer) → Op → Prop}
    {program : Program Op Answer Result}
    (follows : program.Follows allowed past)
    (implies : ∀ past op, allowed past op → weaker past op) :
    program.Follows weaker past := by
  induction program generalizing past with
  | done result => trivial
  | perform op next inductionHypothesis =>
      exact ⟨implies past op follows.1, fun choice answer =>
        inductionHypothesis answer (follows.2 choice answer)⟩

/-- Operations of which each has a property follow on events that have it. -/
theorem Always.follows_events
    {always : Op → Prop}
    {program : Program Op Answer Result}
    (allows : program.Always always)
    (before : ∀ event ∈ past, always event.op) :
    program.Follows (fun past op => (∀ event ∈ past, always event.op) ∧ always op) past := by
  induction program generalizing past with
  | done result => trivial
  | perform op next inductionHypothesis =>
      refine ⟨⟨before, allows.1⟩, ?_⟩
      intro choice answer
      apply inductionHypothesis answer (allows.2 answer)
      intro event member
      rcases List.mem_append.mp member with isOld | isNew
      · exact before event isOld
      · rw [List.mem_singleton.mp isNew]
        exact allows.1

end Follows

/-- A program ends with a result that has a property after what was performed. -/
def Yields (good : List (Event Op Choice Answer) → Result → Prop) :
    List (Event Op Choice Answer) → Program Op Answer Result → Prop
  | past, done result => good past result
  | past, perform op next =>
      ∀ choice answer, (next answer).Yields good (past ++ [⟨op, choice, answer⟩])

section Yields

variable {Value : Type} {past : List (Event Op Choice Answer)}
  {between : List (Event Op Choice Answer) → Value → Prop}
  {good : List (Event Op Choice Answer) → Result → Prop}

theorem yields_call
    {op : Op}
    {continuation : Answer op → Program Op Answer Result}
    (rest : ∀ choice answer,
      (continuation answer).Yields good (past ++ [⟨op, choice, answer⟩])) :
    (call op >>= continuation).Yields good past :=
  rest

theorem yields_done
    {result : Result}
    (isGood : good past result) :
    (done result : Program Op Answer Result).Yields good past :=
  isGood

theorem Yields.mono
    {program : Program Op Answer Result}
    {stronger : List (Event Op Choice Answer) → Result → Prop}
    (yields : program.Yields stronger past)
    (weaker : ∀ later result, stronger later result → good later result) :
    program.Yields good past := by
  induction program generalizing past with
  | done result => exact weaker past result yields
  | perform op next inductionHypothesis =>
      exact fun choice answer => inductionHypothesis answer (yields choice answer)

theorem Yields.bind
    {program : Program Op Answer Value}
    {continuation : Value → Program Op Answer Result}
    (first : program.Yields between past)
    (rest : ∀ more value, between (past ++ more) value →
      (continuation value).Yields good (past ++ more)) :
    (program >>= continuation).Yields good past := by
  induction program generalizing past with
  | done value =>
      have following := rest [] value
      rw [List.append_nil] at following
      exact following first
  | perform op next inductionHypothesis =>
      intro choice answer
      refine inductionHypothesis answer (first choice answer) ?_
      intro more value
      rw [List.append_assoc]
      exact rest _ value

/-- A program that goes on after one that yields what it needs. -/
theorem Follows.bind_of_yields
    {allowed : List (Event Op Choice Answer) → Op → Prop}
    {program : Program Op Answer Value}
    {continuation : Value → Program Op Answer Result}
    (first : program.Follows allowed past)
    (yields : program.Yields between past)
    (rest : ∀ more value, between (past ++ more) value →
      (continuation value).Follows allowed (past ++ more)) :
    (program >>= continuation).Follows allowed past := by
  induction program generalizing past with
  | done value =>
      have following := rest [] value
      rw [List.append_nil] at following
      exact following yields
  | perform op next inductionHypothesis =>
      refine ⟨first.1, ?_⟩
      intro choice answer
      refine inductionHypothesis answer (first.2 choice answer) (yields choice answer) ?_
      intro more value
      rw [List.append_assoc]
      exact rest _ value

/-- A program as part of wider ones yields what its own yield implies of the events that
correspond to its own. -/
theorem Yields.embed
    {Wider WiderChoice : Type}
    {WiderAnswer : Wider → Type}
    {wrap : Op → Wider}
    {unwrap : ∀ op, WiderAnswer (wrap op) → Answer op}
    (lower : WiderChoice → Choice)
    {related : List (Event Op Choice Answer) → List (Event Wider WiderChoice WiderAnswer) → Prop}
    {wide : List (Event Wider WiderChoice WiderAnswer) → Result → Prop}
    (goesOn : ∀ past widePast op choice answer, related past widePast →
      related (past ++ [⟨op, lower choice, unwrap op answer⟩])
        (widePast ++ [⟨wrap op, choice, answer⟩]))
    (implies : ∀ past widePast result, related past widePast → good past result →
      wide widePast result)
    {program : Program Op Answer Result}
    (yields : program.Yields good past)
    {widePast : List (Event Wider WiderChoice WiderAnswer)}
    (start : related past widePast) :
    (program.embed wrap unwrap).Yields wide widePast := by
  induction program generalizing past widePast with
  | done result => exact implies past widePast result start yields
  | perform op next inductionHypothesis =>
      intro choice answer
      exact inductionHypothesis (unwrap op answer) (yields (lower choice) (unwrap op answer))
        (goesOn past widePast op choice answer start)

/-- What was performed before a program is still part of what was performed. -/
theorem yields_past
    (program : Program Op Answer Result) :
    program.Yields (fun later _ => past <+: later) past := by
  induction program generalizing past with
  | done result => exact List.prefix_refl past
  | perform op next inductionHypothesis =>
      intro choice answer
      refine (inductionHypothesis answer).mono ?_
      intro later result isPrefix
      exact (List.prefix_append past _).trans isPrefix

end Yields

end Program

/-! ## Steps of a pool -/

namespace Pool

variable (program : Request → Program Op Answer Result)
  (answer : State → Choice → (op : Op) → State × Answer op)

/-- A request whose program is still to begin. -/
def fresh (request : Request) : Task Request Op Choice Answer Result :=
  ⟨request, [], program request⟩

/-- The next operation of a task, performed. -/
def perform (state : State) (choice : Choice) (task : Task Request Op Choice Answer Result) :
    State × Task Request Op Choice Answer Result :=
  match task.rest with
  | .done _ => (state, task)
  | .perform op next =>
      let answered := answer state choice op
      (answered.1, ⟨task.request, task.past ++ [⟨op, choice, answered.2⟩], next answered.2⟩)

def step (pool : Pool State Request Op Choice Answer Result) :
    Move Request Choice → Pool State Request Op Choice Answer Result
  | .start request => ⟨pool.state, pool.tasks ++ [fresh program request]⟩
  | .advance index choice =>
      match pool.tasks[index]? with
      | none => pool
      | some task =>
          let performed := perform answer pool.state choice task
          ⟨performed.1, pool.tasks.set index performed.2⟩

/-- A pool that answers no request. -/
def idle (state : State) : Pool State Request Op Choice Answer Result :=
  ⟨state, []⟩

/-- What an advance does: nothing when there is no operation left, and otherwise the next
operation. -/
theorem advance_cases
    (pool : Pool State Request Op Choice Answer Result)
    (index : Nat)
    (choice : Choice) :
    (step program answer pool (.advance index choice) = pool ∧
        ∀ task ∈ pool.tasks[index]?, ∀ op next, task.rest ≠ .perform op next) ∨
      ∃ task op next, pool.tasks[index]? = some task ∧ task.rest = .perform op next ∧
        step program answer pool (.advance index choice) =
          ⟨(answer pool.state choice op).1,
            pool.tasks.set index ⟨task.request,
              task.past ++ [⟨op, choice, (answer pool.state choice op).2⟩],
              next (answer pool.state choice op).2⟩⟩ := by
  cases found : pool.tasks[index]? with
  | none =>
      refine .inl ⟨?_, nofun⟩
      unfold step
      dsimp only
      rw [found]
  | some task =>
      cases isRest : task.rest with
      | done result =>
          left
          obtain ⟨inBounds, isTask⟩ := List.getElem?_eq_some_iff.mp found
          constructor
          · unfold step perform
            dsimp only
            rw [found]
            dsimp only
            rw [isRest]
            dsimp only
            rw [← isTask, List.set_getElem_self]
          · intro other isOther op next isPerform
            cases isOther
            rw [isRest] at isPerform
            cases isPerform
      | perform op next =>
          refine .inr ⟨task, op, next, rfl, isRest, ?_⟩
          unfold step perform
          dsimp only
          rw [found]
          dsimp only
          rw [isRest]

/-- What a move of a pool does: nothing, a request comes in, or the next operation of a
task is performed. -/
theorem step_cases
    (pool : Pool State Request Op Choice Answer Result)
    (move : Move Request Choice) :
    step program answer pool move = pool ∨
      (∃ request, move = .start request ∧
        step program answer pool move = ⟨pool.state, pool.tasks ++ [fresh program request]⟩) ∨
      ∃ index choice task op next, move = .advance index choice ∧
        pool.tasks[index]? = some task ∧ task.rest = .perform op next ∧
          step program answer pool move =
            ⟨(answer pool.state choice op).1,
              pool.tasks.set index ⟨task.request,
                task.past ++ [⟨op, choice, (answer pool.state choice op).2⟩],
                next (answer pool.state choice op).2⟩⟩ := by
  cases move with
  | start request => exact Or.inr (Or.inl ⟨request, rfl, rfl⟩)
  | advance index choice =>
      rcases advance_cases program answer pool index choice with
        ⟨unchanged, -⟩ | ⟨task, op, next, found, isRest, performed⟩
      · exact Or.inl unchanged
      · exact Or.inr (Or.inr ⟨index, choice, task, op, next, rfl, found, isRest, performed⟩)

section Rules

variable {program answer} {pool : Pool State Request Op Choice Answer Result}
  {allowed : Request → List (Event Op Choice Answer) → Op → Prop}

/-- What is left of each task is allowed after what was performed for it. -/
def Followed (allowed : Request → List (Event Op Choice Answer) → Op → Prop)
    (pool : Pool State Request Op Choice Answer Result) : Prop :=
  ∀ task ∈ pool.tasks, task.rest.Follows (allowed task.request) task.past

theorem followed_step
    (follows : ∀ request, (program request).Follows (allowed request) [])
    (followed : pool.Followed allowed)
    (move : Move Request Choice) :
    (step program answer pool move).Followed allowed := by
  rcases step_cases program answer pool move with
    unchanged | ⟨request, -, started⟩ | ⟨index, choice, task, op, next, -, found, isRest, performed⟩
  · rw [unchanged]
    exact followed
  · rw [started]
    intro task member
    rcases List.mem_append.mp member with isOld | isNew
    · exact followed task isOld
    · rw [List.mem_singleton.mp isNew]
      exact follows request
  · rw [performed]
    intro other member
    rcases List.mem_or_eq_of_mem_set member with isOld | isNew
    · exact followed other isOld
    · have before := followed task (List.mem_of_getElem? found)
      rw [isRest] at before
      rw [isNew]
      exact before.2 choice _

/-- What holds of an idle pool and is kept when a request comes in, and when an operation
is performed that its program allows, holds after every move. -/
theorem invariant_run
    {invariant : Pool State Request Op Choice Answer Result → Prop}
    (follows : ∀ request, (program request).Follows (allowed request) [])
    (started : ∀ pool request, invariant pool →
      invariant ⟨pool.state, pool.tasks ++ [fresh program request]⟩)
    (performed : ∀ pool index choice task op next, invariant pool →
      pool.tasks[index]? = some task → task.rest = .perform op next →
        allowed task.request task.past op →
          invariant ⟨(answer pool.state choice op).1,
            pool.tasks.set index ⟨task.request,
              task.past ++ [⟨op, choice, (answer pool.state choice op).2⟩],
              next (answer pool.state choice op).2⟩⟩)
    {state : State}
    (initially : invariant (idle state))
    (moves : List (Move Request Choice)) :
    invariant (run (step program answer) (idle state) moves) := by
  have both : ∀ pool move, pool.Followed allowed ∧ invariant pool →
      (step program answer pool move).Followed allowed ∧
        invariant (step program answer pool move) := by
    rintro pool move ⟨followed, holds⟩
    refine ⟨followed_step follows followed move, ?_⟩
    rcases step_cases program answer pool move with
      unchanged | ⟨request, -, begun⟩ | ⟨index, choice, task, op, next, -, found, isRest, after⟩
    · rw [unchanged]
      exact holds
    · rw [begun]
      exact started pool request holds
    · rw [after]
      have allows := followed task (List.mem_of_getElem? found)
      rw [isRest] at allows
      exact performed pool index choice task op next holds found isRest allows.1
  have start : (idle state : Pool State Request Op Choice Answer Result).Followed allowed ∧
      invariant (idle state) := ⟨by rintro task ⟨⟩, initially⟩
  exact (Lib.invariant_run both start moves).2

/-- The operation that a move performs, if it performs one, meets a condition in the state
and after what was performed for its request. -/
def PerformsAfter (condition : State → List (Event Op Choice Answer) → Choice → Op → Prop)
    (pool : Pool State Request Op Choice Answer Result) : Move Request Choice → Prop
  | .start _ => True
  | .advance index choice =>
      ∀ task ∈ pool.tasks[index]?, ∀ op next, task.rest = .perform op next →
        condition pool.state task.past choice op

instance PerformsAfter.decidable
    (condition : State → List (Event Op Choice Answer) → Choice → Op → Prop)
    [∀ state past choice op, Decidable (condition state past choice op)]
    (pool : Pool State Request Op Choice Answer Result)
    (move : Move Request Choice) :
    Decidable (PerformsAfter condition pool move) :=
  match move with
  | .start _ => isTrue trivial
  | .advance index choice =>
      match found : pool.tasks[index]? with
      | none => isTrue fun task isTask => absurd (found.symm.trans isTask) nofun
      | some task =>
          match isRest : task.rest with
          | .done _ => isTrue fun other isTask op next isPerform => by
              obtain rfl := Option.some.inj (found.symm.trans isTask)
              exact absurd (isRest.symm.trans isPerform) nofun
          | .perform op next =>
              decidable_of_iff (condition pool.state task.past choice op) <| by
                constructor
                · intro meets other isTask otherOp otherNext isPerform
                  obtain rfl := Option.some.inj (found.symm.trans isTask)
                  injection isRest.symm.trans isPerform with sameOp
                  rw [← sameOp]
                  exact meets
                · intro meets
                  exact meets task found op next isRest

section PerformsAfter

variable {condition conclusion : State → List (Event Op Choice Answer) → Choice → Op → Prop}
  {invariant : Pool State Request Op Choice Answer Result → Prop}

/-- An invariant that a request which comes in keeps, and an allowed operation where it meets
a condition. -/
structure KeptBy (program : Request → Program Op Answer Result)
    (answer : State → Choice → (op : Op) → State × Answer op)
    (allowed : Request → List (Event Op Choice Answer) → Op → Prop)
    (condition : State → List (Event Op Choice Answer) → Choice → Op → Prop)
    (invariant : Pool State Request Op Choice Answer Result → Prop) : Prop where
  started : ∀ pool request, invariant pool →
    invariant ⟨pool.state, pool.tasks ++ [fresh program request]⟩
  performed : ∀ pool index choice task op next, invariant pool →
    pool.tasks[index]? = some task → task.rest = .perform op next →
      allowed task.request task.past op → condition pool.state task.past choice op →
        invariant ⟨(answer pool.state choice op).1,
          pool.tasks.set index ⟨task.request,
            task.past ++ [⟨op, choice, (answer pool.state choice op).2⟩],
            next (answer pool.state choice op).2⟩⟩

theorem KeptBy.step
    (kept : KeptBy program answer allowed condition invariant)
    (follows : ∀ request, (program request).Follows (allowed request) [])
    (pool : Pool State Request Op Choice Answer Result)
    (move : Move Request Choice)
    (holds : pool.Followed allowed ∧ invariant pool)
    (meets : PerformsAfter condition pool move) :
    (step program answer pool move).Followed allowed ∧
      invariant (step program answer pool move) := by
  refine ⟨followed_step follows holds.1 move, ?_⟩
  rcases step_cases program answer pool move with
    unchanged | ⟨request, -, begun⟩ | ⟨index, choice, task, op, next, rfl, found, isRest, after⟩
  · rw [unchanged]
    exact holds.2
  · rw [begun]
    exact kept.started pool request holds.2
  · rw [after]
    have allows := holds.1 task (List.mem_of_getElem? found)
    rw [isRest] at allows
    exact kept.performed pool index choice task op next holds.2 found isRest allows.1
      (meets task found op next isRest)

/-- Such an invariant holds wherever a run goes whose operations all meet the condition. -/
theorem KeptBy.visits
    (kept : KeptBy program answer allowed condition invariant)
    (follows : ∀ request, (program request).Follows (allowed request) [])
    {state : State}
    (initially : invariant (idle state))
    {moves : List (Move Request Choice)}
    (along : Along (Pool.step program answer) (PerformsAfter condition) (idle state) moves) :
    Visits (Pool.step program answer) invariant (idle state) moves := by
  have both := visits_of_along (kept.step follows) ⟨by rintro task ⟨⟩, initially⟩ along
  exact both.mono fun _ holds => holds.2

/-- What such an invariant and the condition imply of an operation is met along the run. -/
theorem KeptBy.along
    (kept : KeptBy program answer allowed condition invariant)
    (follows : ∀ request, (program request).Follows (allowed request) [])
    (concludes : ∀ pool task choice op, invariant pool → task ∈ pool.tasks →
      allowed task.request task.past op → condition pool.state task.past choice op →
        conclusion pool.state task.past choice op)
    {state : State}
    (initially : invariant (idle state))
    {moves : List (Move Request Choice)}
    (along : Along (Pool.step program answer) (PerformsAfter condition) (idle state) moves) :
    Along (Pool.step program answer) (PerformsAfter conclusion) (idle state) moves := by
  refine along_of_along (kept.step follows) ?_ ⟨by rintro task ⟨⟩, initially⟩ along
  rintro pool (request | ⟨index, choice⟩) ⟨followed, holds⟩ meets
  · trivial
  · intro task found op next isRest
    have member := List.mem_of_getElem? found
    have allows := followed task member
    rw [isRest] at allows
    exact concludes pool task choice op holds member allows.1 (meets task found op next isRest)

theorem PerformsAfter.and
    {pool : Pool State Request Op Choice Answer Result}
    {move : Move Request Choice}
    (first : PerformsAfter condition pool move)
    (second : PerformsAfter conclusion pool move) :
    PerformsAfter (fun state past choice op => condition state past choice op ∧
      conclusion state past choice op) pool move := by
  cases move with
  | start request => trivial
  | advance index choice =>
      exact fun task found op next isRest =>
        ⟨first task found op next isRest, second task found op next isRest⟩

/-- The states of a run are ordered when each of its operations leads upwards. -/
theorem ordered_of_performsAfter
    {below : State → State → Prop}
    (refl : ∀ state, below state state)
    (trans : ∀ first second third, below first second → below second third → below first third)
    {pool : Pool State Request Op Choice Answer Result}
    {moves : List (Move Request Choice)}
    (along : Along (step program answer)
      (PerformsAfter fun state _ choice op => below state (answer state choice op).1) pool moves)
    {earlier later : List (Move Request Choice)}
    (isEarlier : earlier <+: later)
    (isLater : later <+: moves) :
    below (run (step program answer) pool earlier).state
      (run (step program answer) pool later).state := by
  have upwards : Along (step program answer)
      (fun pool move => below pool.state (step program answer pool move).state) pool moves := by
    refine along.mono ?_
    intro pool move meets
    rcases step_cases program answer pool move with
      unchanged | ⟨request, -, begun⟩ | ⟨index, choice, task, op, next, rfl, found, isRest, after⟩
    · rw [unchanged]
      exact refl _
    · rw [begun]
      exact refl _
    · rw [after]
      exact meets task found op next isRest
  exact (ordered_iff_along (fun pool => refl pool.state)
    (fun first second third => trans first.state second.state third.state) pool moves).mpr
      upwards earlier later isEarlier isLater

end PerformsAfter

/-- A request that is being answered. -/
def Requested (pool : Pool State Request Op Choice Answer Result) (request : Request) : Prop :=
  ∃ task ∈ pool.tasks, task.request = request

theorem Requested.started
    {request : Request}
    (requested : pool.Requested request)
    (task : Task Request Op Choice Answer Result) :
    (⟨pool.state, pool.tasks ++ [task]⟩ :
      Pool State Request Op Choice Answer Result).Requested request := by
  obtain ⟨old, held, isRequest⟩ := requested
  exact ⟨old, List.mem_append_left _ held, isRequest⟩

theorem Requested.performed
    {request : Request}
    (requested : pool.Requested request)
    {index : Nat}
    {task : Task Request Op Choice Answer Result}
    (found : pool.tasks[index]? = some task)
    (state : State)
    (past : List (Event Op Choice Answer))
    (rest : Program Op Answer Result) :
    (⟨state, pool.tasks.set index ⟨task.request, past, rest⟩⟩ :
      Pool State Request Op Choice Answer Result).Requested request := by
  obtain ⟨old, held, isRequest⟩ := requested
  obtain ⟨place, isOld⟩ := List.mem_iff_getElem?.mp held
  obtain ⟨inBounds, -⟩ := List.getElem?_eq_some_iff.mp found
  by_cases isIndex : index = place
  · have sameTask : task = old := by
      rw [isIndex] at found
      exact Option.some.inj (found.symm.trans isOld)
    refine ⟨_, List.mem_set inBounds _, ?_⟩
    rw [sameTask]
    exact isRequest
  · refine ⟨old, ?_, isRequest⟩
    apply List.mem_of_getElem? (i := place)
    rw [List.getElem?_set_ne isIndex]
    exact isOld

/-- Each operation that was performed for a task was allowed after those before it. -/
def PastAllowed (allowed : Request → List (Event Op Choice Answer) → Op → Prop)
    (pool : Pool State Request Op Choice Answer Result) : Prop :=
  ∀ task ∈ pool.tasks, ∀ before event after, task.past = before ++ event :: after →
    allowed task.request before event.op

theorem pastAllowed_run
    (follows : ∀ request, (program request).Follows (allowed request) [])
    (state : State)
    (moves : List (Move Request Choice)) :
    (run (step program answer) (idle state) moves).PastAllowed allowed := by
  apply invariant_run follows
  case started =>
    intro pool request kept task member
    rcases List.mem_append.mp member with isOld | isNew
    · exact kept task isOld
    · rw [List.mem_singleton.mp isNew]
      intro before event after isPast
      simp [fresh] at isPast
  case performed =>
    intro pool index choice task op next kept found _ isAllowed other member
    rcases List.mem_or_eq_of_mem_set member with isOld | isNew
    · exact kept other isOld
    · rw [isNew]
      intro before event after isPast
      rcases List.eq_nil_or_concat after with rfl | ⟨earlier, last, rfl⟩
      · obtain ⟨rfl, isLast⟩ := List.append_inj' isPast rfl
        obtain rfl := (List.cons.inj isLast).1
        exact isAllowed
      · rw [List.concat_eq_append, ← List.cons_append, ← List.append_assoc] at isPast
        obtain ⟨isEarlier, -⟩ := List.append_inj' isPast rfl
        exact kept task (List.mem_of_getElem? found) before event earlier isEarlier
  case initially =>
    rintro task ⟨⟩

/-! ## Stages -/

/-- Each task is at a stage of its request: a relation of what was performed to what is
left. -/
def Staged (stage : Request → List (Event Op Choice Answer) → Program Op Answer Result → Prop)
    (pool : Pool State Request Op Choice Answer Result) : Prop :=
  ∀ task ∈ pool.tasks, stage task.request task.past task.rest

/-- Tasks are at a stage when every request begins at one and every operation leads from
one to another. -/
theorem staged_step
    {stage : Request → List (Event Op Choice Answer) → Program Op Answer Result → Prop}
    (begins : ∀ request, stage request [] (program request))
    (leads : ∀ request past op next, stage request past (.perform op next) →
      ∀ choice answer, stage request (past ++ [⟨op, choice, answer⟩]) (next answer))
    (staged : pool.Staged stage)
    (move : Move Request Choice) :
    (step program answer pool move).Staged stage := by
  rcases step_cases program answer pool move with
    unchanged | ⟨request, -, started⟩ | ⟨index, choice, task, op, next, -, found, isRest, performed⟩
  · rw [unchanged]
    exact staged
  · rw [started]
    intro task member
    rcases List.mem_append.mp member with isOld | isNew
    · exact staged task isOld
    · rw [List.mem_singleton.mp isNew]
      exact begins request
  · rw [performed]
    intro other member
    rcases List.mem_or_eq_of_mem_set member with isOld | isNew
    · exact staged other isOld
    · have before := staged task (List.mem_of_getElem? found)
      rw [isRest] at before
      rw [isNew]
      exact leads task.request task.past op next before choice _

/-! ## Assertions -/

/-- Each task's assertion about the shared state, what was performed for it and what is
left. -/
def Asserts
    (assertion : State → Request → List (Event Op Choice Answer) → Program Op Answer Result → Prop)
    (pool : Pool State Request Op Choice Answer Result) : Prop :=
  ∀ task ∈ pool.tasks, assertion pool.state task.request task.past task.rest

/-- Assertions hold of every task when they hold as it begins, its own operations lead from
one to another, and the operations of others leave them as they are. -/
theorem asserts_step
    {assertion :
      State → Request → List (Event Op Choice Answer) → Program Op Answer Result → Prop}
    (begins : ∀ state request, assertion state request [] (program request))
    (leads : ∀ state request past op next choice,
      assertion state request past (.perform op next) →
        assertion (answer state choice op).1 request
          (past ++ [⟨op, choice, (answer state choice op).2⟩]) (next (answer state choice op).2))
    (stable : ∀ state request past rest choice op, assertion state request past rest →
      assertion (answer state choice op).1 request past rest)
    (asserts : pool.Asserts assertion)
    (move : Move Request Choice) :
    (step program answer pool move).Asserts assertion := by
  rcases step_cases program answer pool move with
    unchanged | ⟨request, -, started⟩ | ⟨index, choice, task, op, next, -, found, isRest, performed⟩
  · rw [unchanged]
    exact asserts
  · rw [started]
    intro task member
    rcases List.mem_append.mp member with isOld | isNew
    · exact asserts task isOld
    · rw [List.mem_singleton.mp isNew]
      exact begins pool.state request
  · rw [performed]
    intro other member
    rcases List.mem_or_eq_of_mem_set member with isOld | isNew
    · exact stable _ _ _ _ choice op (asserts other isOld)
    · have before := asserts task (List.mem_of_getElem? found)
      rw [isRest] at before
      rw [isNew]
      exact leads _ _ _ op next choice before

/-! ## Properties of the shared state -/

/-- The operation that a move performs, if it performs one, meets a condition in the
state that it is performed in. -/
def Performs (condition : State → Choice → Op → Prop)
    (pool : Pool State Request Op Choice Answer Result) : Move Request Choice → Prop
  | .start _ => True
  | .advance index choice =>
      ∀ task ∈ pool.tasks[index]?, ∀ op next, task.rest = .perform op next →
        condition pool.state choice op

/-- A property of the shared state survives exactly on the runs whose operations meet a
condition, when the condition says exactly which operations keep the property. -/
theorem visits_state_iff
    {property : State → Prop}
    {condition : State → Choice → Op → Prop}
    (exact : ∀ state choice op, property state →
      (property (answer state choice op).1 ↔ condition state choice op))
    {state : State}
    (initially : property state)
    (moves : List (Move Request Choice)) :
    Visits (step program answer) (fun pool => property pool.state) (idle state) moves ↔
      Along (step program answer) (Performs condition) (idle state) moves := by
  have preserved : ∀ pool move, property (pool : Pool State Request Op Choice Answer Result).state →
      True → Performs condition pool move → property (step program answer pool move).state := by
    intro pool move holds _ performs
    rcases step_cases program answer pool move with
      unchanged | ⟨request, -, begun⟩ | ⟨index, choice, task, op, next, rfl, found, isRest, after⟩
    · rw [unchanged]
      exact holds
    · rw [begun]
      exact holds
    · rw [after]
      exact (exact _ choice op holds).mpr (performs task found op next isRest)
  have necessary : ∀ pool move, property (pool : Pool State Request Op Choice Answer Result).state →
      True → property (step program answer pool move).state → Performs condition pool move := by
    intro pool move holds _ later
    cases move with
    | start request => trivial
    | advance index choice =>
        intro task found op next isRest
        unfold step perform at later
        dsimp only at later
        rw [Option.mem_def.mp found] at later
        dsimp only at later
        rw [isRest] at later
        exact (exact _ choice op holds).mp later
  have assumed : Along (step program answer) (fun _ _ => True) (idle state) moves :=
    (along_iff_prefixes _ _).mpr fun _ _ _ => trivial
  exact visits_iff_along preserved (fun _ holds => holds) necessary initially assumed

/-! ## The operations of a run -/

/-- The operation that a move performs, if any, and how it goes. -/
def performs? (pool : Pool State Request Op Choice Answer Result) :
    Move Request Choice → Option (Op × Choice)
  | .start _ => none
  | .advance index choice =>
      pool.tasks[index]?.bind fun task =>
        match task.rest with
        | .done _ => none
        | .perform op _ => some (op, choice)

/-- The operations that a run performs, in order. -/
def performed (program : Request → Program Op Answer Result)
    (answer : State → Choice → (op : Op) → State × Answer op) :
    Pool State Request Op Choice Answer Result → List (Move Request Choice) →
      List (Op × Choice)
  | _, [] => []
  | pool, move :: moves =>
      (pool.performs? move).toList ++ performed program answer (step program answer pool move) moves

/-- What an operation leaves of the shared state. -/
def after (answer : State → Choice → (op : Op) → State × Answer op) (state : State)
    (act : Op × Choice) : State :=
  (answer state act.2 act.1).1

theorem state_step
    (move : Move Request Choice) :
    (step program answer pool move).state =
      run (after answer) pool.state (pool.performs? move).toList := by
  cases move with
  | start request => rfl
  | advance index choice =>
      cases found : pool.tasks[index]? with
      | none => simp [step, performs?, found]
      | some task =>
          cases isRest : task.rest with
          | done result => simp [step, perform, performs?, found, isRest]
          | perform op next => simp [step, perform, performs?, found, isRest, after]

/-- The shared state at the end of a run is what its operations make of the first. -/
theorem state_run
    (pool : Pool State Request Op Choice Answer Result)
    (moves : List (Move Request Choice)) :
    (run (step program answer) pool moves).state =
      run (after answer) pool.state (performed program answer pool moves) := by
  induction moves generalizing pool with
  | nil => rfl
  | cons move moves inductionHypothesis =>
      rw [run_cons, inductionHypothesis, state_step, performed, run_append]

/-- Every operation of a run is one that the programs allow. -/
theorem performed_allowed
    {always : Op → Prop}
    (allows : ∀ request, (program request).Always always)
    {pool : Pool State Request Op Choice Answer Result}
    (rests : ∀ task ∈ pool.tasks, task.rest.Always always)
    {moves : List (Move Request Choice)}
    {act : Op × Choice}
    (isPerformed : act ∈ performed program answer pool moves) :
    always act.1 := by
  induction moves generalizing pool with
  | nil => cases isPerformed
  | cons move moves inductionHypothesis =>
      rw [performed, List.mem_append, Option.mem_toList] at isPerformed
      rcases step_cases program answer pool move with
        unchanged | ⟨request, rfl, begun⟩ | ⟨index, choice, task, op, next, rfl, found, isRest, done⟩
      · rcases isPerformed with now | later
        · cases move with
          | start request => cases now
          | advance index choice =>
              obtain ⟨task, found, isAct⟩ := Option.bind_eq_some_iff.mp now
              have before := rests task (List.mem_of_getElem? found)
              split at isAct
              · cases isAct
              · rename_i op next isRest
                rw [isRest] at before
                rw [← Option.some.inj isAct]
                exact before.1
        · rw [unchanged] at later
          exact inductionHypothesis rests later
      · rcases isPerformed with now | later
        · cases now
        · rw [begun] at later
          refine inductionHypothesis ?_ later
          intro task member
          rcases List.mem_append.mp member with isOld | isNew
          · exact rests task isOld
          · rw [List.mem_singleton.mp isNew]
            exact allows request
      · have before := rests task (List.mem_of_getElem? found)
        rw [isRest] at before
        rcases isPerformed with now | later
        · simp only [performs?, found, Option.bind_some, isRest, Option.some.injEq] at now
          rw [← now]
          exact before.1
        · rw [done] at later
          refine inductionHypothesis ?_ later
          intro other member
          rcases List.mem_or_eq_of_mem_set member with isOld | isNew
          · exact rests other isOld
          · rw [isNew]
            exact before.2 _

/-! ## What was performed -/

/-- An event was performed for a request. -/
def Happened (pool : Pool State Request Op Choice Answer Result) (request : Request)
    (event : Event Op Choice Answer) : Prop :=
  ∃ task ∈ pool.tasks, task.request = request ∧ event ∈ task.past

/-- What happened is not forgotten when a request comes in. -/
theorem Happened.started
    {request : Request}
    {event : Event Op Choice Answer}
    (happened : pool.Happened request event)
    (task : Task Request Op Choice Answer Result) :
    (⟨pool.state, pool.tasks ++ [task]⟩ :
      Pool State Request Op Choice Answer Result).Happened request event := by
  obtain ⟨old, held, isRequest, isPast⟩ := happened
  exact ⟨old, List.mem_append_left _ held, isRequest, isPast⟩

/-- What happened is not forgotten when a task goes on. -/
theorem Happened.performed
    {request : Request}
    {event : Event Op Choice Answer}
    (happened : pool.Happened request event)
    {index : Nat}
    {task : Task Request Op Choice Answer Result}
    (found : pool.tasks[index]? = some task)
    (state : State)
    (latest : Event Op Choice Answer)
    (rest : Program Op Answer Result) :
    (⟨state, pool.tasks.set index ⟨task.request, task.past ++ [latest], rest⟩⟩ :
      Pool State Request Op Choice Answer Result).Happened request event := by
  obtain ⟨old, held, isRequest, isPast⟩ := happened
  obtain ⟨place, isOld⟩ := List.mem_iff_getElem?.mp held
  obtain ⟨inBounds, isTask⟩ := List.getElem?_eq_some_iff.mp found
  by_cases isIndex : index = place
  · have sameTask : task = old := by
      rw [isIndex] at found
      exact Option.some.inj (found.symm.trans isOld)
    refine ⟨_, List.mem_set inBounds _, ?_, ?_⟩
    · rw [sameTask]
      exact isRequest
    · rw [sameTask]
      exact List.mem_append_left _ isPast
  · refine ⟨old, ?_, isRequest, isPast⟩
    apply List.mem_of_getElem? (i := place)
    rw [List.getElem?_set_ne isIndex]
    exact isOld

end Rules

end Pool

end Lib
