import Mathlib.Order.Basic
import Mathlib.Data.List.Basic

/-!
# Programs of operations

A program performs operations one after another, each of which may depend on the answers
to those before it, and ends with a result.  Run alone, it is answered from one state;
in a pool, the operations of several programs are answered in any order.
-/

namespace Lib

/-- A program: a result, or an operation and what follows each answer. -/
inductive Program (Op : Type) (Answer : Op → Type) (Result : Type) where
  | done (result : Result)
  | perform (op : Op) (next : Answer op → Program Op Answer Result)

namespace Program

variable {Op : Type} {Answer : Op → Type} {Result Value State : Type}

/-- A program that goes on with the result of another. -/
def bind : Program Op Answer Value → (Value → Program Op Answer Result) →
    Program Op Answer Result
  | done value, continuation => continuation value
  | perform op next, continuation => perform op fun answer => (next answer).bind continuation

instance : Monad (Program Op Answer) where
  pure := done
  bind := bind

/-- The program of one operation. -/
def call (op : Op) : Program Op Answer (Answer op) :=
  perform op done

@[simp] theorem pure_eq (value : Value) : (pure value : Program Op Answer Value) = done value :=
  rfl

@[simp] theorem done_bind
    (value : Value)
    (continuation : Value → Program Op Answer Result) :
    done value >>= continuation = continuation value :=
  rfl

@[simp] theorem perform_bind
    (op : Op)
    (next : Answer op → Program Op Answer Value)
    (continuation : Value → Program Op Answer Result) :
    perform op next >>= continuation = perform op fun answer => next answer >>= continuation :=
  rfl

@[simp] theorem call_bind
    (op : Op)
    (continuation : Answer op → Program Op Answer Result) :
    call op >>= continuation = perform op continuation :=
  rfl

/-- A program as part of programs with more operations. -/
def embed {Wider : Type} {WiderAnswer : Wider → Type} (wrap : Op → Wider)
    (unwrap : ∀ op, WiderAnswer (wrap op) → Answer op) :
    Program Op Answer Result → Program Wider WiderAnswer Result
  | done result => done result
  | perform op next => perform (wrap op) fun answer => (next (unwrap op answer)).embed wrap unwrap

/-- A program has no operation left. -/
def isDone : Program Op Answer Result → Bool
  | done _ => true
  | perform _ _ => false

/-! ## Every operation of a program -/

/-- Whatever is answered, the program performs only operations that a condition allows. -/
def Always (allowed : Op → Prop) : Program Op Answer Result → Prop
  | done _ => True
  | perform op next => allowed op ∧ ∀ answer, (next answer).Always allowed

section Always

variable {allowed weaker : Op → Prop}

@[simp] theorem always_done
    (result : Result) :
    (done result : Program Op Answer Result).Always allowed :=
  trivial

@[simp] theorem always_perform
    {op : Op}
    {next : Answer op → Program Op Answer Result} :
    (perform op next).Always allowed ↔ allowed op ∧ ∀ answer, (next answer).Always allowed :=
  Iff.rfl

theorem always_call
    {op : Op}
    {continuation : Answer op → Program Op Answer Result}
    (isAllowed : allowed op)
    (rest : ∀ answer, (continuation answer).Always allowed) :
    (call op >>= continuation).Always allowed :=
  ⟨isAllowed, rest⟩

theorem always_bind
    {program : Program Op Answer Value}
    {continuation : Value → Program Op Answer Result}
    (first : program.Always allowed)
    (rest : ∀ value, (continuation value).Always allowed) :
    (program >>= continuation).Always allowed := by
  induction program with
  | done value => exact rest value
  | perform op next inductionHypothesis =>
      exact ⟨first.1, fun answer => inductionHypothesis answer (first.2 answer)⟩

/-- What a program performs as part of wider ones. -/
theorem always_embed
    {Wider : Type}
    {WiderAnswer : Wider → Type}
    {wrap : Op → Wider}
    {unwrap : ∀ op, WiderAnswer (wrap op) → Answer op}
    {wide : Wider → Prop}
    {program : Program Op Answer Result}
    (always : program.Always allowed)
    (implies : ∀ op, allowed op → wide (wrap op)) :
    (program.embed wrap unwrap).Always wide := by
  induction program with
  | done result => trivial
  | perform op next inductionHypothesis =>
      exact ⟨implies op always.1, fun answer =>
        inductionHypothesis (unwrap op answer) (always.2 (unwrap op answer))⟩

theorem Always.mono
    {program : Program Op Answer Result}
    (always : program.Always allowed)
    (implies : ∀ op, allowed op → weaker op) :
    program.Always weaker := by
  induction program with
  | done result => trivial
  | perform op next inductionHypothesis =>
      exact ⟨implies op always.1, fun answer => inductionHypothesis answer (always.2 answer)⟩

end Always

theorem always_true
    (program : Program Op Answer Result) :
    program.Always fun _ => True := by
  induction program with
  | done result => trivial
  | perform op next inductionHypothesis => exact ⟨trivial, inductionHypothesis⟩

/-! ## Running alone -/

/-- The state in which a program ends that runs alone, and its result. -/
def run (answer : State → (op : Op) → State × Answer op) : Program Op Answer Result → State →
    State × Result
  | done result, state => (state, result)
  | perform op next, state => (next (answer state op).2).run answer (answer state op).1

section Run

variable {answer : State → (op : Op) → State × Answer op} {allowed : Op → Prop}

@[simp] theorem run_done
    (result : Result)
    (state : State) :
    (done result : Program Op Answer Result).run answer state = (state, result) :=
  rfl

@[simp] theorem run_perform
    (op : Op)
    (next : Answer op → Program Op Answer Result)
    (state : State) :
    (perform op next).run answer state =
      (next (answer state op).2).run answer (answer state op).1 :=
  rfl

theorem run_bind
    (program : Program Op Answer Value)
    (continuation : Value → Program Op Answer Result)
    (state : State) :
    (program >>= continuation).run answer state =
      (continuation (program.run answer state).2).run answer (program.run answer state).1 := by
  induction program generalizing state with
  | done value => rfl
  | perform op next inductionHypothesis => exact inductionHypothesis (answer state op).2 _

/-- What the allowed operations keep is kept by a program that performs no others. -/
theorem invariant_of_always
    {invariant : State → Prop}
    (kept : ∀ state op, invariant state → allowed op → invariant (answer state op).1)
    {program : Program Op Answer Result}
    (always : program.Always allowed)
    {state : State}
    (initially : invariant state) :
    invariant (program.run answer state).1 := by
  induction program generalizing state with
  | done result => exact initially
  | perform op next inductionHypothesis =>
      exact inductionHypothesis _ (always.2 _) (kept state op initially always.1)

end Run

end Program

end Lib
