import Mathlib.Tactic.Common

namespace Transition

/-! Calls that may throw half way: what they have changed by then stays. -/

universe u v w

inductive Attempt (State : Type u) (Error : Type v) (Value : Type w) where
  | returned (value : Value) (state : State)
  | threw (error : Error) (state : State)
  | aborted

namespace Attempt

variable {State : Type u} {Part : Type u} {Error : Type v}
  {Value Other : Type w}

def andThen (attempt : Attempt State Error Value)
    (next : Value → State → Attempt State Error Other) :
    Attempt State Error Other :=
  match attempt with
  | .returned value state => next value state
  | .threw error state => .threw error state
  | .aborted => .aborted

def within (put : Part → State) (attempt : Attempt Part Error Value) :
    Attempt State Error Value :=
  match attempt with
  | .returned value part => .returned value (put part)
  | .threw error part => .threw error (put part)
  | .aborted => .aborted

/-- Where the call throws in a state that `counts`, it has changed nothing. -/
def Unharmed (counts : State → Prop) (before : State)
    (attempt : Attempt State Error Value) : Prop :=
  ∀ error after, attempt = .threw error after → counts after → after = before

variable {counts : State → Prop} {before after : State}
  {attempt : Attempt State Error Value}

@[simp] theorem unharmed_returned (value : Value) :
    Unharmed counts before
      (.returned value after : Attempt State Error Value) :=
  nofun

@[simp] theorem unharmed_aborted :
    Unharmed counts before (.aborted : Attempt State Error Value) :=
  nofun

@[simp] theorem unharmed_threw (error : Error) :
    Unharmed counts before (.threw error after : Attempt State Error Value) ↔
      (counts after → after = before) := by
  constructor
  · exact fun unharmed => unharmed error after rfl
  · rintro same _ _ ⟨⟩
    exact same

@[simp] theorem andThen_returned (value : Value)
    (next : Value → State → Attempt State Error Other) :
    (Attempt.returned value after).andThen next = next value after := rfl

@[simp] theorem andThen_threw (error : Error)
    (next : Value → State → Attempt State Error Other) :
    (Attempt.threw error after).andThen next = .threw error after := rfl

@[simp] theorem andThen_aborted
    (next : Value → State → Attempt State Error Other) :
    (.aborted : Attempt State Error Value).andThen next = .aborted := rfl

@[simp] theorem within_returned (put : Part → State) (value : Value)
    (part : Part) :
    (.returned value part : Attempt Part Error Value).within put =
      .returned value (put part) := rfl

@[simp] theorem within_threw (put : Part → State) (error : Error)
    (part : Part) :
    (.threw error part : Attempt Part Error Value).within put =
      .threw error (put part) := rfl

@[simp] theorem within_aborted (put : Part → State) :
    (.aborted : Attempt Part Error Value).within put = .aborted := rfl

theorem unharmed_andThen
    {next : Value → State → Attempt State Error Other} :
    Unharmed counts before (attempt.andThen next) ↔
      Unharmed counts before attempt ∧
        ∀ value middle, attempt = .returned value middle →
          Unharmed counts before (next value middle) := by
  cases attempt with
  | returned value state =>
      simp only [andThen_returned, unharmed_returned, true_and]
      constructor
      · rintro unharmed _ _ ⟨⟩
        exact unharmed
      · exact fun unharmed => unharmed value state rfl
  | threw error state => simp
  | aborted => simp

end Attempt

end Transition
