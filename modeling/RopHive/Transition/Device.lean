import Mathlib.Tactic.Common

namespace Transition

/-! Devices that are operated one call at a time and answer each of them. -/

structure Device (State Operation Answer : Type) where
  run : State → Operation → Answer × State

namespace Device

variable {State Model Operation Answer : Type}

def after (device : Device State Operation Answer) :
    State → List Operation → State
  | state, [] => state
  | state, operation :: rest => device.after (device.run state operation).2 rest

def answers (device : Device State Operation Answer) :
    State → List Operation → List Answer
  | _, [] => []
  | state, operation :: rest =>
      (device.run state operation).1 ::
        device.answers (device.run state operation).2 rest

/-- `holds` is true before each of the operations. -/
def Throughout (device : Device State Operation Answer)
    (holds : State → Operation → Prop) : State → List Operation → Prop
  | _, [] => True
  | state, operation :: rest =>
      holds state operation ∧
        device.Throughout holds (device.run state operation).2 rest

instance (device : Device State Operation Answer)
    (holds : State → Operation → Prop)
    [decidable : ∀ state operation, Decidable (holds state operation)] :
    ∀ state operations,
      Decidable (device.Throughout holds state operations)
  | _, [] => .isTrue trivial
  | state, operation :: rest =>
      have := instDecidableThroughout device holds
        (device.run state operation).2 rest
      inferInstanceAs (Decidable (_ ∧ _))

variable {device : Device State Operation Answer}
  {model : Device Model Operation Answer}

/-- The simulation rule: from related states the same operations get the same
answers. -/
theorem simulates {related : State → Model → Prop}
    {holds : State → Operation → Prop}
    (step : ∀ state abstract operation, related state abstract →
      holds state operation →
      (device.run state operation).1 = (model.run abstract operation).1 ∧
        related (device.run state operation).2
          (model.run abstract operation).2)
    {state : State} {abstract : Model} {operations : List Operation}
    (start : related state abstract)
    (throughout : device.Throughout holds state operations) :
    device.answers state operations = model.answers abstract operations ∧
      related (device.after state operations)
        (model.after abstract operations) := by
  induction operations generalizing state abstract with
  | nil => exact ⟨rfl, start⟩
  | cons operation rest ih =>
      obtain ⟨same, next⟩ := step state abstract operation start throughout.1
      obtain ⟨answers, ends⟩ := ih next throughout.2
      exact ⟨congrArg₂ List.cons same answers, ends⟩

theorem after_append {state : State} {first second : List Operation} :
    device.after state (first ++ second) =
      device.after (device.after state first) second := by
  induction first generalizing state with
  | nil => rfl
  | cons operation first ih => exact ih

theorem throughout_append {holds : State → Operation → Prop} {state : State}
    {first second : List Operation} :
    device.Throughout holds state (first ++ second) ↔
      device.Throughout holds state first ∧
        device.Throughout holds (device.after state first) second := by
  induction first generalizing state with
  | nil => simp [Throughout, after]
  | cons operation first ih =>
      simp only [List.cons_append, Throughout, after, ih, and_assoc]

end Device

end Transition
