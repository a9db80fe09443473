import Mathlib.Tactic.Common

namespace Transition

/-! Guarded step systems.  A label stands for one atomic step together with the
choices the environment makes in it; `step` is `none` where the label is not
enabled, so one definition replays a concrete run and carries the proofs. -/

universe u v

structure System (State : Type u) (Label : Type v) where
  initial : State → Prop
  step : State → Label → Option State

namespace System

variable {State : Type u} {Label : Type v}

/-- States reached by runs all of whose steps are taken where `guard` holds of
the state before the step and of the step's label. -/
inductive ReachableUnder (system : System State Label)
    (guard : State → Label → Prop) : State → Prop
  | start {state : State} : system.initial state →
      ReachableUnder system guard state
  | next {state : State} {label : Label} {after : State} :
      ReachableUnder system guard state → guard state label →
      system.step state label = some after →
      ReachableUnder system guard after

def Reachable (system : System State Label) : State → Prop :=
  system.ReachableUnder fun _ _ => True

theorem Reachable.start {system : System State Label} {state : State}
    (isInitial : system.initial state) : system.Reachable state :=
  ReachableUnder.start isInitial

theorem Reachable.next {system : System State Label} {state after : State}
    {label : Label} (reached : system.Reachable state)
    (stepped : system.step state label = some after) :
    system.Reachable after :=
  ReachableUnder.next reached trivial stepped

theorem ReachableUnder.mono {system : System State Label}
    {strong weak : State → Label → Prop}
    (weaker : ∀ state label, strong state label → weak state label)
    {state : State} (reached : system.ReachableUnder strong state) :
    system.ReachableUnder weak state := by
  induction reached with
  | start isInitial => exact .start isInitial
  | next _ guarded stepped ih => exact .next ih (weaker _ _ guarded) stepped

/-- The invariant rule: what holds initially and is preserved by every guarded
step holds in every state such steps reach. -/
theorem ReachableUnder.invariant {system : System State Label}
    {guard : State → Label → Prop} (Inv : State → Prop)
    (initially : ∀ state, system.initial state → Inv state)
    (preserved : ∀ state label after, Inv state → guard state label →
      system.step state label = some after → Inv after)
    {state : State} (reached : system.ReachableUnder guard state) :
    Inv state := by
  induction reached with
  | start isInitial => exact initially _ isInitial
  | next _ guarded stepped ih => exact preserved _ _ _ ih guarded stepped

/-- The simulation rule, with stuttering: where each guarded step is followed
by a step of the other system or leaves the image as it is, the image of every
state reached is reached there. -/
theorem ReachableUnder.image {Image : Type*} {ImageLabel : Type*}
    {system : System State Label} {target : System Image ImageLabel}
    {guard : State → Label → Prop} {under : Image → ImageLabel → Prop}
    (image : State → Image)
    (initially : ∀ state, system.initial state →
      target.initial (image state))
    (follows : ∀ state label after, system.ReachableUnder guard state →
      guard state label → system.step state label = some after →
      image after = image state ∨ ∃ answer, under (image state) answer ∧
        target.step (image state) answer = some (image after))
    {state : State} (reached : system.ReachableUnder guard state) :
    target.ReachableUnder under (image state) := by
  induction reached with
  | start isInitial => exact .start (initially _ isInitial)
  | next earlier guarded stepped ih =>
      obtain same | ⟨answer, allowed, followed⟩ :=
        follows _ _ _ earlier guarded stepped
      · rw [same]
        exact ih
      · exact .next ih allowed followed

theorem Reachable.invariant {system : System State Label}
    (Inv : State → Prop)
    (initially : ∀ state, system.initial state → Inv state)
    (preserved : ∀ state label after, Inv state →
      system.step state label = some after → Inv after)
    {state : State} (reached : system.Reachable state) : Inv state :=
  ReachableUnder.invariant Inv initially
    (fun state label after inv _ stepped =>
      preserved state label after inv stepped) reached

def replay (system : System State Label) : State → List Label → Option State
  | state, [] => some state
  | state, label :: labels =>
      (system.step state label).bind fun after => system.replay after labels

@[simp] theorem replay_nil (system : System State Label) (state : State) :
    system.replay state [] = some state := rfl

@[simp] theorem replay_cons (system : System State Label) (state : State)
    (label : Label) (labels : List Label) :
    system.replay state (label :: labels) =
      (system.step state label).bind fun after =>
        system.replay after labels := rfl

/-- Every step of the listed run is taken where `guard` holds. -/
def Follows (system : System State Label) (guard : State → Label → Prop) :
    State → List Label → Prop
  | _, [] => True
  | state, label :: labels =>
      guard state label ∧ ∀ after, system.step state label = some after →
        system.Follows guard after labels

def decideFollows (system : System State Label)
    (guard : State → Label → Prop)
    [∀ state label, Decidable (guard state label)] :
    (state : State) → (labels : List Label) →
      Decidable (system.Follows guard state labels)
  | _, [] => .isTrue trivial
  | state, label :: labels =>
      match stepped : system.step state label with
      | none => decidable_of_iff (guard state label) (by
          simp [Follows, stepped])
      | some after =>
          have := system.decideFollows guard after labels
          decidable_of_iff
            (guard state label ∧ system.Follows guard after labels) (by
              simp [Follows, stepped])

instance (system : System State Label) (guard : State → Label → Prop)
    [∀ state label, Decidable (guard state label)] (state : State)
    (labels : List Label) : Decidable (system.Follows guard state labels) :=
  system.decideFollows guard state labels

theorem ReachableUnder.replay {system : System State Label}
    {guard : State → Label → Prop} {state after : State}
    (labels : List Label) (reached : system.ReachableUnder guard state)
    (guarded : system.Follows guard state labels)
    (run : system.replay state labels = some after) :
    system.ReachableUnder guard after := by
  induction labels generalizing state with
  | nil =>
      cases run
      exact reached
  | cons label labels ih =>
      obtain ⟨middle, stepped, rest⟩ := Option.bind_eq_some_iff.mp run
      exact ih (.next reached guarded.1 stepped) (guarded.2 middle stepped)
        rest

theorem Reachable.replay {system : System State Label}
    {state after : State} (labels : List Label)
    (reached : system.Reachable state)
    (run : system.replay state labels = some after) :
    system.Reachable after := by
  induction labels generalizing state with
  | nil =>
      cases run
      exact reached
  | cons label labels ih =>
      obtain ⟨middle, stepped, rest⟩ := Option.bind_eq_some_iff.mp run
      exact ih (reached.next stepped) rest

end System

/-! The literals of the smallest `Fin` types, by which a run names its one or
its two threads. -/

instance neZero_one : @NeZero Nat Zero.ofOfNat0 1 :=
  ⟨Nat.one_ne_zero⟩

instance neZero_two : @NeZero Nat Zero.ofOfNat0 2 :=
  ⟨Nat.succ_ne_zero 1⟩

end Transition
