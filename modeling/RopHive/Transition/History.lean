import RopHive.Transition.System

namespace Transition.System

/-! History variables.  What an observer writes down along a run, and no step
reads. -/

universe u v w

variable {State : Type u} {Label : Type v} {History : Type w}

/-- What is written down when `label` leads from the first state to the
second. -/
abbrev Observer (State : Type u) (Label : Type v) (History : Type w) :=
  State → Label → State → History → History

def withHistory (system : System State Label) (start : History)
    (observe : Observer State Label History) :
    System (State × History) Label where
  initial observed := system.initial observed.1 ∧ observed.2 = start
  step observed label := (system.step observed.1 label).map fun after =>
    (after, observe observed.1 label after observed.2)

def Observer.both {Other : Type*} (first : Observer State Label History)
    (second : Observer State Label Other) :
    Observer State Label (History × Other) :=
  fun state label after histories =>
    (first state label after histories.1, second state label after histories.2)

variable {system : System State Label} {start : History}
  {observe : Observer State Label History}

theorem withHistory_step {state after : State} {history later : History}
    {label : Label} :
    (system.withHistory start observe).step (state, history) label =
        some (after, later) ↔
      system.step state label = some after ∧
        observe state label after history = later := by
  simp only [withHistory, Option.map_eq_some_iff, Prod.mk.injEq]
  constructor
  · rintro ⟨found, stepped, rfl, same⟩
    exact ⟨stepped, same⟩
  · rintro ⟨stepped, same⟩
    exact ⟨after, stepped, rfl, same⟩

/-- What is written down changes no run. -/
theorem withHistory_reachable_iff {state : State} :
    (∃ history, (system.withHistory start observe).Reachable
      (state, history)) ↔ system.Reachable state := by
  constructor
  · rintro ⟨history, reached⟩
    refine reached.invariant (fun observed => system.Reachable observed.1) ?_ ?_
    · rintro ⟨state, history⟩ ⟨isInitial, _⟩
      exact .start isInitial
    · rintro ⟨state, history⟩ label ⟨after, later⟩ earlier stepped
      exact earlier.next (withHistory_step.mp stepped).1
  · intro reached
    refine reached.invariant (fun state => ∃ history,
      (system.withHistory start observe).Reachable (state, history)) ?_ ?_
    · intro state isInitial
      exact ⟨start, .start ⟨isInitial, rfl⟩⟩
    · rintro state label after ⟨history, earlier⟩ stepped
      exact ⟨_, earlier.next (withHistory_step.mpr ⟨stepped, rfl⟩)⟩

/-- The invariant rule for a relation of the state and the history. -/
theorem withHistory_invariant {guard : State × History → Label → Prop}
    (Inv : State → History → Prop)
    (initially : ∀ state, system.initial state → Inv state start)
    (preserved : ∀ state history label after, Inv state history →
      guard (state, history) label → system.step state label = some after →
      Inv after (observe state label after history))
    {state : State} {history : History}
    (reached : (system.withHistory start observe).ReachableUnder guard
      (state, history)) : Inv state history := by
  refine reached.invariant (fun observed => Inv observed.1 observed.2) ?_ ?_
  · rintro ⟨state, history⟩ ⟨isInitial, rfl⟩
    exact initially state isInitial
  · rintro ⟨state, history⟩ label ⟨after, later⟩ inv guarded stepped
    obtain ⟨moved, rfl⟩ := withHistory_step.mp stepped
    exact preserved state history label after inv guarded moved

end Transition.System
