import RopHive.Transition.Reentrant

namespace Transition.Program

/-! From the start of a call to its return: the steps that are taken while
frames of the call, or of calls made inside it, are on the stack. -/

variable {Store Request Event Point Input Action : Type}
  {program : Program Store Request Event Point Input Action}
  {allowed : Label Request Event Input → Prop}

/-- `after` is reached by allowed steps, each taken with frames above `base`,
and there are none left. -/
inductive Completes
    (program : Program Store Request Event Point Input Action)
    (allowed : Label Request Event Input → Prop)
    (base : List (Frame Point)) :
    Config Store Point Action → Config Store Point Action → Prop
  | done {config : Config Store Point Action} :
      config.stack = base → Completes program allowed base config config
  | step {config middle after : Config Store Point Action}
      {label : Label Request Event Input} {frame : Frame Point}
      {frames : List (Frame Point)} :
      config.stack = frame :: frames ++ base → allowed label →
      program.step config label = some middle →
      Completes program allowed base middle after →
      Completes program allowed base config after

variable {config middle after : Config Store Point Action}
  {label : Label Request Event Input} {base below : List (Frame Point)}
  {point : Point}

theorem step_code (shape : config.stack = .code point :: below)
    (stepped : program.step config label = some after) :
    ∃ input turn, label = .resume input ∧
      program.resume config.store point input = some turn ∧
      after = config.take turn below := by
  cases label with
  | call request => simp [step, shape] at stepped
  | ready event => simp [step, shape] at stepped
  | leave => simp [step, shape] at stepped
  | resume input =>
      simp only [step, shape, Option.map_eq_some_iff] at stepped
      obtain ⟨turn, resumed, rfl⟩ := stepped
      exact ⟨input, turn, rfl, resumed, rfl⟩

theorem step_above {frame : Frame Point}
    (shape : config.stack = frame :: below)
    (stepped : program.step config label = some after) :
    ∃ frames, after.stack = frames ++ below := by
  obtain ⟨turn, rest, takes, rfl⟩ | ⟨_, rest, isUser, rfl⟩ :=
    step_cases stepped
  · cases takes with
    | call _ _ => exact ⟨turn.push ++ [frame], by simp [Config.take, shape]⟩
    | ready empty _ => simp [shape] at empty
    | resume onTop _ =>
        rw [shape] at onTop
        cases onTop
        exact ⟨turn.push, rfl⟩
  · rw [shape] at isUser
    cases isUser
    exact ⟨[], rfl⟩

/-- A step goes on the same without the frames at the bottom, behind whatever
log. -/
theorem step_alone {frame : Frame Point} {frames : List (Frame Point)}
    (shape : config.stack = frame :: frames ++ base)
    (stepped : program.step config label = some after) :
    ∃ pushed written, after.stack = pushed ++ base ∧
      after.log = config.log ++ written ∧
      ∀ log, program.step ⟨config.store, frame :: frames, log⟩ label =
        some ⟨after.store, pushed, log ++ written⟩ := by
  cases frame with
  | user =>
      cases label with
      | call request =>
          simp only [step, shape, List.cons_append,
            Option.map_eq_some_iff] at stepped
          obtain ⟨turn, called, rfl⟩ := stepped
          refine ⟨turn.push ++ .user :: frames, turn.emitted, ?_, rfl, ?_⟩
          · simp [Config.take]
          · simp [step, called, Config.take]
      | leave =>
          simp only [step, shape, List.cons_append,
            Option.some.injEq] at stepped
          obtain rfl := stepped
          exact ⟨frames, [], rfl, by simp, by simp [step]⟩
      | ready event => simp [step, shape] at stepped
      | resume input => simp [step, shape] at stepped
  | code point =>
      obtain ⟨input, turn, rfl, resumed, rfl⟩ := step_code shape stepped
      refine ⟨turn.push ++ frames, turn.emitted, ?_, rfl, ?_⟩
      · simp [Config.take]
      · simp [step, resumed, Config.take]

namespace Completes

theorem stack_eq (completes : Completes program allowed base config after) :
    after.stack = base := by
  induction completes with
  | done isBase => exact isBase
  | step _ _ _ _ ih => exact ih

/-- A relation between the stores around a list of actions holds of a whole
call if it holds of every step. -/
theorem relates {relation : Store → Store → List Action → Prop}
    (refl : ∀ store, relation store store [])
    (append : ∀ before between after first last,
      relation before between first → relation between after last →
        relation before after (first ++ last))
    (taken : ∀ config label after, program.step config label = some after →
      ∃ written, after.log = config.log ++ written ∧
        relation config.store after.store written)
    (completes : Completes program allowed base config after) :
    ∃ written, after.log = config.log ++ written ∧
      relation config.store after.store written := by
  induction completes with
  | @done config _ => exact ⟨[], by simp, refl config.store⟩
  | step _ _ stepped _ ih =>
      obtain ⟨first, wrote, related⟩ := taken _ _ _ stepped
      obtain ⟨last, wroteLast, relatedLast⟩ := ih
      refine ⟨first ++ last, ?_, append _ _ _ _ _ related relatedLast⟩
      rw [wroteLast, wrote, List.append_assoc]

theorem reachable {initial : Store → Prop}
    (completes : Completes program allowed base config after)
    (reached : (program.system initial).Reachable config) :
    (program.system initial).Reachable after := by
  induction completes with
  | done => exact reached
  | step _ _ stepped _ ih => exact ih (.next reached stepped)

theorem nothing_left (completes : Completes program allowed base config after)
    (isBase : config.stack = base) : after = config := by
  cases completes with
  | done => rfl
  | step shape _ _ _ =>
      exfalso
      have length := congrArg List.length (isBase.symm.trans shape)
      simp at length
      omega

theorem code_step (completes : Completes program allowed base config after)
    (shape : config.stack = .code point :: base) :
    ∃ input turn, allowed (.resume input) ∧
      program.resume config.store point input = some turn ∧
      Completes program allowed base (config.take turn base) after := by
  cases completes with
  | done isBase =>
      exfalso
      have length := congrArg List.length (shape.symm.trans isBase)
      simp at length
  | step _ isAllowed stepped rest =>
      obtain ⟨input, turn, rfl, resumed, rfl⟩ := step_code shape stepped
      exact ⟨input, turn, isAllowed, resumed, rest⟩

/-- The frames on top are worked off before those below them. -/
theorem split (completes : Completes program allowed base config after)
    (top rest : List (Frame Point))
    (shape : config.stack = top ++ (rest ++ base)) :
    ∃ middle, Completes program allowed (rest ++ base) config middle ∧
      Completes program allowed base middle after := by
  induction completes generalizing top with
  | @done config isBase =>
      have length := congrArg List.length (isBase.symm.trans shape)
      simp only [List.length_append] at length
      have noTop : top = [] := List.eq_nil_of_length_eq_zero (by omega)
      subst noTop
      exact ⟨config, .done shape, .done isBase⟩
  | @step config next after label frame frames isStack isAllowed stepped later
      ih =>
      cases top with
      | nil => exact ⟨config, .done shape, .step isStack isAllowed stepped
          later⟩
      | cons first top =>
          obtain ⟨pushed, onTop⟩ := step_above shape stepped
          obtain ⟨middle, upper, lower⟩ := ih (pushed ++ top) (by
            rw [onTop, List.append_assoc]
            rfl)
          exact ⟨middle, .step shape isAllowed stepped upper, lower⟩

end Completes

/-- The `frames` are worked off by allowed steps: what the code that stands
there does, and the calls that users among them make meanwhile. -/
def WorksOff (program : Program Store Request Event Point Input Action)
    (allowed : Label Request Event Input → Prop) (before : Store)
    (frames : List (Frame Point)) (after : Store) (actions : List Action) :
    Prop :=
  Completes program allowed [] ⟨before, frames, []⟩ ⟨after, [], actions⟩

theorem Completes.alone (completes : Completes program allowed base config after)
    (top : List (Frame Point)) (shape : config.stack = top ++ base) :
    ∃ written, after.log = config.log ++ written ∧
      ∀ log, Completes program allowed [] ⟨config.store, top, log⟩
        ⟨after.store, [], log ++ written⟩ := by
  induction completes generalizing top with
  | @done config isBase =>
      have noTop : top = [] := List.append_left_eq_self.mp
        (shape.symm.trans isBase)
      subst noTop
      exact ⟨[], by simp, fun log => by
        rw [List.append_nil]
        exact .done rfl⟩
  | @step config next after label frame frames isStack isAllowed stepped later
      ih =>
      obtain rfl : top = frame :: frames := List.append_cancel_right
        (shape.symm.trans isStack)
      obtain ⟨pushed, first, onTop, wrote, alone⟩ := step_alone shape stepped
      obtain ⟨last, wroteLast, rest⟩ := ih pushed onTop
      refine ⟨first ++ last, ?_, ?_⟩
      · rw [wroteLast, wrote, List.append_assoc]
      · intro log
        rw [← List.append_assoc]
        exact .step (List.append_nil _).symm isAllowed (alone log)
          (rest (log ++ first))

theorem Completes.worksOff
    (completes : Completes program allowed base config after)
    {top : List (Frame Point)} (shape : config.stack = top ++ base) :
    ∃ written, after.log = config.log ++ written ∧
      WorksOff program allowed config.store top after.store written := by
  obtain ⟨written, wrote, alone⟩ := completes.alone top shape
  exact ⟨written, wrote, alone []⟩

end Transition.Program
