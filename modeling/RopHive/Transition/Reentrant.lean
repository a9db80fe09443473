import RopHive.Transition.System

namespace Transition

/-! Programs that call their user back.  The program's code runs in turns: a
turn ends where the user is called or an answer of the environment is awaited.
What is left of the interrupted calls stands on a stack; a user on top of it
may call into the program again before returning. -/

inductive Frame (Point : Type) where
  | user
  | code (point : Point)
  deriving DecidableEq

def Frame.isUser {Point : Type} : Frame Point → Bool
  | .user => true
  | .code _ => false

/-- What one turn does: the store it leaves, the frames it pushes (the one to
run first in front) and the actions it performs. -/
structure Turn (Store Point Action : Type) where
  store : Store
  push : List (Frame Point)
  emitted : List Action

structure Program (Store Request Event Point Input Action : Type) where
  call : Store → Request → Option (Turn Store Point Action)
  ready : Store → Event → Option (Turn Store Point Action)
  resume : Store → Point → Input → Option (Turn Store Point Action)

structure Config (Store Point Action : Type) where
  store : Store
  stack : List (Frame Point)
  log : List Action

inductive Label (Request Event Input : Type) where
  | call (request : Request)
  | ready (event : Event)
  | resume (input : Input)
  | leave

variable {Store Request Event Point Input Action : Type}

namespace Turn

def rest (store : Store) : Turn Store Point Action := ⟨store, [], []⟩

def await (store : Store) (point : Point) : Turn Store Point Action :=
  ⟨store, [.code point], []⟩

/-- Call the user if there is a callback. -/
def callBack (store : Store) (present : Bool) (action : Action) :
    Turn Store Point Action :=
  if present then ⟨store, [.user], [action]⟩ else rest store

def andThen (turn : Turn Store Point Action) (frames : List (Frame Point)) :
    Turn Store Point Action :=
  { turn with push := turn.push ++ frames }

def preceded (turn : Turn Store Point Action) (actions : List Action) :
    Turn Store Point Action :=
  { turn with emitted := actions ++ turn.emitted }

@[simp, grind =] theorem rest_store (store : Store) :
    (rest store : Turn Store Point Action).store = store := rfl

@[simp, grind =] theorem rest_push (store : Store) :
    (rest store : Turn Store Point Action).push = [] := rfl

@[simp, grind =] theorem rest_emitted (store : Store) :
    (rest store : Turn Store Point Action).emitted = [] := rfl

@[simp, grind =] theorem await_store (store : Store) (point : Point) :
    (await store point : Turn Store Point Action).store = store := rfl

@[simp, grind =] theorem await_push (store : Store) (point : Point) :
    (await store point : Turn Store Point Action).push = [.code point] := rfl

@[simp, grind =] theorem await_emitted (store : Store) (point : Point) :
    (await store point : Turn Store Point Action).emitted = [] := rfl

@[simp, grind =] theorem callBack_store (store : Store) (present : Bool)
    (action : Action) :
    (callBack store present action : Turn Store Point Action).store =
      store := by
  cases present <;> rfl

@[simp, grind =] theorem callBack_push (store : Store) (present : Bool)
    (action : Action) :
    (callBack store present action : Turn Store Point Action).push =
      if present then [.user] else [] := by
  cases present <;> rfl

@[simp, grind =] theorem callBack_emitted (store : Store) (present : Bool)
    (action : Action) :
    (callBack store present action : Turn Store Point Action).emitted =
      if present then [action] else [] := by
  cases present <;> rfl

@[simp, grind =] theorem andThen_store (turn : Turn Store Point Action)
    (frames : List (Frame Point)) :
    (turn.andThen frames).store = turn.store := rfl

@[simp, grind =] theorem andThen_push (turn : Turn Store Point Action)
    (frames : List (Frame Point)) :
    (turn.andThen frames).push = turn.push ++ frames := rfl

@[simp, grind =] theorem andThen_emitted (turn : Turn Store Point Action)
    (frames : List (Frame Point)) :
    (turn.andThen frames).emitted = turn.emitted := rfl

@[simp, grind =] theorem preceded_store (turn : Turn Store Point Action)
    (actions : List Action) :
    (turn.preceded actions).store = turn.store := rfl

@[simp, grind =] theorem preceded_push (turn : Turn Store Point Action)
    (actions : List Action) :
    (turn.preceded actions).push = turn.push := rfl

@[simp, grind =] theorem preceded_emitted (turn : Turn Store Point Action)
    (actions : List Action) :
    (turn.preceded actions).emitted = actions ++ turn.emitted := rfl

end Turn

/-- The configuration after `turn`, run over the frames `below`. -/
def Config.take (config : Config Store Point Action)
    (turn : Turn Store Point Action) (below : List (Frame Point)) :
    Config Store Point Action :=
  ⟨turn.store, turn.push ++ below, config.log ++ turn.emitted⟩

namespace Program

variable (program : Program Store Request Event Point Input Action)

def step (config : Config Store Point Action) :
    Label Request Event Input → Option (Config Store Point Action)
  | .call request =>
      match config.stack with
      | .code _ :: _ => none
      | stack =>
          (program.call config.store request).map fun turn =>
            config.take turn stack
  | .ready event =>
      match config.stack with
      | [] =>
          (program.ready config.store event).map fun turn =>
            config.take turn []
      | _ :: _ => none
  | .resume input =>
      match config.stack with
      | .code point :: below =>
          (program.resume config.store point input).map fun turn =>
            config.take turn below
      | _ => none
  | .leave =>
      match config.stack with
      | .user :: below => some { config with stack := below }
      | _ => none

def system (initial : Store → Prop) :
    System (Config Store Point Action) (Label Request Event Input) where
  initial config :=
    initial config.store ∧ config.stack = [] ∧ config.log = []
  step := program.step

/-- The turn a step takes, and the frames it leaves below. -/
inductive Takes (config : Config Store Point Action) :
    Label Request Event Input → Turn Store Point Action →
    List (Frame Point) → Prop where
  | call {request : Request} {turn : Turn Store Point Action} :
      (∀ point ∈ config.stack.head?, point = .user) →
      program.call config.store request = some turn →
      Takes config (.call request) turn config.stack
  | ready {event : Event} {turn : Turn Store Point Action} :
      config.stack = [] →
      program.ready config.store event = some turn →
      Takes config (.ready event) turn []
  | resume {point : Point} {input : Input} {below : List (Frame Point)}
      {turn : Turn Store Point Action} :
      config.stack = .code point :: below →
      program.resume config.store point input = some turn →
      Takes config (.resume input) turn below

variable {program} {config after : Config Store Point Action}
  {label : Label Request Event Input}

theorem step_cases (stepped : program.step config label = some after) :
    (∃ turn below, program.Takes config label turn below ∧
      after = config.take turn below) ∨
    (label = .leave ∧ ∃ below, config.stack = .user :: below ∧
      after = { config with stack := below }) := by
  cases label with
  | call request =>
      left
      cases shape : config.stack with
      | nil =>
          simp only [step, shape, Option.map_eq_some_iff] at stepped
          obtain ⟨turn, taken, rfl⟩ := stepped
          exact ⟨turn, [], shape ▸ .call (by simp [shape]) taken, rfl⟩
      | cons frame below =>
          cases frame with
          | user =>
              simp only [step, shape, Option.map_eq_some_iff] at stepped
              obtain ⟨turn, taken, rfl⟩ := stepped
              exact ⟨turn, .user :: below,
                shape ▸ .call (by simp [shape]) taken, rfl⟩
          | code point => simp [step, shape] at stepped
  | ready event =>
      left
      cases shape : config.stack with
      | nil =>
          simp only [step, shape, Option.map_eq_some_iff] at stepped
          obtain ⟨turn, taken, rfl⟩ := stepped
          exact ⟨turn, [], .ready shape taken, rfl⟩
      | cons frame below => simp [step, shape] at stepped
  | resume input =>
      left
      cases shape : config.stack with
      | nil => simp [step, shape] at stepped
      | cons frame below =>
          cases frame with
          | user => simp [step, shape] at stepped
          | code point =>
              simp only [step, shape, Option.map_eq_some_iff] at stepped
              obtain ⟨turn, taken, rfl⟩ := stepped
              exact ⟨turn, below, .resume shape taken, rfl⟩
  | leave =>
      right
      cases shape : config.stack with
      | nil => simp [step, shape] at stepped
      | cons frame below =>
          cases frame with
          | user =>
              simp only [step, shape, Option.some.injEq] at stepped
              exact ⟨rfl, below, rfl, stepped.symm⟩
          | code point => simp [step, shape] at stepped

end Program

section Pinned

/-- Points that are `pinned` stand nowhere but on top of the stack, and there
only while `holds`. -/
def PinnedTop (pinned : Point → Prop) (holds : Prop) :
    List (Frame Point) → Prop
  | [] => True
  | frame :: below =>
      (∀ point, frame = .code point → pinned point → holds) ∧
        ∀ point, .code point ∈ below → ¬ pinned point

variable {pinned : Point → Prop}
  {program : Program Store Request Event Point Input Action}
  {config : Config Store Point Action} {label : Label Request Event Input}
  {turn : Turn Store Point Action} {below : List (Frame Point)}

theorem PinnedTop.of_plain {holds : Prop} {stack : List (Frame Point)}
    (plain : ∀ point, .code point ∈ stack → ¬ pinned point) :
    PinnedTop pinned holds stack := by
  cases stack with
  | nil => trivial
  | cons frame below =>
      constructor
      · rintro point rfl isPinned
        exact absurd isPinned (plain point (by simp))
      · intro point member
        exact plain point (List.mem_cons_of_mem _ member)

theorem PinnedTop.append {holds : Prop} {push below : List (Frame Point)}
    (pushed : PinnedTop pinned holds push)
    (plain : ∀ point, .code point ∈ below → ¬ pinned point) :
    PinnedTop pinned holds (push ++ below) := by
  cases push with
  | nil => exact .of_plain plain
  | cons frame others =>
      refine ⟨pushed.1, ?_⟩
      intro point member
      cases List.mem_append.mp member with
      | inl inPush => exact pushed.2 point inPush
      | inr inBelow => exact plain point inBelow

theorem PinnedTop.plain_below {holds : Prop}
    (pins : PinnedTop pinned holds config.stack)
    (takes : program.Takes config label turn below) :
    ∀ point, .code point ∈ below → ¬ pinned point := by
  intro point member
  cases takes with
  | call userOnTop =>
      cases shape : config.stack with
      | nil => simp [shape] at member
      | cons frame others =>
          rw [shape] at pins member userOnTop
          obtain rfl := userOnTop frame rfl
          exact pins.2 point (by simpa using member)
  | ready => simp at member
  | resume shape =>
      rw [shape] at pins
      exact pins.2 point member

theorem PinnedTop.take (holds : Store → Prop)
    (pins : PinnedTop pinned (holds config.store) config.stack)
    (takes : program.Takes config label turn below)
    (pushed : PinnedTop pinned (holds turn.store) turn.push) :
    PinnedTop pinned (holds (config.take turn below).store)
      (config.take turn below).stack :=
  pushed.append (pins.plain_below takes)

theorem PinnedTop.leave {holds : Prop}
    (pins : PinnedTop pinned holds config.stack)
    (shape : config.stack = .user :: below) :
    PinnedTop pinned holds below := by
  rw [shape] at pins
  exact .of_plain pins.2

end Pinned

section Since

variable (isMark : Action → Bool)

def since (log : List Action) : List Action :=
  (log.reverse.takeWhile fun action => !isMark action).reverse

variable {isMark}

theorem since_append {more : List Action} (log : List Action)
    (unmarked : ∀ action ∈ more, isMark action = false) :
    since isMark (log ++ more) = since isMark log ++ more := by
  unfold since
  rw [List.reverse_append, List.takeWhile_append_of_pos, List.reverse_append,
    List.reverse_reverse]
  intro action member
  rw [List.mem_reverse] at member
  simp [unmarked action member]

theorem since_mark (log : List Action) {mark : Action}
    (marked : isMark mark = true) : since isMark (log ++ [mark]) = [] := by
  simp [since, marked]

end Since

section Silence

/-! Some action `ends` a program's talk with its user, after which no action
that `speaks` to the user may follow.  It is enough that an ending action
leaves the store `quiet` and that quiet turns do not speak. -/

variable (ends speaks : Action → Prop) (quiet : Store → Prop)

structure Turn.Discreet (before : Store) (turn : Turn Store Point Action) :
    Prop where
  staysQuiet : quiet before → quiet turn.store
  silent : quiet before → ∀ action ∈ turn.emitted, ¬ speaks action
  quiets : ∀ action ∈ turn.emitted, ends action → quiet turn.store
  ordered : turn.emitted.Pairwise fun earlier later =>
    ends earlier → ¬ speaks later

theorem Turn.Discreet.andThen {ends speaks : Action → Prop}
    {quiet : Store → Prop} {before : Store} {turn : Turn Store Point Action}
    (discreet : turn.Discreet ends speaks quiet before)
    (frames : List (Frame Point)) :
    (turn.andThen frames).Discreet ends speaks quiet before :=
  ⟨discreet.staysQuiet, discreet.silent, discreet.quiets, discreet.ordered⟩

structure Config.Silenced (config : Config Store Point Action) : Prop where
  quietOnceEnded : ∀ action ∈ config.log, ends action → quiet config.store
  ordered : config.log.Pairwise fun earlier later =>
    ends earlier → ¬ speaks later

variable {ends speaks quiet} {config : Config Store Point Action}

theorem Config.Silenced.take (silenced : config.Silenced ends speaks quiet)
    {turn : Turn Store Point Action} (below : List (Frame Point))
    (discreet : turn.Discreet ends speaks quiet config.store) :
    (config.take turn below).Silenced ends speaks quiet where
  quietOnceEnded action member isEnd := by
    cases List.mem_append.mp member with
    | inl old =>
        exact discreet.staysQuiet (silenced.quietOnceEnded action old isEnd)
    | inr new => exact discreet.quiets action new isEnd
  ordered := by
    refine List.pairwise_append.mpr
      ⟨silenced.ordered, discreet.ordered, ?_⟩
    intro earlier old later new isEnd
    exact discreet.silent (silenced.quietOnceEnded earlier old isEnd)
      later new

theorem Config.Silenced.leave (silenced : config.Silenced ends speaks quiet)
    (below : List (Frame Point)) :
    { config with stack := below }.Silenced ends speaks quiet :=
  ⟨silenced.quietOnceEnded, silenced.ordered⟩

theorem countP_le_one {kind : Action → Bool} {log : List Action}
    (ordered : log.Pairwise fun earlier later =>
      kind earlier → ¬ kind later) : log.countP kind ≤ 1 := by
  induction log with
  | nil => simp
  | cons first rest ih =>
      rw [List.pairwise_cons] at ordered
      rw [List.countP_cons]
      split
      · next isKind =>
          have absent : rest.countP kind = 0 :=
            List.countP_eq_zero.mpr fun later member =>
              ordered.1 later member isKind
          simp [absent]
      · exact ih ordered.2

theorem Config.Silenced.count_le_one [DecidableEq Action]
    (silenced : config.Silenced ends speaks quiet) {action : Action}
    (isEnd : ends action) (isSpeech : speaks action) :
    config.log.count action ≤ 1 := by
  apply countP_le_one
  apply silenced.ordered.imp
  intro earlier later inOrder isAction isAgain
  obtain rfl : earlier = action := by simpa using isAction
  obtain rfl : later = earlier := by simpa using isAgain
  exact inOrder isEnd isSpeech

end Silence

end Transition
