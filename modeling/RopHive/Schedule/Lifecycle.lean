import RopHive.Schedule.InterestBackend
import RopHive.Transition.Attempt

namespace RopHive.Schedule.Lifecycle

open Transition

/-! `attachIOWorker`, `attachComputeWorker` and `run` of a `Hive`, with every
place where they can throw. -/

section Source

inductive Platform where
  | linux
  | apple
  | windows
  | other
  deriving DecidableEq, Repr

/-- What is thrown: by the code itself, or by an allocation, a constructor or
the start of a thread. -/
inductive Thrown where
  | runtimeError (what : String)
  | environment
  deriving DecidableEq, Repr

inductive WakeUp where
  | epoll
  | poll
  | kqueue
  | cocoa
  | iocp
  | win32
  deriving DecidableEq, Repr

/-- What `createEventLoopCore` finds. -/
inductive CoreAnswer where
  | made
  | null
  | failed
  deriving DecidableEq, Repr

/-- What the environment grants to one call: the core and the wake-up of a
worker, room in the vector of workers, the copies of both vectors, and the
n-th thread. -/
structure Supply where
  core : CoreAnswer := .made
  wakeup : Bool := true
  room : Bool := true
  ioCopy : Bool := true
  computeCopy : Bool := true
  thread : Nat → Bool := fun _ => true

/-- The fields of an `IOWorker` that `bind` sets. -/
structure IOWorker (Hive : Type) where
  hive : Option Hive := none
  workerId : Nat := 0
  core : Option BackendType := none
  initialized : Bool := false
  wakeup : Option WakeUp := none
  deriving DecidableEq, Repr

structure ComputeWorker (Hive : Type) where
  hive : Option Hive := none
  workerId : Nat := 0
  initialized : Bool := false
  deriving DecidableEq, Repr

structure State (Hive Io Compute : Type) where
  ioWorkers : List Io := []
  computeWorkers : List Compute := []
  ioThreads : List Io := []
  computeThreads : List Compute := []
  started : Bool := false
  io : Io → IOWorker Hive := fun _ => {}
  compute : Compute → ComputeWorker Hive := fun _ => {}

variable {Hive Io Compute : Type}

/-- The cases of the switch of `createEventLoopCore`. -/
def supports : Platform → BackendType → Bool
  | .linux, .linuxPoll | .linux, .linuxEpoll => true
  | .apple, .macosPoll | .apple, .macosKqueue | .apple, .macosCocoa => true
  | .windows, .windowsWin32 | .windows, .windowsIocp => true
  | _, _ => false

/-- Another backend ends the process. -/
def createEventLoopCore (platform : Platform) (backend : BackendType)
    (answer : CoreAnswer) (worker : IOWorker Hive) :
    Attempt (IOWorker Hive) Thrown (Option BackendType) :=
  if supports platform backend then
    match answer with
    | .made => .returned (some backend) worker
    | .null => .returned none worker
    | .failed => .threw .environment worker
  else .aborted

/-- `std::make_unique` of a wake-up watcher. -/
def makeWakeUp (kind : WakeUp) (granted : Bool) (worker : IOWorker Hive) :
    Attempt (IOWorker Hive) Thrown Unit :=
  if granted then .returned () { worker with wakeup := some kind }
  else .threw .environment worker

/-- The last part of `bind`. -/
def createWakeUp (platform : Platform) (backend : BackendType)
    (granted : Bool) (worker : IOWorker Hive) :
    Attempt (IOWorker Hive) Thrown Unit :=
  match platform, backend with
  | .linux, .linuxEpoll => makeWakeUp .epoll granted worker
  | .linux, .linuxPoll => makeWakeUp .poll granted worker
  | .linux, _ =>
      .threw (.runtimeError "IOWorker: unsupported linux backend") worker
  | .apple, .macosKqueue => makeWakeUp .kqueue granted worker
  | .apple, .macosCocoa => makeWakeUp .cocoa granted worker
  | .apple, .macosPoll => .returned () { worker with wakeup := none }
  | .apple, _ =>
      .threw (.runtimeError "IOWorker: unsupported macos backend") worker
  | .windows, .windowsIocp => makeWakeUp .iocp granted worker
  | .windows, .windowsWin32 => makeWakeUp .win32 granted worker
  | .windows, _ =>
      .threw (.runtimeError "IOWorker: unsupported windows backend") worker
  | .other, _ => .threw (.runtimeError "IOWorker: unsupported platform") worker

def IOWorker.bind (platform : Platform) (backend : BackendType)
    (supply : Supply) (self : Hive) (workerId : Nat)
    (worker : IOWorker Hive) : Attempt (IOWorker Hive) Thrown Unit :=
  if worker.initialized then
    .threw (.runtimeError "IOWorker::bind: already bound") worker
  else
    (createEventLoopCore platform backend supply.core
      { worker with
        hive := some self
        workerId }).andThen fun core worker =>
      match core with
      | none =>
          .threw (.runtimeError "IOWorker: createEventLoopCore returned null")
            { worker with core := none }
      | some core =>
          createWakeUp platform backend supply.wakeup
            { worker with
              core := some core
              initialized := true }

def ComputeWorker.bind (self : Hive) (workerId : Nat)
    (worker : ComputeWorker Hive) :
    Attempt (ComputeWorker Hive) Thrown Unit :=
  if worker.initialized then
    .threw (.runtimeError "ComputeWorker::bind: already bound") worker
  else .returned () ⟨some self, workerId, true⟩

/-- Threads are emplaced for the listed workers until one is not granted. -/
def emplaceThreads {Worker : Type} (granted : Nat → Bool) :
    Nat → List Worker → List Worker × Bool
  | _, [] => ([], true)
  | made, worker :: workers =>
      if granted made then
        let (threads, complete) := emplaceThreads granted (made + 1) workers
        (worker :: threads, complete)
      else ([], false)

inductive Call (Io Compute : Type) where
  | attachIOWorker (worker : Option Io)
  | attachComputeWorker (worker : Option Compute)
  | run

variable [DecidableEq Io] [DecidableEq Compute] (platform : Platform)
  (backend : Io → BackendType) (self : Hive) (supply : Supply)

namespace State

variable (state : State Hive Io Compute)

def withIo (worker : Io) (fields : IOWorker Hive) : State Hive Io Compute :=
  { state with
    io := Function.update state.io worker fields }

def withCompute (worker : Compute) (fields : ComputeWorker Hive) :
    State Hive Io Compute :=
  { state with
    compute := Function.update state.compute worker fields }

def attachIOWorker : Option Io →
    Attempt (State Hive Io Compute) Thrown Nat
  | worker =>
      if state.started then
        .threw (.runtimeError
          "Hive::attachIOWorker: attaching after run() not supported yet")
          state
      else
        match worker with
        | none =>
            .threw (.runtimeError "Hive::attachIOWorker: worker is null") state
        | some worker =>
            let id := state.ioWorkers.length
            (((state.io worker).bind platform (backend worker) supply self
              id).within (state.withIo worker)).andThen fun _ state =>
              if supply.room then
                .returned id { state with
                  ioWorkers := state.ioWorkers ++ [worker] }
              else .threw .environment state

def attachComputeWorker : Option Compute →
    Attempt (State Hive Io Compute) Thrown Nat
  | worker =>
      if state.started then
        .threw (.runtimeError
          "Hive::attachComputeWorker: attaching after run() not supported yet")
          state
      else
        match worker with
        | none =>
            .threw (.runtimeError "Hive::attachComputeWorker: worker is null")
              state
        | some worker =>
            let id := state.computeWorkers.length
            (((state.compute worker).bind self id).within
              (state.withCompute worker)).andThen fun _ state =>
              if supply.room then
                .returned id { state with
                  computeWorkers := state.computeWorkers ++ [worker] }
              else .threw .environment state

/-- The part of `run` that starts the compute workers. -/
def startCompute (made : Nat) (main : Io) :
    Attempt (State Hive Io Compute) Thrown Io :=
  if supply.computeCopy then
    let threads := emplaceThreads supply.thread made state.computeWorkers
    let state := { state with
      computeThreads := state.computeThreads ++ threads.1 }
    if threads.2 then .returned main state else .threw .environment state
  else .threw .environment state

/-- `Hive::run` up to the loop of the first worker, which is entered on the
calling thread. -/
def run : Attempt (State Hive Io Compute) Thrown Io :=
  if state.started then
    .threw (.runtimeError "Hive::run: already started") state
  else
    let state := { state with started := true }
    if supply.ioCopy then
      match state.ioWorkers with
      | [] =>
          .threw (.runtimeError "Hive::run: requires at least one worker") state
      | main :: others =>
          let threads := emplaceThreads supply.thread 0 others
          let state := { state with
            ioThreads := state.ioThreads ++ threads.1 }
          if threads.2 then
            state.startCompute supply threads.1.length main
          else .threw .environment state
    else .threw .environment state

def perform : Call Io Compute → Attempt (State Hive Io Compute) Thrown Unit
  | .attachIOWorker worker =>
      (state.attachIOWorker platform backend self supply worker).andThen
        fun _ => .returned ()
  | .attachComputeWorker worker =>
      (state.attachComputeWorker self supply worker).andThen
        fun _ => .returned ()
  | .run => (state.run supply).andThen fun _ => .returned ()

/-- No thread has been started since. -/
def SameThreads (after : State Hive Io Compute) : Prop :=
  after.ioThreads = state.ioThreads ∧
    after.computeThreads = state.computeThreads

end State

end Source

section Conditions

variable {Hive Io Compute : Type}

/-- The wake-up that `bind` makes, if it makes one, is granted. -/
def grantsWakeUp (platform : Platform) (backend : BackendType)
    (supply : Supply) : Prop :=
  supply.wakeup = true ∨ platform = .apple ∧ backend = .macosPoll

/-- An earlier call of `bind` that failed has left this hive and this index. -/
def IOWorker.Named (self : Hive) (workerId : Nat) (worker : IOWorker Hive) :
    Prop :=
  worker.hive = some self ∧ worker.workerId = workerId

/-- `bind` throws in its first check, ends the process, succeeds, or fails to
make the core of a worker that it has tried to bind before. -/
def IOWorker.BindHarmless (platform : Platform) (backend : BackendType)
    (supply : Supply) (self : Hive) (workerId : Nat)
    (worker : IOWorker Hive) : Prop :=
  worker.initialized = true ∨ supports platform backend = false ∨
    match supply.core with
    | .made => grantsWakeUp platform backend supply ∧ supply.room = true
    | .null => worker.Named self workerId ∧ worker.core = none
    | .failed => worker.Named self workerId

/-- `run` has a worker and is granted the first thread that it needs. -/
def State.Launches (supply : Supply) (state : State Hive Io Compute) : Prop :=
  match state.ioWorkers with
  | [] => False
  | _ :: _ :: _ => supply.thread 0 = true
  | [_] => supply.computeCopy = true ∧
      (state.computeWorkers = [] ∨ supply.thread 0 = true)

/-- Where a call that throws leaves all as it was. -/
def Harmless (platform : Platform) (backend : Io → BackendType) (self : Hive)
    (supply : Supply) (state : State Hive Io Compute) :
    Call Io Compute → Prop
  | .attachIOWorker none | .attachComputeWorker none => True
  | .attachIOWorker (some worker) =>
      state.started = true ∨
        (state.io worker).BindHarmless platform (backend worker) supply self
          state.ioWorkers.length
  | .attachComputeWorker (some worker) =>
      state.started = true ∨ (state.compute worker).initialized = true ∨
        supply.room = true
  | .run =>
      state.started = true ∨ supply.ioCopy = true ∧ state.Launches supply

/-- Where the call throws before any thread was started, the hive and the
workers are as before. -/
def ChangesNothing [DecidableEq Io] [DecidableEq Compute]
    (platform : Platform) (backend : Io → BackendType) (self : Hive)
    (supply : Supply) (state : State Hive Io Compute)
    (call : Call Io Compute) : Prop :=
  ∀ error after,
    state.perform platform backend self supply call = .threw error after →
      state.SameThreads after → after = state

/-- What a call asks of the hive and of its worker. -/
def Ready (platform : Platform) (backend : Io → BackendType)
    (state : State Hive Io Compute) : Call Io Compute → Prop
  | .attachIOWorker worker =>
      ∃ given, worker = some given ∧ (state.io given).initialized = false ∧
        supports platform (backend given) = true
  | .attachComputeWorker worker =>
      ∃ given, worker = some given ∧ (state.compute given).initialized = false
  | .run => state.ioWorkers ≠ []

end Conditions

section Calls

variable {Hive Io Compute : Type}
  {platform : Platform} {backend : Io → BackendType} {self : Hive}
  {supply : Supply} {state : State Hive Io Compute}

open Attempt

theorem withIo_eq_self [DecidableEq Io] {worker : Io} {fields : IOWorker Hive} :
    state.withIo worker fields = state ↔ fields = state.io worker := by
  constructor
  · intro same
    have found : (state.withIo worker fields).io worker = state.io worker := by
      rw [same]
    simpa [State.withIo] using found
  · rintro rfl
    simp [State.withIo]

theorem withCompute_eq_self [DecidableEq Compute] {worker : Compute}
    {fields : ComputeWorker Hive} :
    state.withCompute worker fields = state ↔
      fields = state.compute worker := by
  constructor
  · intro same
    have found : (state.withCompute worker fields).compute worker =
        state.compute worker := by rw [same]
    simpa [State.withCompute] using found
  · rintro rfl
    simp [State.withCompute]

theorem named_eq_iff {self : Hive} {workerId : Nat} {worker : IOWorker Hive}
    (free : worker.initialized = false) :
    ⟨some self, workerId, worker.core, false, worker.wakeup⟩ = worker ↔
      worker.Named self workerId := by
  obtain ⟨hive, id, core, initialized, wakeup⟩ := worker
  obtain rfl : initialized = false := free
  simp [IOWorker.Named, eq_comm]

theorem named_cleared_eq_iff {self : Hive} {workerId : Nat}
    {worker : IOWorker Hive} (free : worker.initialized = false) :
    ⟨some self, workerId, none, false, worker.wakeup⟩ = worker ↔
      worker.Named self workerId ∧ worker.core = none := by
  obtain ⟨hive, id, core, initialized, wakeup⟩ := worker
  obtain rfl : initialized = false := free
  simp [IOWorker.Named, and_assoc, eq_comm]

theorem createWakeUp_cases {kind : BackendType} {worker : IOWorker Hive}
    (supported : supports platform kind = true) :
    (grantsWakeUp platform kind supply ∧ ∃ wakeup,
      createWakeUp platform kind supply.wakeup worker =
        .returned () { worker with wakeup }) ∨
    (¬ grantsWakeUp platform kind supply ∧
      createWakeUp platform kind supply.wakeup worker =
        .threw .environment worker) := by
  cases platform <;> cases kind <;> cases supported <;>
    cases granted : supply.wakeup <;>
    simp [createWakeUp, makeWakeUp, grantsWakeUp, granted]

theorem unharmed_wakeUp [DecidableEq Io] (worker : Io)
    (free : (state.io worker).initialized = false)
    (supported : supports platform (backend worker) = true)
    {built : IOWorker Hive} (isBound : built.initialized = true) :
    Unharmed state.SameThreads state
      (((createWakeUp platform (backend worker) supply.wakeup built).within
        (state.withIo worker)).andThen fun _ after =>
          if supply.room then
            .returned state.ioWorkers.length { after with
              ioWorkers := after.ioWorkers ++ [worker] }
          else .threw Thrown.environment after) ↔
    grantsWakeUp platform (backend worker) supply ∧ supply.room = true := by
  -- `initialized_` is set, so that nothing may throw any more
  have harms {fields : IOWorker Hive} (bound : fields.initialized = true) :
      ¬ (state.SameThreads (state.withIo worker fields) →
        state.withIo worker fields = state) := by
    intro unharmed
    have same := withIo_eq_self.mp (unharmed ⟨rfl, rfl⟩)
    rw [same, free] at bound
    cases bound
  obtain ⟨granted, wakeup, made⟩ | ⟨refused, failed⟩ :=
    @createWakeUp_cases Hive platform supply (backend worker) built supported
  · rw [made]
    simp only [within_returned, andThen_returned, granted, true_and]
    cases supply.room with
    | true => simp
    | false =>
        simp only [Bool.false_eq_true, if_false, iff_false, unharmed_threw]
        exact harms isBound
  · rw [failed]
    simp only [within_threw, andThen_threw, unharmed_threw, refused, false_and,
      iff_false]
    exact harms isBound

theorem unharmed_attachIOWorker [DecidableEq Io] (worker : Io) :
    Unharmed state.SameThreads state
      (state.attachIOWorker platform backend self supply (some worker)) ↔
    state.started = true ∨
      (state.io worker).BindHarmless platform (backend worker) supply self
        state.ioWorkers.length := by
  unfold State.attachIOWorker IOWorker.bind IOWorker.BindHarmless
  cases started : state.started with
  | true => simp
  | false =>
      simp only [Bool.false_eq_true, if_false, false_or]
      cases bound : (state.io worker).initialized with
      | true =>
          simp only [if_true, true_or, iff_true, within_threw, andThen_threw,
            unharmed_threw]
          exact fun _ => withIo_eq_self.mpr rfl
      | false =>
          simp only [Bool.false_eq_true, if_false, false_or,
            createEventLoopCore]
          cases supported : supports platform (backend worker) with
          | false => simp
          | true =>
              simp only [if_true, Bool.true_eq_false, false_or]
              cases answer : supply.core with
              | made =>
                  exact unharmed_wakeUp worker bound supported rfl
              | null =>
                  simp only [andThen_returned, within_threw, andThen_threw,
                    unharmed_threw, withIo_eq_self]
                  rw [forall_prop_of_true ⟨rfl, rfl⟩]
                  exact named_cleared_eq_iff bound
              | failed =>
                  simp only [andThen_threw, within_threw, unharmed_threw,
                    withIo_eq_self]
                  rw [forall_prop_of_true ⟨rfl, rfl⟩]
                  exact named_eq_iff bound

theorem unharmed_attachComputeWorker [DecidableEq Compute]
    (worker : Compute) :
    Unharmed state.SameThreads state
      (state.attachComputeWorker self supply (some worker)) ↔
    state.started = true ∨ (state.compute worker).initialized = true ∨
      supply.room = true := by
  unfold State.attachComputeWorker ComputeWorker.bind
  cases started : state.started with
  | true => simp
  | false =>
      simp only [Bool.false_eq_true, if_false, false_or]
      cases bound : (state.compute worker).initialized with
      | true =>
          simp only [if_true, true_or, iff_true, within_threw, andThen_threw,
            unharmed_threw]
          exact fun _ => withCompute_eq_self.mpr rfl
      | false =>
          simp only [Bool.false_eq_true, if_false, false_or, within_returned,
            andThen_returned]
          cases supply.room with
          | true => simp
          | false =>
              simp only [Bool.false_eq_true, if_false, iff_false,
                unharmed_threw, withCompute_eq_self]
              intro unharmed
              have same := congrArg ComputeWorker.initialized
                (unharmed ⟨rfl, rfl⟩)
              rw [bound] at same
              cases same

theorem emplaceThreads_cons {Worker : Type} {granted : Nat → Bool}
    {made : Nat} (worker : Worker) (workers : List Worker) :
    granted made = true ∧
        (emplaceThreads granted made (worker :: workers)).1 ≠ [] ∨
      granted made = false ∧
        emplaceThreads granted made (worker :: workers) = ([], false) := by
  cases isGranted : granted made with
  | true => simp [emplaceThreads, isGranted]
  | false => simp [emplaceThreads, isGranted]

theorem unharmed_claimed {before after : State Hive Io Compute}
    (free : before.started = false) (claimed : after.started = true)
    (error : Thrown) :
    Unharmed before.SameThreads before
      (.threw error after : Attempt (State Hive Io Compute) Thrown Io) ↔
    ¬ before.SameThreads after := by
  rw [unharmed_threw]
  refine forall_congr' fun _ => iff_false_intro ?_
  rintro rfl
  rw [free] at claimed
  cases claimed

theorem unharmed_startCompute_started {before : State Hive Io Compute}
    {made : Nat} {main : Io} (more : state.ioThreads ≠ before.ioThreads) :
    Unharmed before.SameThreads before
      (state.startCompute supply made main) := by
  unfold State.startCompute
  split
  · simp only
    split
    · exact unharmed_returned main
    · exact (unharmed_threw _).mpr fun same => absurd same.1 more
  · exact (unharmed_threw _).mpr fun same => absurd same.1 more

theorem unharmed_startCompute {before : State Hive Io Compute} {main : Io}
    (free : before.started = false) (claimed : state.started = true)
    (same : before.SameThreads state) :
    Unharmed before.SameThreads before (state.startCompute supply 0 main) ↔
      supply.computeCopy = true ∧
        (state.computeWorkers = [] ∨ supply.thread 0 = true) := by
  unfold State.startCompute
  cases supply.computeCopy with
  | false =>
      simp only [Bool.false_eq_true, if_false, false_and, iff_false]
      rw [unharmed_claimed free claimed]
      exact not_not_intro same
  | true =>
      simp only [if_true, true_and]
      cases workers : state.computeWorkers with
      | nil => simp [emplaceThreads]
      | cons worker others =>
          obtain ⟨granted, more⟩ | ⟨refused, threads⟩ :=
            @emplaceThreads_cons Compute supply.thread 0 worker others
          · simp only [granted, or_true, iff_true]
            split
            · exact unharmed_returned main
            · refine (unharmed_claimed free (by exact claimed) _).mpr ?_
              intro after
              apply more
              rw [← List.append_right_eq_self]
              exact after.2.trans same.2.symm
          · rw [threads]
            simp only [refused, Bool.false_eq_true, if_false, List.append_nil,
              reduceCtorEq, or_self, iff_false]
            intro unharmed
            exact (unharmed_claimed free (by exact claimed) _).mp unharmed same

theorem unharmed_run :
    Unharmed state.SameThreads state (state.run supply) ↔
      state.started = true ∨ supply.ioCopy = true ∧ state.Launches supply := by
  unfold State.run State.Launches
  cases started : state.started with
  | true => simp
  | false =>
      simp only [Bool.false_eq_true, if_false, false_or]
      cases supply.ioCopy with
      | false =>
          simp only [Bool.false_eq_true, if_false, false_and, iff_false]
          rw [unharmed_claimed started rfl]
          exact not_not_intro ⟨rfl, rfl⟩
      | true =>
          simp only [if_true, true_and]
          cases workers : state.ioWorkers with
          | nil =>
              simp only [iff_false]
              rw [unharmed_claimed started rfl]
              exact not_not_intro ⟨rfl, rfl⟩
          | cons main others =>
              cases others with
              | nil =>
                  simp only [emplaceThreads, List.append_nil, if_true,
                    List.length_nil]
                  exact unharmed_startCompute started rfl ⟨rfl, rfl⟩
              | cons other others =>
                  simp only
                  obtain ⟨granted, more⟩ | ⟨refused, threads⟩ :=
                    @emplaceThreads_cons Io supply.thread 0 other others
                  · have grown : state.ioThreads ++ (emplaceThreads
                        supply.thread 0 (other :: others)).1 ≠
                          state.ioThreads := by
                      rwa [Ne, List.append_right_eq_self]
                    simp only [granted, iff_true]
                    split
                    · exact unharmed_startCompute_started grown
                    · rw [unharmed_claimed started rfl]
                      exact fun same => grown same.1
                  · rw [threads]
                    simp only [refused, Bool.false_eq_true, if_false,
                      List.append_nil, iff_false]
                    rw [unharmed_claimed started rfl]
                    exact not_not_intro ⟨rfl, rfl⟩

theorem changesNothing_iff [DecidableEq Io] [DecidableEq Compute]
    (call : Call Io Compute) :
    ChangesNothing platform backend self supply state call ↔
      Harmless platform backend self supply state call := by
  change Unharmed state.SameThreads state _ ↔ _
  cases call with
  | run =>
      simp only [State.perform, unharmed_andThen, unharmed_returned,
        implies_true, and_true]
      exact unharmed_run
  | attachIOWorker worker =>
      cases worker with
      | none =>
          simp only [State.perform, State.attachIOWorker, Harmless, iff_true]
          split <;> simp
      | some worker =>
          simp only [State.perform, unharmed_andThen, unharmed_returned,
            implies_true, and_true]
          exact unharmed_attachIOWorker worker
  | attachComputeWorker worker =>
      cases worker with
      | none =>
          simp only [State.perform, State.attachComputeWorker, Harmless,
            iff_true]
          split <;> simp
      | some worker =>
          simp only [State.perform, unharmed_andThen, unharmed_returned,
            implies_true, and_true]
          exact unharmed_attachComputeWorker worker

theorem emplaceThreads_granted {Worker : Type} (made : Nat)
    (workers : List Worker) :
    emplaceThreads (fun _ => true) made workers = (workers, true) := by
  induction workers generalizing made with
  | nil => rfl
  | cons worker workers ih => simp [emplaceThreads, ih]

/-- A call succeeds as soon as the hive has not been started, what it asks for
is there and everything is granted. -/
theorem returns_of_ready [DecidableEq Io] [DecidableEq Compute]
    {call : Call Io Compute} (free : state.started = false)
    (ready : Ready platform backend state call) :
    ∃ after,
      state.perform platform backend self {} call = .returned () after := by
  cases call with
  | attachIOWorker worker =>
      obtain ⟨given, rfl, unbound, supported⟩ := ready
      have granted : grantsWakeUp platform (backend given) {} := .inl rfl
      obtain ⟨_, wakeup, made⟩ | ⟨refused, _⟩ :=
        @createWakeUp_cases Hive platform {} (backend given)
          { state.io given with
            hive := some self
            workerId := state.ioWorkers.length
            core := some (backend given)
            initialized := true } supported
      · simp [State.perform, State.attachIOWorker, IOWorker.bind,
          createEventLoopCore, free, unbound, supported, made]
      · exact absurd granted refused
  | attachComputeWorker worker =>
      obtain ⟨given, rfl, unbound⟩ := ready
      simp [State.perform, State.attachComputeWorker, ComputeWorker.bind, free,
        unbound]
  | run =>
      obtain ⟨main, others, workers⟩ := List.exists_cons_of_ne_nil ready
      simp [State.perform, State.run, State.startCompute, free, workers,
        emplaceThreads_granted]

/-- `run` of a hive without a worker leaves it started for good. -/
theorem emptyRun_changes :
    ¬ ChangesNothing .linux (fun _ : Unit => .linuxEpoll) () {}
        ({} : State Unit Unit Unit) .run ∧
      ∃ error after,
        ({} : State Unit Unit Unit).perform .linux (fun _ => .linuxEpoll) () {}
          .run = .threw error after ∧
        after.perform .linux (fun _ => .linuxEpoll) () {}
            (.attachIOWorker (some ())) =
          .threw (.runtimeError
            "Hive::attachIOWorker: attaching after run() not supported yet")
            after := by
  refine ⟨fun unchanged => ?_, _, _, rfl, rfl⟩
  have same := congrArg State.started (unchanged _ _ rfl ⟨rfl, rfl⟩)
  cases same

end Calls

end RopHive.Schedule.Lifecycle
