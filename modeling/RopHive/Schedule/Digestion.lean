import RopHive.Schedule.IOWorker

namespace RopHive.Schedule

/-! The last three functions of a turn of the loop of `IOWorker::run`:
`runLocalBatch`, `harvestGlobalBatch` and `stealOnce`. -/

section Digestions

variable {workers : Nat} {Task : Type}

/-- What the three functions have done in one turn. -/
structure Digestion (workers : Nat) (Task : Type) where
  /-- What `runLocalBatch` popped, each task with the deque before its pop. -/
  pops : List (List Task × Task) := []
  /-- What was taken out of the global pool, once it was asked. -/
  harvested : Option (List Task) := none
  /-- The workers whose deques were measured or robbed. -/
  visited : List (Fin workers) := []
  /-- What was brought in and started at once, with the deque it found. -/
  refused : List (List Task × Origin workers × Task) := []
  deriving DecidableEq

namespace Digestion

variable (options : Options) (digestion : Digestion workers Task)

def started : List (Origin workers × Task) :=
  digestion.pops.map (fun pop => (Origin.localBatch, pop.2)) ++
    digestion.refused.map Prod.snd

def next (worker : IOWorker workers Task) (view : View workers Task)
    (outcome : Outcome workers Task) : Digestion workers Task :=
  match worker.point with
  | .localPop _ =>
      { digestion with
        pops := digestion.pops ++
          outcome.started.toList.map fun entry => (worker.localDq, entry.2) }
  | .harvestPop =>
      { digestion with
        harvested := some (view.globalMicro.q.take
          (view.globalMicro.q.length - outcome.globalMicro.q.length)) }
  | .stealSize _ victim | .stealTake _ victim _ _ =>
      { digestion with
        visited := digestion.visited ++ [victim] }
  | .offerSpace _ _ | .offerPush _ _ =>
      { digestion with
        refused := digestion.refused ++
          outcome.started.toList.map fun entry => (worker.localDq, entry) }
  | _ => digestion

def Brought (task : Task) : Origin workers → Prop
  | .harvest => ∃ batch, digestion.harvested = some batch ∧ task ∈ batch
  | .stolen victim => victim ∈ digestion.visited
  | _ => False

/-- Each source is turned to only when those before it gave nothing, and taken
from within its bound. -/
structure Frugal : Prop where
  newest : ∀ pop ∈ digestion.pops, pop.1.getLast? = some pop.2
  budget : digestion.pops.length ≤ options.localBatchSize
  harvested : ∀ batch, digestion.harvested = some batch →
    digestion.pops = [] ∧ batch.length ≤ options.globalBatchSize
  visited : digestion.visited ≠ [] →
    digestion.harvested = some [] ∧ options.willSteal = true
  refused : ∀ refusal ∈ digestion.refused,
    IOWorker.maxLocal options ≤ refusal.1.length ∧
      digestion.Brought refusal.2.2 refusal.2.1

def Hungry : Prop :=
  digestion.harvested = some [] ∧ options.willSteal = true

def Carries : Haul workers Task → Prop
  | .harvest rest => ∃ batch, digestion.harvested = some batch ∧ rest ⊆ batch
  | .steal _ victim _ _ =>
      digestion.Hungry options ∧ victim ∈ digestion.visited

/-- What has been done when the loop is at the point given. -/
def Stands : IOPoint workers Task → Prop
  | .checkStop .round | .checkExit .round | .harvestPop => digestion = {}
  | .localPop ran | .running (.localBatch ran)
  | .checkStop (.task (.localBatch ran))
  | .checkExit (.task (.localBatch ran)) =>
      digestion = { pops := digestion.pops } ∧ digestion.pops.length = ran
  | .harvestCount batch => digestion.harvested = some batch
  | .offerSpace haul task | .offerPush haul task =>
      digestion.Carries options haul ∧ digestion.Brought task haul.origin
  | .running (.inline haul) | .checkStop (.task (.inline haul))
  | .checkExit (.task (.inline haul)) => digestion.Carries options haul
  | .stealPick _ | .stealSize _ _ => digestion.Hungry options
  | .stealTake _ victim _ _ =>
      digestion.Hungry options ∧ victim ∈ digestion.visited
  | .checkStop .loop | .divisionByZero => True
  | _ => False

variable {options digestion}

theorem frugal_initial : Frugal options ({} : Digestion workers Task) where
  newest := nofun
  budget := Nat.zero_le _
  harvested := nofun
  visited := fun visited => absurd rfl visited
  refused := nofun

theorem stands_haulNext {haul : Haul workers Task}
    (carries : digestion.Carries options haul) :
    digestion.Stands options haul.next := by
  fun_cases Haul.next haul with
  | case1 => trivial
  | case2 task rest =>
      obtain ⟨batch, harvested, within⟩ := carries
      obtain ⟨offered, left⟩ := List.cons_subset.mp within
      exact ⟨⟨batch, harvested, left⟩, batch, harvested, offered⟩
  | case3 attempt victim left stolen => exact carries
  | case4 attempt victim stolen some => trivial
  | case5 attempt victim none => exact carries.1

theorem stands_done {errand : Errand workers Task}
    (stands : digestion.Stands options (.running errand)) :
    digestion.Stands options errand.done := by
  cases errand with
  | privateTasks | expiredTimers now => cases stands
  | localBatch ran => exact stands
  | inline haul =>
      cases haul with
      | harvest rest => exact stands
      | steal attempt victim left stolen => exact stands_haulNext stands

theorem stands_onward {site : Site workers Task}
    (stands : digestion.Stands options (.checkExit site)) :
    digestion.Stands options site.onward := by
  cases site with
  | loop | timeout | work => cases stands
  | round =>
      cases stands
      exact ⟨rfl, rfl⟩
  | task errand =>
      cases errand with
      | privateTasks | expiredTimers now => cases stands
      | localBatch ran => exact stands
      | inline haul => exact stands_haulNext stands

theorem stands_checkExit {site : Site workers Task} (within : site ≠ .loop)
    (stands : digestion.Stands options (.checkStop site)) :
    digestion.Stands options (.checkExit site) := by
  cases site with
  | loop => exact absurd rfl within
  | timeout | work => cases stands
  | round => exact stands
  | task errand => cases errand <;> exact stands

theorem Frugal.pop {deque : List Task} {task : Task}
    (frugal : digestion.Frugal options)
    (only : digestion = { pops := digestion.pops })
    (room : digestion.pops.length < options.localBatchSize)
    (newest : deque.getLast? = some task) :
    Frugal options
      { digestion with pops := digestion.pops ++ [(deque, task)] } := by
  rw [only]
  refine ⟨?_, ?_, nofun, fun visited => absurd rfl visited, nofun⟩
  · intro pop member
    obtain earlier | last := List.mem_append.mp member
    · exact frugal.newest pop earlier
    · rw [List.mem_singleton.mp last]
      exact newest
  · rw [List.length_append]
    exact room

theorem Frugal.visit (frugal : digestion.Frugal options)
    (hungry : digestion.Hungry options) (victim : Fin workers) :
    Frugal options
      { digestion with visited := digestion.visited ++ [victim] } := by
  refine ⟨frugal.newest, frugal.budget, frugal.harvested, fun _ => hungry, ?_⟩
  rintro ⟨deque, origin, task⟩ member
  obtain ⟨full, brought⟩ := frugal.refused _ member
  refine ⟨full, ?_⟩
  cases origin with
  | harvest => exact brought
  | stolen robbed => exact List.mem_append_left _ brought
  | _ => cases brought

theorem Frugal.refuse {deque : List Task} {origin : Origin workers}
    {task : Task} (frugal : digestion.Frugal options)
    (full : IOWorker.maxLocal options ≤ deque.length)
    (brought : digestion.Brought task origin) :
    Frugal options
      { digestion with
        refused := digestion.refused ++ [(deque, origin, task)] } := by
  refine ⟨frugal.newest, frugal.budget, frugal.harvested, frugal.visited, ?_⟩
  intro refusal member
  obtain earlier | last := List.mem_append.mp member
  · exact frugal.refused refusal earlier
  · rw [List.mem_singleton.mp last]
    exact ⟨full, brought⟩

theorem take_length_sub (queue : List Task) (count : Nat) :
    queue.take (queue.length - (queue.drop count).length) =
      queue.take count := by
  rw [List.length_drop, List.take_eq_take_iff]
  omega

variable {self : Fin workers} {view : View workers Task}
  {worker : IOWorker workers Task} {choice : Choice workers}
  {outcome : Outcome workers Task}

/-- What a turn keeps true of its last three functions. -/
structure Digests (options : Options) (digestion : Digestion workers Task)
    (point : IOPoint workers Task) : Prop where
  frugal : digestion.Frugal options
  stands : digestion.Stands options point

structure Advances (options : Options) (outcome : Outcome workers Task)
    (digestion later : Digestion workers Task) : Prop
    extends Digests options later outcome.worker.point where
  logged : later.started = digestion.started ++ outcome.started.toList

theorem Advances.still (frugal : digestion.Frugal options)
    (stands : digestion.Stands options outcome.worker.point)
    (idle : outcome.started = none) :
    Advances options outcome digestion digestion where
  frugal := frugal
  stands := stands
  logged := by rw [idle, Option.toList_none, List.append_nil]

theorem Digests.localPop {ran : Nat}
    (digests : digestion.Digests options (.localPop ran))
    (point : worker.point = .localPop ran)
    (stepped : worker.step options self view choice = some outcome) :
    Advances options outcome digestion
      (digestion.next worker view outcome) := by
  obtain ⟨frugal, only, counted⟩ := digests
  have finished : digestion.Stands options
      (if ran ≠ 0 then .checkStop .loop else .harvestPop) := by
    split
    · trivial
    · next none =>
        rw [ne_eq, Decidable.not_not] at none
        rw [none, List.length_eq_zero_iff] at counted
        rw [only, counted]
        rfl
  simp only [IOWorker.step, point] at stepped
  split at stepped
  · next task newest =>
      split at stepped <;> cases stepped
      · next room =>
          simp only [next, point, IOWorker.start, Option.toList_some,
            List.map_cons, List.map_nil]
          refine ⟨⟨frugal.pop only (counted ▸ room) newest, ?_, ?_⟩, ?_⟩
          · conv_lhs => rw [only]
          · simp [counted]
          · rw [only]
            simp [started]
      · simp only [next, point, IOWorker.goto, Option.toList_none,
          List.map_nil, List.append_nil]
        exact .still frugal finished rfl
  · cases stepped
    simp only [next, point, IOWorker.goto, Option.toList_none,
      List.map_nil, List.append_nil]
    exact .still frugal finished rfl

theorem Digests.harvestPop (digests : digestion.Digests options .harvestPop)
    (point : worker.point = .harvestPop)
    (stepped : worker.step options self view choice = some outcome) :
    Advances options outcome digestion
      (digestion.next worker view outcome) := by
  obtain ⟨frugal, rfl⟩ := digests
  have took {batch : List Task}
      (taken : view.globalMicro.q.take options.globalBatchSize = batch) :
      Frugal options
        ({ harvested := some batch } : Digestion workers Task) := by
    refine ⟨nofun, Nat.zero_le _, ?_, fun visited => absurd rfl visited, nofun⟩
    rintro _ ⟨⟩
    refine ⟨rfl, ?_⟩
    rw [← taken]
    exact List.length_take_le _ _
  simp only [IOWorker.step, point] at stepped
  split at stepped
  · next none =>
      cases stepped
      simp only [next, point, IOWorker.goto, Nat.sub_self, List.take_zero]
      refine ⟨⟨took none, ?_⟩, rfl⟩
      simp only [IOWorker.stealOnce]
      split
      · next allowed => exact ⟨rfl, allowed.1⟩
      · trivial
  · cases stepped
    simp only [next, point, IOWorker.goto, take_length_sub]
    exact ⟨⟨took rfl, rfl⟩, rfl⟩

theorem Advances.refused {haul : Haul workers Task} {task : Task}
    (frugal : digestion.Frugal options)
    (carries : digestion.Carries options haul)
    (brought : digestion.Brought task haul.origin)
    (full : IOWorker.maxLocal options ≤ worker.localDq.length) :
    Advances options (worker.start view (.inline haul) haul.origin task)
      digestion
      { digestion with
        refused := digestion.refused ++
          [(worker.localDq, haul.origin, task)] } where
  frugal := frugal.refuse full brought
  stands := by
    cases haul <;> exact carries
  logged := by
    simp [started, IOWorker.start]

theorem Digests.offerSpace {haul : Haul workers Task} {task : Task}
    (digests : digestion.Digests options (.offerSpace haul task))
    (point : worker.point = .offerSpace haul task)
    (stepped : worker.step options self view choice = some outcome) :
    Advances options outcome digestion
      (digestion.next worker view outcome) := by
  obtain ⟨frugal, carries, brought⟩ := digests
  simp only [IOWorker.step, point] at stepped
  split at stepped <;> cases stepped
  · simp only [next, point, IOWorker.goto, Option.toList_none,
      List.map_nil, List.append_nil]
    exact .still frugal ⟨carries, brought⟩ rfl
  · next full =>
      simp only [next, point, IOWorker.start, Option.toList_some,
        List.map_cons, List.map_nil]
      refine .refused frugal carries brought ?_
      omega

theorem Digests.offerPush {haul : Haul workers Task} {task : Task}
    (digests : digestion.Digests options (.offerPush haul task))
    (point : worker.point = .offerPush haul task)
    (stepped : worker.step options self view choice = some outcome) :
    Advances options outcome digestion
      (digestion.next worker view outcome) := by
  obtain ⟨frugal, carries, brought⟩ := digests
  simp only [IOWorker.step, point] at stepped
  split at stepped <;> cases stepped
  · simp only [next, point, IOWorker.goto, Option.toList_none,
      List.map_nil, List.append_nil]
    exact .still frugal (stands_haulNext carries) rfl
  · next full =>
      simp only [next, point, IOWorker.start, Option.toList_some,
        List.map_cons, List.map_nil]
      exact .refused frugal carries brought (Nat.le_of_not_lt full)

theorem Digests.stealSize {attempt : Nat} {victim : Fin workers}
    (digests : digestion.Digests options (.stealSize attempt victim))
    (point : worker.point = .stealSize attempt victim)
    (stepped : worker.step options self view choice = some outcome) :
    Advances options outcome digestion
      (digestion.next worker view outcome) := by
  obtain ⟨frugal, hungry⟩ := digests
  simp only [IOWorker.step, point] at stepped
  cases stepped
  simp only [next, point, IOWorker.goto]
  refine ⟨⟨frugal.visit hungry victim, ?_⟩, (List.append_nil _).symm⟩
  split
  · trivial
  · apply stands_haulNext
    exact ⟨hungry, List.mem_append_right _ List.mem_cons_self⟩

theorem Digests.stealTake {attempt left stolen : Nat} {victim : Fin workers}
    (digests : digestion.Digests options
      (.stealTake attempt victim left stolen))
    (point : worker.point = .stealTake attempt victim left stolen)
    (stepped : worker.step options self view choice = some outcome) :
    Advances options outcome digestion
      (digestion.next worker view outcome) := by
  obtain ⟨frugal, hungry, _⟩ := digests
  have carries (left stolen : Nat) : Carries options
      { digestion with visited := digestion.visited ++ [victim] }
      (.steal attempt victim left stolen) :=
    ⟨hungry, List.mem_append_right _ List.mem_cons_self⟩
  simp only [IOWorker.step, point] at stepped
  split at stepped <;> cases stepped <;>
    simp only [next, point, IOWorker.goto]
  · refine ⟨⟨frugal.visit hungry victim, ?_⟩, (List.append_nil _).symm⟩
    exact stands_haulNext (carries 0 stolen)
  · refine ⟨⟨frugal.visit hungry victim, ?_⟩, (List.append_nil _).symm⟩
    have carried := carries (left - 1) (stolen + 1)
    exact ⟨carried, carried.2⟩

theorem Digests.stealPick {attempt : Nat}
    (digests : digestion.Digests options (.stealPick attempt))
    (point : worker.point = .stealPick attempt)
    (stepped : worker.step options self view choice = some outcome) :
    Advances options outcome digestion
      (digestion.next worker view outcome) := by
  obtain ⟨frugal, hungry⟩ := digests
  simp only [IOWorker.step, point] at stepped
  simp only [next, point]
  split at stepped
  · cases choice with
    | victim victim =>
        cases stepped
        refine .still frugal ?_ rfl
        simp only [IOWorker.goto]
        split <;> exact hungry
    | _ => cases stepped
  · cases stepped
    exact .still frugal trivial rfl

/-- The step lemma of the three functions, as long as no flag is set. -/
theorem Digests.step (digests : digestion.Digests options worker.point)
    (unstopped : worker.stopRequested = false)
    (unexited : view.exitRequested = false)
    (within : worker.point ≠ .checkStop .loop)
    (stepped : worker.step options self view choice = some outcome) :
    Advances options outcome digestion
      (digestion.next worker view outcome) := by
  cases point : worker.point with
  | localPop ran => exact (point ▸ digests).localPop point stepped
  | harvestPop => exact (point ▸ digests).harvestPop point stepped
  | offerSpace haul task => exact (point ▸ digests).offerSpace point stepped
  | offerPush haul task => exact (point ▸ digests).offerPush point stepped
  | stealPick attempt => exact (point ▸ digests).stealPick point stepped
  | stealSize attempt victim =>
      exact (point ▸ digests).stealSize point stepped
  | stealTake attempt victim left stolen =>
      exact (point ▸ digests).stealTake point stepped
  | harvestCount batch =>
      obtain ⟨frugal, stands⟩ := digests
      rw [point] at stands
      simp only [IOWorker.step, point] at stepped
      cases stepped
      simp only [next, point]
      refine .still frugal (stands_haulNext ?_) rfl
      exact ⟨batch, stands, List.Subset.refl _⟩
  | running errand =>
      obtain ⟨frugal, stands⟩ := digests
      rw [point] at stands
      simp only [IOWorker.step, point] at stepped
      cases stepped
      simp only [next, point]
      exact .still frugal (stands_done stands) rfl
  | checkStop site =>
      obtain ⟨frugal, stands⟩ := digests
      rw [point] at stands within
      simp only [IOWorker.step, point, unstopped] at stepped
      cases stepped
      simp only [next, point]
      refine .still frugal (stands_checkExit ?_ stands) rfl
      rintro rfl
      exact within rfl
  | checkExit site =>
      obtain ⟨frugal, stands⟩ := digests
      rw [point] at stands
      simp only [IOWorker.step, point, unexited] at stepped
      cases stepped
      simp only [next, point]
      exact .still frugal (stands_onward stands) rfl
  | divisionByZero =>
      simp only [IOWorker.step, point] at stepped
      cases stepped
  | _ =>
      obtain ⟨_, stands⟩ := digests
      rw [point] at stands
      cases stands

end Digestion

end Digestions

end RopHive.Schedule
