import Mathlib.Algebra.BigOperators.Group.List.Basic
import Mathlib.Algebra.Group.Int.Defs
import SThread.Library.CInt
import SThread.ThreadPool.ForkJoin

namespace SThread.Examples

open SThread.Library
open SThread.ThreadPool

/-!
# Counting tasks

The tasks of the pool tests add to shared counters with `atomic_fetch_add`.
No addition is lost and none is made twice: when `thread_pool_wait` returns
every counter has grown by what the accepted tasks add to it.  The `local_sum`
of a call is not wrapped: for an `int` of iterations it fits into a `long`.
-/

/-- The counters of the tests. -/
inductive Counter where
  | taskCounter
  | globalCounter
  | element (index : Int)
  deriving DecidableEq, Repr

/-- `global_counter` is an `atomic_long`, the others are `atomic_int`. -/
def Counter.type : Counter → IntType
  | .taskCounter => .int
  | .globalCounter => .long
  | .element _ => .int

/-- The task functions of the tests. -/
inductive CounterFunc where
  | incrementTask
  | incrementArrayTask
  | countingTask
  deriving DecidableEq, Repr

/-- Where a call of one of them is. -/
inductive CounterPlace where
  | summing (iterations i localSum : Int)
  | adding (counter : Counter) (amount : Int)
  | done
  deriving DecidableEq, Repr

instance : Inhabited CounterPlace :=
  ⟨.done⟩

/-- `atomic_fetch_add`; atomic arithmetic wraps around. -/
def atomicFetchAdd
    (counter : Counter)
    (amount : Int)
    (memory : Counter → Int) : Counter → Int :=
  Function.update memory counter
    (counter.type.wrap (memory counter + amount))

/--
Where a call starts.  The argument is ignored, or the index of a counter, or
the number of iterations.
-/
def counterEnter : CounterFunc → Int → CounterPlace
  | .incrementTask, _ => .adding .taskCounter 1
  | .incrementArrayTask, index => .adding (.element index) 1
  | .countingTask, iterations => .summing iterations 0 0

/-- One step of a task function. -/
def counterStep :
    CounterPlace → (Counter → Int) →
    Option (CounterPlace × (Counter → Int))
  | .summing iterations i localSum, memory =>
      if i < iterations then
        some (.summing iterations (i + 1) (localSum + i), memory)
      else
        some (.adding .globalCounter localSum, memory)
  | .adding counter amount, memory =>
      some (.done, atomicFetchAdd counter amount memory)
  | .done, _ => none

/-- The task functions of the tests. -/
def counterTasks :
    TaskCode CounterFunc Int CounterPlace (Counter → Int) where
  enter := counterEnter
  step place memory later memory' :=
    counterStep place memory = some (later, memory')
  returns place := place = .done

/-- The counter a task adds to. -/
def taskCounterOf : CounterFunc × Job Int → Counter
  | (.incrementTask, _) => .taskCounter
  | (.incrementArrayTask, job) => .element job.arg
  | (.countingTask, _) => .globalCounter

/-- What it adds. -/
def taskAmount : CounterFunc × Job Int → Int
  | (.incrementTask, _) => 1
  | (.incrementArrayTask, _) => 1
  | (.countingTask, job) =>
      ((List.range job.arg.toNat).map fun i : Nat => (i : Int)).sum

/-- What it adds to some counter. -/
def addedTo
    (counter : Counter)
    (task : CounterFunc × Job Int) : Int :=
  if taskCounterOf task = counter then taskAmount task else 0

/-- Wrapping around early makes no difference. -/
theorem wrap_wrap_add
    (type : IntType)
    (value more : Int) :
    type.wrap (type.wrap value + more) = type.wrap (value + more) := by
  unfold IntType.wrap
  cases type.signed with
  | false =>
      exact Int.emod_add_emod value type.size more
  | true =>
      exact Int.bmod_add_bmod

/-- Two additions commute. -/
theorem atomicFetchAdd_commute
    (counter counter' : Counter)
    (amount amount' : Int) :
    Function.Commute (atomicFetchAdd counter amount)
      (atomicFetchAdd counter' amount') := by
  intro memory
  unfold atomicFetchAdd
  by_cases same : counter = counter'
  · subst same
    simp only [Function.update_self, Function.update_idem, wrap_wrap_add]
    rw [add_right_comm]
  · rw [Function.update_of_ne same, Function.update_of_ne (Ne.symm same),
      Function.update_comm (Ne.symm same)]

/-- A task function adds to a counter or leaves the memory alone. -/
theorem counterTasks_updates
    (task : CounterFunc × Job Int) :
    (counterTasks.program task).Updates
      { change |
        change = id ∨
          ∃ counter amount, change = atomicFetchAdd counter amount } := by
  intro place later memory memory' step
  have step : counterStep place memory = some (later, memory') := step
  cases place with
  | summing iterations i localSum =>
      simp only [counterStep] at step
      split at step
      · rename_i goesOn
        cases step
        refine ⟨id, Or.inl rfl, rfl, ?_⟩
        intro other
        simp [TaskCode.program, counterTasks, counterStep, goesOn]
      · rename_i stops
        cases step
        refine ⟨id, Or.inl rfl, rfl, ?_⟩
        intro other
        simp [TaskCode.program, counterTasks, counterStep, stops]
  | adding counter amount =>
      cases step
      exact ⟨atomicFetchAdd counter amount, Or.inr ⟨counter, amount, rfl⟩,
        rfl, fun other => rfl⟩
  | done =>
      cases step

/-- All calls are independent of each other. -/
theorem counterTasks_independent
    (task task' : CounterFunc × Job Int) :
    (counterTasks.program task).Independent
      (counterTasks.program task') := by
  refine (counterTasks_updates task).independent
    (counterTasks_updates task') ?_
  rintro change (rfl | ⟨counter, amount, rfl⟩) change'
    (rfl | ⟨counter', amount', rfl⟩)
  · exact .refl _
  · exact fun memory => rfl
  · exact fun memory => rfl
  · exact atomicFetchAdd_commute counter counter' amount amount'

/-- What is left of a call from some place on. -/
def CounterPlace.rest : CounterPlace → (Counter → Int) → (Counter → Int)
  | .summing iterations i localSum, memory =>
      atomicFetchAdd .globalCounter
        (localSum +
          ((List.range (iterations - i).toNat).map
            fun round : Nat => i + round).sum)
        memory
  | .adding counter amount, memory => atomicFetchAdd counter amount memory
  | .done, memory => memory

/-- What is left to do and what has been done stay the same together. -/
theorem counterStep_rest
    {place later : CounterPlace}
    {memory memory' : Counter → Int}
    (step : counterStep place memory = some (later, memory')) :
    later.rest memory' = place.rest memory := by
  cases place with
  | summing iterations i localSum =>
      simp only [counterStep] at step
      split at step
      · rename_i goesOn
        cases step
        have more :
            (iterations - i).toNat = (iterations - (i + 1)).toNat + 1 := by
          omega
        simp only [CounterPlace.rest]
        rw [more, List.range_succ_eq_map, List.map_cons, List.sum_cons,
          List.map_map, add_assoc]
        congr 3
        · simp
        · congr 1
          refine List.map_congr_left ?_
          intro round _
          simp only [Function.comp, Nat.succ_eq_add_one, Int.natCast_add]
          omega
      · rename_i stops
        cases step
        simp only [CounterPlace.rest]
        rw [Int.toNat_of_nonpos (by omega)]
        simp
  | adding counter amount =>
      cases step
      rfl
  | done =>
      cases step

/-- A call adds what it should. -/
theorem counterTasks_runs
    (task : CounterFunc × Job Int)
    (memory memory' : Counter → Int)
    (runs : (counterTasks.program task).Runs memory memory') :
    memory' =
      atomicFetchAdd (taskCounterOf task) (taskAmount task) memory := by
  obtain ⟨place, course, rfl⟩ := runs
  have same :
      CounterPlace.done.rest memory' =
        (counterEnter task.1 task.2.arg).rest memory := by
    generalize CounterPlace.done = last at course
    induction course with
    | refl =>
        rfl
    | step course step inductionHypothesis =>
        exact (counterStep_rest step).trans inductionHypothesis
  have memoryIs :
      memory' = (counterEnter task.1 task.2.arg).rest memory :=
    same
  rw [memoryIs]
  obtain ⟨func, job⟩ := task
  cases func with
  | incrementTask
  | incrementArrayTask =>
      rfl
  | countingTask =>
      simp [counterEnter, CounterPlace.rest, taskCounterOf, taskAmount]

/-- Additions one after the other add up. -/
theorem foldl_atomicFetchAdd
    (tasks : List (CounterFunc × Job Int))
    {memory : Counter → Int}
    (represents :
      ∀ counter : Counter, counter.type.Represents (memory counter))
    (counter : Counter) :
    tasks.foldl
        (fun memory task =>
          atomicFetchAdd (taskCounterOf task) (taskAmount task) memory)
        memory counter =
      counter.type.wrap
        (memory counter + (tasks.map (addedTo counter)).sum) := by
  induction tasks generalizing memory with
  | nil =>
      simp [counter.type.wrap_of_represents (represents counter)]
  | cons task tasks inductionHypothesis =>
      have represents' :
          ∀ other : Counter,
            other.type.Represents
              (atomicFetchAdd (taskCounterOf task) (taskAmount task)
                memory other) := by
        intro other
        unfold atomicFetchAdd
        by_cases here : other = taskCounterOf task
        · subst here
          rw [Function.update_self]
          exact IntType.represents_wrap _ _
        · rw [Function.update_of_ne here]
          exact represents other
      rw [List.foldl_cons, inductionHypothesis represents', List.map_cons,
        List.sum_cons]
      unfold atomicFetchAdd addedTo
      by_cases here : taskCounterOf task = counter
      · subst here
        rw [Function.update_self, if_pos rfl, wrap_wrap_add, add_assoc]
      · rw [Function.update_of_ne (Ne.symm here), if_neg here, zero_add]

/--
When `thread_pool_wait` has returned, and until the next submission, every
counter has grown by what the acknowledged tasks add to it.
-/
theorem counterTasks_add_up
    {config : Config}
    {memory : Counter → Int}
    (represents :
      ∀ counter : Counter, counter.type.Represents (memory counter))
    {returned later :
      Execution config Unit CounterFunc Int CounterPlace (Counter → Int)}
    (reachable :
      (executions config Unit counterTasks memory).Reachable returned)
    {since : List Nat}
    {caller : Caller CounterFunc Int CounterPlace}
    (returns :
      returned.pool.pc (.client ()) = .waiting .done since caller)
    (rest :
      ((executions config Unit counterTasks memory).restrict
        Execution.NoSubmission).Run returned later)
    (counter : Counter) :
    later.memory counter =
      counter.type.wrap
        (memory counter +
          ((later.pool.shared.history.acknowledged.filterMap
            later.pool.shared.history.task).map
              (addedTo counter)).sum) := by
  have serially :=
    (Quiet.returned reachable returns rest).serially_all
      (reachable.run (System.Run.of_restrict rest)) (by
        rw [Execution.programs, List.pairwise_map]
        exact List.pairwise_of_forall counterTasks_independent)
  rw [Program.Serially.foldl counterTasks_runs serially]
  exact foldl_atomicFetchAdd _ represents counter

/-- One task counts to 3, and another one to 4 in the middle of that. -/
theorem counterTasks_add_up_nine :
    ∃ returned later :
        Execution pairConfig Unit CounterFunc Int CounterPlace
          (Counter → Int),
      (executions pairConfig Unit counterTasks (fun _ => 0)).Reachable
          returned ∧
        returned.pool.pc (.client ()) = .waiting .done [0, 1] .client ∧
        ((executions pairConfig Unit counterTasks (fun _ => 0)).restrict
          Execution.NoSubmission).Run returned later ∧
        later.pool.shared.history.acknowledged = [0, 1] ∧
        later.memory .globalCounter = 9 := by
  obtain ⟨returned, later, reachable, returns, rest, _, _, submissions,
    acknowledged, _⟩ :=
    exists_joined_pair counterTasks .countingTask .countingTask 3 4
      (.step (.step .refl rfl) rfl)
      ⟨.done, .step (.step (.step (.step (.step (.step .refl
        rfl) rfl) rfl) rfl) rfl) rfl, rfl⟩
      (.step (.step (.step .refl rfl) rfl) rfl) rfl
  have represents : ∀ counter : Counter, counter.type.Represents 0 := by
    intro counter
    cases counter with
    | taskCounter
    | globalCounter =>
        decide
    | element index =>
        exact (by decide : IntType.int.Represents 0)
  have added :=
    counterTasks_add_up represents reachable returns rest .globalCounter
  have tasks :
      [0, 1].filterMap later.pool.shared.history.task =
        [(.countingTask, ⟨0, 3⟩), (.countingTask, ⟨1, 4⟩)] := by
    simp [History.task, submissions]
  refine ⟨returned, later, reachable, returns, rest, acknowledged, ?_⟩
  rw [added, acknowledged, tasks]
  decide

end SThread.Examples
