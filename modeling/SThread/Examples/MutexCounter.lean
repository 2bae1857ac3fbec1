import Mathlib.Algebra.BigOperators.Group.List.Basic
import SThread.Library.CInt
import SThread.ThreadPool.LockedProgress

namespace SThread.Examples

open SThread.Library
open SThread.ThreadPool

/-!
# Increments under a mutex

The tasks of the mutex example add one to a shared counter again and again,
under `counter_mutex`.  The addition reads the counter and then writes it, so
it is the mutex alone that keeps two of them apart.
-/

/-- Where a call of `increment_with_mutex` is. -/
inductive IncrementPlace where
  | testing (increments i : Int)
  | locked (increments i : Int)
  | loaded (increments i : Int) (value : CInt .int)
  | stored (increments i : Int)
  | done

instance : Inhabited IncrementPlace :=
  ⟨.done⟩

namespace IncrementPlace

/-- The places between lock and unlock. -/
def holds : IncrementPlace → Bool
  | .locked _ _ => true
  | .loaded _ _ _ => true
  | .stored _ _ => true
  | _ => false

/-- The end of the loop. -/
inductive Leaves : IncrementPlace → IncrementPlace → Prop where
  | leave
      (increments i : Int)
      (ended : ¬ i < increments) :
      Leaves (.testing increments i) .done

/-- `sthread_mutex_lock`. -/
inductive Locks : IncrementPlace → IncrementPlace → Prop where
  | lock
      (increments i : Int)
      (goesOn : i < increments) :
      Locks (.testing increments i) (.locked increments i)

/-- `shared_counter++`, as a load and a store. -/
inductive Increments :
    IncrementPlace → CInt .int → IncrementPlace → CInt .int → Prop where
  | load
      (increments i : Int)
      (counter : CInt .int) :
      Increments (.locked increments i) counter
        (.loaded increments i counter) counter
  | store
      (increments i : Int)
      (value counter : CInt .int) :
      Increments (.loaded increments i value) counter
        (.stored increments i) (value + 1)

/-- `sthread_mutex_unlock` and the next round. -/
inductive Unlocks : IncrementPlace → IncrementPlace → Prop where
  | unlock
      (increments i : Int) :
      Unlocks (.stored increments i) (.testing increments (i + 1))

end IncrementPlace

/-- The task function of the example; its argument is the number of increments. -/
def incrementWithMutex :
    LockedCode Unit Int IncrementPlace (CInt .int) where
  holds := IncrementPlace.holds
  outside := IncrementPlace.Leaves
  lock := IncrementPlace.Locks
  inside := IncrementPlace.Increments
  unlock := IncrementPlace.Unlocks
  outside_free := by
    rintro _ _ ⟨⟩
    exact ⟨rfl, rfl⟩
  lock_takes := by
    rintro _ _ ⟨⟩
    exact ⟨rfl, rfl⟩
  inside_keeps := by
    rintro _ _ _ _ (⟨⟩ | ⟨⟩) <;> exact ⟨rfl, rfl⟩
  unlock_gives := by
    rintro _ _ ⟨⟩
    exact ⟨rfl, rfl⟩
  enter _ increments := .testing increments 0
  returns place := place = .done
  enter_free _ _ := rfl
  returns_free := by
    rintro _ rfl
    rfl

/-- What the counter is at each place of a critical section. -/
theorem increments_course
    {increments i : Int}
    {counter counter' : CInt .int}
    {place later : IncrementPlace}
    (course :
      (incrementWithMutex.body place).Course (.locked increments i)
        counter later counter') :
    later = .locked increments i ∧ counter' = counter ∨
      later = .loaded increments i counter ∧ counter' = counter ∨
      later = .stored increments i ∧ counter' = counter + 1 := by
  induction course with
  | refl =>
      exact Or.inl ⟨rfl, rfl⟩
  | step course step inductionHypothesis =>
      rcases inductionHypothesis with
        ⟨rfl, rfl⟩ | ⟨rfl, rfl⟩ | ⟨rfl, rfl⟩
      · cases step
        exact Or.inr (Or.inl ⟨rfl, rfl⟩)
      · cases step
        exact Or.inr (Or.inr ⟨rfl, rfl⟩)
      · cases step

/-- Its end, and an increment as one step. -/
inductive WholeStep :
    IncrementPlace → CInt .int → IncrementPlace → CInt .int → Prop where
  | leave
      (increments i : Int)
      (ended : ¬ i < increments)
      (counter : CInt .int) :
      WholeStep (.testing increments i) counter .done counter
  | increment
      (increments i : Int)
      (goesOn : i < increments)
      (counter : CInt .int) :
      WholeStep (.testing increments i) counter
        (.testing increments (i + 1)) (counter + 1)

/-- Those are the steps when a critical section is one. -/
theorem incrementWithMutex_atomicStep
    {place later : IncrementPlace}
    {counter counter' : CInt .int} :
    incrementWithMutex.AtomicStep place counter later counter' ↔
      WholeStep place counter later counter' := by
  constructor
  · intro step
    cases step with
    | outside counter step =>
        cases step with
        | leave increments i ended =>
            exact .leave increments i ended counter
    | whole lock course unlock =>
        cases lock with
        | lock increments i goesOn =>
            rcases increments_course course with
              ⟨rfl, rfl⟩ | ⟨rfl, rfl⟩ | ⟨rfl, rfl⟩
            · cases unlock
            · cases unlock
            · cases unlock
              exact .increment increments i goesOn counter
  · intro step
    cases step with
    | leave increments i ended counter =>
        exact .outside counter (.leave increments i ended)
    | increment increments i goesOn counter =>
        exact .whole (.lock increments i goesOn)
          (.step (.step .refl (.load increments i counter))
            (.store increments i counter counter))
          (.unlock increments i)

/-- A call adds one to the counter or leaves it alone. -/
theorem incrementWithMutex_updates
    (task : Unit × Job Int) :
    (incrementWithMutex.atomic.program task).Updates
      { change | change = id ∨ change = fun counter => counter + 1 } := by
  intro place later counter counter' step
  cases incrementWithMutex_atomicStep.mp step with
  | leave increments i ended counter =>
      refine ⟨id, Or.inl rfl, rfl, fun other => ?_⟩
      exact incrementWithMutex_atomicStep.mpr
        (.leave increments i ended other)
  | increment increments i goesOn counter =>
      refine ⟨_, Or.inr rfl, rfl, fun other => ?_⟩
      exact incrementWithMutex_atomicStep.mpr
        (.increment increments i goesOn other)

/-- So all calls are independent of each other. -/
theorem incrementWithMutex_independent
    (task task' : Unit × Job Int) :
    (incrementWithMutex.atomic.program task).Independent
      (incrementWithMutex.atomic.program task') := by
  refine (incrementWithMutex_updates task).independent
    (incrementWithMutex_updates task') ?_
  rintro change (rfl | rfl) change' (rfl | rfl)
  · exact .refl _
  · exact fun counter => rfl
  · exact fun counter => rfl
  · exact .refl _

/-- Add one to a counter some times. -/
def addOnes
    (times : Nat)
    (counter : CInt .int) : CInt .int :=
  (fun counter : CInt .int => counter + 1)^[times] counter

/-- As long as it stays in range the counter is exact. -/
theorem addOnes_is
    {times : Nat}
    {counter : CInt .int}
    {first : Int}
    (starts : counter.Is first)
    (fits : IntType.int.Represents (first + times)) :
    (addOnes times counter).Is (first + times) := by
  induction times with
  | zero =>
      simpa [addOnes] using starts
  | succ times inductionHypothesis =>
      have low := IntType.represents_int.mp starts.represents
      have high := IntType.represents_int.mp fits
      have before : IntType.int.Represents (first + times) :=
        IntType.represents_int.mpr ⟨by omega, by omega⟩
      have sum : first + (times : Int) + 1 = first + (times + 1 : Nat) := by
        omega
      rw [addOnes, Function.iterate_succ_apply', ← sum]
      exact (inductionHypothesis before).add
        (CInt.literal_is (by decide)) (by rw [sum]; exact fits)

/-- What is left of a call from some place on. -/
def IncrementPlace.rest : IncrementPlace → CInt .int → CInt .int
  | .testing increments i, counter =>
      addOnes (increments - i).toNat counter
  | _, counter => counter

/-- A call adds one as often as it is told to. -/
theorem incrementWithMutex_runs
    (task : Unit × Job Int)
    (counter counter' : CInt .int)
    (runs :
      (incrementWithMutex.atomic.program task).Runs counter counter') :
    counter' = addOnes task.2.arg.toNat counter := by
  obtain ⟨place, course, rfl⟩ := runs
  have same :
      IncrementPlace.done.rest counter' =
        (IncrementPlace.testing task.2.arg 0).rest counter := by
    generalize IncrementPlace.done = last at course
    induction course with
    | refl =>
        rfl
    | step course step inductionHypothesis =>
        refine Eq.trans ?_ inductionHypothesis
        cases incrementWithMutex_atomicStep.mp step with
        | leave increments i ended counter =>
            have nothing : (increments - i).toNat = 0 := by
              omega
            simp [IncrementPlace.rest, nothing, addOnes]
        | increment increments i goesOn counter =>
            have more :
                (increments - i).toNat = (increments - (i + 1)).toNat + 1 := by
              omega
            simp [IncrementPlace.rest, more, addOnes]
  simpa [IncrementPlace.rest] using same

/-- Calls one after the other add up. -/
theorem foldl_addOnes
    (tasks : List (Unit × Job Int))
    (counter : CInt .int) :
    tasks.foldl
        (fun counter task => addOnes task.2.arg.toNat counter)
        counter =
      addOnes (tasks.map fun task => task.2.arg.toNat).sum counter := by
  induction tasks generalizing counter with
  | nil =>
      rfl
  | cons task tasks inductionHypothesis =>
      rw [List.foldl_cons, inductionHypothesis, List.map_cons,
        List.sum_cons, Nat.add_comm, addOnes, addOnes, addOnes,
        Function.iterate_add_apply]

/-- How often the tasks a pool has acknowledged are told to add one. -/
def incrementsOf
    {config : Config}
    {Client Memory : Type}
    (execution : Execution config Client Unit Int IncrementPlace Memory) :
    Nat :=
  ((execution.pool.shared.history.acknowledged.filterMap
    execution.pool.shared.history.task).map
      fun task => task.2.arg.toNat).sum

/-- Serial calls add up as long as their sum fits. -/
theorem serially_adds_up
    {tasks : List (Unit × Job Int)}
    {counter counter' : CInt .int}
    {first : Int}
    (starts : counter.Is first)
    (serially :
      Program.Serially (tasks.map incrementWithMutex.atomic.program)
        counter counter')
    (fits :
      IntType.int.Represents
        (first + (tasks.map fun task => task.2.arg.toNat).sum)) :
    counter'.Is (first + (tasks.map fun task => task.2.arg.toNat).sum) := by
  rw [Program.Serially.foldl incrementWithMutex_runs serially,
    foldl_addOnes]
  exact addOnes_is starts fits

/--
When `thread_pool_wait` has returned, and until the next submission, the mutex
is free and the counter has grown by all increments of the acknowledged tasks,
as long as their sum fits into an `int`.
-/
theorem incrementWithMutex_adds_up
    {config : Config}
    {counter : CInt .int}
    {first : Int}
    (starts : counter.Is first)
    {returned later :
      Execution config Unit Unit Int IncrementPlace (Guarded (CInt .int))}
    (reachable :
      (executions config Unit incrementWithMutex.code
        ⟨false, counter⟩).Reachable returned)
    {since : List Nat}
    {caller : Caller Unit Int IncrementPlace}
    (returns :
      returned.pool.pc (.client ()) = .waiting .done since caller)
    (rest :
      ((executions config Unit incrementWithMutex.code
        ⟨false, counter⟩).restrict Execution.NoSubmission).Run
          returned later)
    (fits : IntType.int.Represents (first + incrementsOf later)) :
    later.memory.locked = false ∧
      later.memory.data.Is (first + incrementsOf later) := by
  obtain ⟨free, serially⟩ :=
    (Quiet.returned reachable returns rest).locked_serially
      (reachable.run (System.Run.of_restrict rest))
      incrementWithMutex_independent
  exact ⟨free, serially_adds_up starts serially fits⟩

/-- One round of the loop, from the test to the next one. -/
theorem incrementWithMutex_round
    (task : Unit × Job Int)
    {increments i : Int}
    (goesOn : i < increments)
    (counter : CInt .int) :
    (incrementWithMutex.code.program task).Course
      (.testing increments i) ⟨false, counter⟩
      (.testing increments (i + 1)) ⟨false, counter + 1⟩ :=
  .step (.step (.step (.step .refl
    (.lock counter (.lock increments i goesOn)))
    (.inside true (.load increments i counter)))
    (.inside true (.store increments i counter counter)))
    (.unlock true _ (.unlock increments i))

/-- A call for one increment. -/
theorem incrementWithMutex_once
    (id : Nat)
    (counter : CInt .int) :
    (incrementWithMutex.code.program ((), ⟨id, 1⟩)).Runs
      ⟨false, counter⟩ ⟨false, counter + 1⟩ :=
  ⟨.done,
    (incrementWithMutex_round _ Int.zero_lt_one counter).step
      (.outside _ (.leave 1 1 (by decide))),
    rfl⟩

/-- One call between the two increments of another one makes 8 of 5. -/
theorem incrementWithMutex_adds_up_thrice :
    ∃ returned later :
        Execution pairConfig Unit Unit Int IncrementPlace
          (Guarded (CInt .int)),
      (executions pairConfig Unit incrementWithMutex.code
          ⟨false, 5⟩).Reachable returned ∧
        returned.pool.pc (.client ()) = .waiting .done [0, 1] .client ∧
        ((executions pairConfig Unit incrementWithMutex.code
          ⟨false, 5⟩).restrict Execution.NoSubmission).Run
            returned later ∧
        later.pool.shared.history.acknowledged = [0, 1] ∧
        later.memory.data.Is 8 := by
  obtain ⟨returned, later, reachable, returns, rest, _, _, submissions,
    acknowledged, _⟩ :=
    exists_joined_pair incrementWithMutex.code () () 2 1
      (incrementWithMutex_round _ (by decide) 5)
      (incrementWithMutex_once 1 _)
      ((incrementWithMutex_round _ (by decide) _).step
        (.outside _ (.leave 2 2 (by decide))))
      rfl
  have total : incrementsOf later = 3 := by
    simp [incrementsOf, acknowledged, History.task, submissions]
  have added :=
    incrementWithMutex_adds_up (CInt.literal_is (by decide)) reachable
      returns rest (by rw [total]; decide)
  rw [total] at added
  exact ⟨returned, later, reachable, returns, rest, acknowledged,
    added.2⟩

/-- How many steps a call still has to take. -/
def IncrementPlace.left : IncrementPlace → Nat
  | .testing increments i => 4 * (increments - i).toNat + 1
  | .locked increments i => 4 * (increments - (i + 1)).toNat + 4
  | .loaded increments i _ => 4 * (increments - (i + 1)).toNat + 3
  | .stored increments i => 4 * (increments - (i + 1)).toNat + 2
  | .done => 0

/-- A call terminates. -/
theorem incrementWithMutex_terminates
    (func : Unit)
    (increments : Int) :
    incrementWithMutex.code.behaviour.Terminates
      (incrementWithMutex.enter func increments) := by
  refine incrementWithMutex.code.terminates IncrementPlace.left ?_ ?_ _
  · intro place memory later memory' step
    cases step with
    | outside guarded step =>
        cases step
        exact Nat.succ_pos _
    | lock counter step =>
        cases step with
        | lock increments i goesOn =>
            simp only [IncrementPlace.left]
            omega
    | inside isLocked step =>
        cases step <;> exact Nat.lt_succ_self _
    | unlock isLocked counter step =>
        cases step
        exact Nat.lt_succ_self _
  · intro place
    cases place with
    | testing increments i =>
        by_cases goesOn : i < increments
        · exact Or.inr ⟨⟨false, 0⟩, _, _, .lock 0 (.lock _ _ goesOn)⟩
        · exact Or.inr ⟨⟨false, 0⟩, _, _, .outside _ (.leave _ _ goesOn)⟩
    | locked increments i =>
        exact Or.inr ⟨⟨true, 0⟩, _, _, .inside true (.load _ _ 0)⟩
    | loaded increments i value =>
        exact Or.inr ⟨⟨true, 0⟩, _, _, .inside true (.store _ _ value 0)⟩
    | stored increments i =>
        exact Or.inr ⟨⟨true, 0⟩, _, _, .unlock true 0 (.unlock _ _)⟩
    | done =>
        exact Or.inl rfl

/-- It gives the mutex back. -/
theorem incrementWithMutex_releases :
    incrementWithMutex.Releases := by
  intro place counter holds
  cases place with
  | locked increments i =>
      exact Or.inl ⟨_, _, .load increments i counter⟩
  | loaded increments i value =>
      exact Or.inl ⟨_, _, .store increments i value counter⟩
  | stored increments i =>
      exact Or.inr ⟨_, .unlock increments i⟩
  | testing increments i
  | done =>
      exact Bool.noConfusion holds

/--
With any number of clients: where no worker and no client inside a call can go
on, and nobody has begun to destroy the pool, all calls have returned, the mutex
is free, and the counter has grown by all increments of the accepted tasks.
-/
theorem incrementWithMutex_completes
    {config : Config}
    {Client : Type}
    [DecidableEq Client]
    [Fintype Client]
    {counter : CInt .int}
    {first : Int}
    (starts : counter.Is first)
    {execution :
      Execution config Client Unit Int IncrementPlace
        (Guarded (CInt .int))}
    (reachable :
      (executions config Client incrementWithMutex.code
        ⟨false, counter⟩).Reachable execution)
    (alive : execution.pool.pc .destroyer = .destroying .start)
    (stuck :
      ∀ thread later,
        thread ≠ .destroyer →
        execution.pool.pc thread ≠ .idle →
        ¬ execution.Step incrementWithMutex.code thread later)
    (fits : IntType.int.Represents (first + incrementsOf execution)) :
    AtRest execution.pool ∧
      execution.memory.locked = false ∧
      execution.memory.data.Is (first + incrementsOf execution) := by
  obtain ⟨rest, free⟩ :=
    locked_atRest incrementWithMutex_terminates
      incrementWithMutex_releases reachable alive stuck
  exact ⟨rest, free, serially_adds_up starts
    (rest.locked_serially reachable incrementWithMutex_independent) fits⟩

/-- Both workers asleep again after one call each. -/
theorem incrementWithMutex_completes_pair :
    ∃ execution :
        Execution pairConfig Unit Unit Int IncrementPlace
          (Guarded (CInt .int)),
      (executions pairConfig Unit incrementWithMutex.code
          ⟨false, 5⟩).Reachable execution ∧
        execution.pool.shared.history.acknowledged = [0, 1] ∧
        AtRest execution.pool ∧
        execution.memory.locked = false ∧
        execution.memory.data.Is 7 := by
  have start :
      (executions pairConfig Unit incrementWithMutex.code
        ⟨false, 5⟩).Reachable _ :=
    .start rfl
  have first :=
    run_submits start.stay (State.not_freed rfl) () () 1 rfl rfl rfl 0 rfl
      rfl
  have second :=
    run_submits first (State.not_freed rfl) () () 1 rfl rfl rfl 1 rfl rfl
  have called :=
    run_calls second (State.not_freed rfl) 0 rfl rfl rfl rfl rfl
  have both :=
    run_calls called (State.not_freed rfl) 1 rfl rfl rfl rfl rfl
  obtain ⟨_, course, returns⟩ := incrementWithMutex_once 0 5
  obtain ⟨_, course', returns'⟩ := incrementWithMutex_once 1 (5 + 1)
  have ran :=
    run_computes both (State.not_freed rfl) 0 rfl course
  have ranBoth :=
    run_computes ran (State.not_freed rfl) 1 rfl course'
  have finished :=
    run_finishes ranBoth (State.not_freed rfl) 0 rfl returns rfl
      (forall_pair rfl rfl rfl rfl)
  have finishedBoth :=
    run_finishes finished (State.not_freed rfl) 1 rfl returns' rfl
      (forall_pair rfl rfl rfl rfl)
  have asleep :=
    run_sleeps finishedBoth (State.not_freed rfl) 0 rfl rfl rfl
  have allAsleep :=
    run_sleeps asleep (State.not_freed rfl) 1 rfl rfl rfl
  have reachable := start.run allAsleep
  have fits : IntType.int.Represents ((5 : Nat) + (2 : Nat) : Int) := by
    decide
  have completes :=
    incrementWithMutex_completes (CInt.literal_is (by decide)) reachable rfl
      (forall_pair
        (fun _ _ _ => Execution.Step.not_asleep rfl rfl)
        (fun _ _ _ => Execution.Step.not_asleep rfl rfl)
        (fun _ _ busy => absurd rfl busy)
        (fun _ isDestroyer _ => absurd rfl isDestroyer))
      fits
  exact ⟨_, reachable, rfl, completes⟩

end SThread.Examples
