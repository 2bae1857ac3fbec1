import SThread.ThreadPool.CallsReturn
import SThread.ThreadPool.LockedTasks

namespace SThread.ThreadPool

open SThread.Library
open SThread.Scheduler

/-!
# A mutex does not keep a pool from coming to rest

A task that waits for the mutex cannot go on, but then whoever holds it can.  So
the calls of a pool whose tasks share data under a mutex return as those of any
other pool do.
-/

section

variable
    {config : Config}
    {Client Func Arg Local Memory : Type}
    [DecidableEq Client]
    {code : TaskCode Func Arg Local Memory}
    {execution : Execution config Client Func Arg Local Memory}
    {thread : Thread config.numThreads Client}

/-- A step of one thread of an execution. -/
inductive Execution.Step
    (code : TaskCode Func Arg Local Memory)
    (execution : Execution config Client Func Arg Local Memory)
    (thread : Thread config.numThreads Client) :
    Execution config Client Func Arg Local Memory → Prop where
  | compute
      (task : Func × Job Arg)
      (place later : Local)
      (memory' : Memory)
      (here : execution.pool.pc thread = .running task place)
      (step : code.step place execution.memory later memory') :
      Execution.Step code execution thread {
        pool :=
          execution.pool.put thread execution.pool.shared
            ⟨.running task later, execution.pool.queue.pc thread⟩
        memory := memory' }
  | other
      {pool : State config Client Func Arg Local}
      (step : ThreadPool.Step code.control execution.pool thread pool) :
      Execution.Step code execution thread {
        execution with
          pool := pool }

/-- A task function with steps of its own on some memory. -/
def TaskCode.Steps
    (code : TaskCode Func Arg Local Memory)
    (pc : Pc Func Arg Local) : Prop :=
  ∃ task place later memory memory',
    pc = .running task place ∧ code.step place memory later memory'

/-- What a thread does on its own it does itself or its task function does. -/
theorem LocalStep.control_or_steps
    {Owner : Type}
    {owner : Owner}
    {numThreads : Nat}
    {shared shared' : Shared Owner Func Arg}
    {place place' : Place Func Arg Local}
    (step :
      LocalStep code.behaviour owner numThreads
        shared place shared' place') :
    LocalStep code.control owner numThreads shared place shared' place' ∨
      code.Steps place.pc := by
  cases step with
  | worker step =>
      cases step with
      | compute call task place later acts =>
          obtain ⟨memory, memory', step⟩ := acts
          exact Or.inr ⟨task, place, later, memory, memory', rfl, step⟩
      | finish call task place returns =>
          exact Or.inl (.worker (.finish call task place ⟨rfl, returns⟩))
      | enter call task =>
          exact Or.inl (.worker (.enter call task))
      | _ =>
          refine Or.inl (.worker ?_)
          constructor <;> assumption
  | submit step =>
      refine Or.inl (.submit ?_)
      cases step with
      | callNull call caller arg priority may =>
          cases caller with
          | client =>
              exact .callNull call .client arg priority trivial
          | task item place =>
              exact may.elim
      | call call caller func arg priority may =>
          cases caller with
          | client =>
              exact .call call .client func arg priority trivial
          | task item place =>
              exact may.elim
      | failed call submission caller ret failed =>
          exact .failed call submission caller ret failed
      | acknowledged call submission caller =>
          exact .acknowledged call submission caller
      | _ =>
          constructor <;> assumption
  | wait step =>
      refine Or.inl (.wait ?_)
      cases step with
      | call call caller may =>
          cases caller with
          | client =>
              exact .call call .client trivial
          | task item place =>
              exact may.elim
      | ret call since caller =>
          exact .ret call since caller
      | wake call completed wake since caller awake free =>
          exact .wake call completed wake since caller awake free
      | _ =>
          constructor <;> assumption
  | destroy step =>
      exact Or.inl (.destroy step)

/-- What the pool can do the execution can do, or a task function is at fault. -/
theorem Step.execution_or_steps
    {later : State config Client Func Arg Local}
    (step : ThreadPool.Step code.behaviour execution.pool thread later) :
    (∃ later, execution.Step code thread later) ∨
      code.Steps (execution.pool.pc thread) := by
  cases step with
  | queue step =>
      exact Or.inl ⟨_, .other (.queue step)⟩
  | own step =>
      exact step.control_or_steps.imp
        (fun step => ⟨_, .other (.own step)⟩) id
  | broadcast here =>
      exact Or.inl ⟨_, .other (.broadcast here)⟩
  | join next here inRange ended =>
      exact Or.inl ⟨_, .other (.join next here inRange ended)⟩
  | destroyQueue heap here frees =>
      exact Or.inl ⟨_, .other (.destroyQueue heap here frees)⟩
  | destroyQueueFault here fails =>
      exact Or.inl ⟨_, .other (.destroyQueueFault here fails)⟩

end

/-- Nobody gets stuck between lock and unlock. -/
def LockedCode.Releases
    {Func Arg Local Data : Type}
    (locked : LockedCode Func Arg Local Data) : Prop :=
  ∀ place data,
    locked.holds place = true →
    (∃ later data', locked.inside place data later data') ∨
      ∃ later, locked.unlock place later

section

variable
    {config : Config}
    {Client Func Arg Local Data : Type}
    [DecidableEq Client]
    {locked : LockedCode Func Arg Local Data}
    {data : Data}
    {execution :
      Execution config Client Func Arg Local (Guarded Data)}
    {thread : Thread config.numThreads Client}

/-- Whoever is inside a critical section can go on. -/
theorem LockedCode.Releases.enabled
    (releases : locked.Releases)
    {task : Func × Job Arg}
    {place : Local}
    (here : execution.pool.pc thread = .running task place)
    (holds : locked.holds place = true) :
    ∃ later, execution.Step locked.code thread later := by
  rcases releases place execution.memory.data holds with
    ⟨later, data', step⟩ | ⟨later, step⟩
  · exact ⟨_, .compute task place later _ here
      (.inside execution.memory.locked step)⟩
  · exact ⟨_, .compute task place later _ here
      (.unlock execution.memory.locked execution.memory.data step)⟩

/-- Where nobody inside a critical section can go on the mutex is free. -/
theorem free_of_stuck
    (releases : locked.Releases)
    (reachable :
      (executions config Client locked.code ⟨false, data⟩).Reachable
        execution)
    (stuck :
      ∀ thread task place later,
        execution.pool.pc thread = .running task place →
        ¬ execution.Step locked.code thread later) :
    execution.memory.locked = false := by
  obtain ⟨coarse, _, condenses⟩ := reachable_condenses reachable
  cases condenses with
  | free pool data =>
      rfl
  | @held pool thread task before first place data' data'' here lock course =>
      have holds :=
        Discipline.holds_course course (locked.lock_takes lock).2
      obtain ⟨later, step⟩ :
          ∃ later,
            Execution.Step locked.code ⟨pool, ⟨true, data''⟩⟩ thread later :=
        releases.enabled here holds
      exact (stuck thread task place later here step).elim

/-- With the mutex free no task function is held up. -/
theorem LockedCode.Releases.enabled_of_free
    (releases : locked.Releases)
    (free : execution.memory.locked = false)
    (steps : locked.code.Steps (execution.pool.pc thread)) :
    ∃ later, execution.Step locked.code thread later := by
  obtain ⟨task, place, later, memory, memory', here, step⟩ := steps
  cases step with
  | outside guarded step =>
      exact ⟨_, .compute task place later _ here (.outside _ step)⟩
  | lock data step =>
      refine ⟨_, .compute task place later
        ⟨true, execution.memory.data⟩ here ?_⟩
      have memoryIs :
          execution.memory = ⟨false, execution.memory.data⟩ := by
        rw [← free]
      rw [memoryIs]
      exact .lock _ step
  | inside isLocked step =>
      exact releases.enabled here (locked.inside_keeps step).1
  | unlock isLocked data step =>
      exact releases.enabled here (locked.unlock_gives step).1

/-- Where an execution is stuck its pool is. -/
theorem step_of_pool_step
    (releases : locked.Releases)
    (free : execution.memory.locked = false)
    {later : State config Client Func Arg Local}
    (step : ThreadPool.Step locked.code.behaviour
      execution.pool thread later) :
    ∃ later, execution.Step locked.code thread later :=
  step.execution_or_steps.elim id (releases.enabled_of_free free)

/-- Only workers are inside tasks, and they are busy. -/
theorem reachable_busy
    {behaviour : TaskBehaviour Func Arg Local}
    {state : State config Client Func Arg Local}
    (reachable :
      (system config Client behaviour).Reachable state)
    {task : Func × Job Arg}
    {place : Local}
    (here : state.pc thread = .running task place) :
    thread ≠ .destroyer ∧ state.pc thread ≠ .idle := by
  obtain ⟨index, rfl⟩ :=
    (reachable_core reachable).worker_of_tasked (congrArg Pc.tasked here)
  exact ⟨by rintro ⟨⟩, by rw [here]; rintro ⟨⟩⟩

/-- Where nobody but a destroyer can go on all accepted tasks are carried out. -/
theorem locked_atRest
    [Fintype Client]
    (terminates :
      ∀ func arg,
        locked.code.behaviour.Terminates (locked.enter func arg))
    (releases : locked.Releases)
    (reachable :
      (executions config Client locked.code ⟨false, data⟩).Reachable
        execution)
    (alive : execution.pool.pc .destroyer = .destroying .start)
    (stuck :
      ∀ thread later,
        thread ≠ .destroyer →
        execution.pool.pc thread ≠ .idle →
        ¬ execution.Step locked.code thread later) :
    AtRest execution.pool ∧ execution.memory.locked = false := by
  have poolReachable := Execution.pool_reachable reachable
  have free : execution.memory.locked = false := by
    refine free_of_stuck releases reachable ?_
    intro thread task place later here
    obtain ⟨isNot, busy⟩ := reachable_busy poolReachable here
    exact stuck thread later isNot busy
  refine ⟨?_, free⟩
  refine reachable_atRest terminates locked.code.submitsNothing
    poolReachable alive ?_
  intro thread later isNot busy step
  obtain ⟨later, step⟩ := step_of_pool_step releases free step
  exact stuck thread later isNot busy step

/-- At rest the tasks that have been called are the acknowledged ones. -/
theorem AtRest.called_perm
    [Fintype Client]
    {behaviour : TaskBehaviour Func Arg Local}
    {state : State config Client Func Arg Local}
    (rest : AtRest state)
    (reachable :
      (system config Client behaviour).Reachable state) :
    state.shared.history.called.Perm
      (state.shared.history.acknowledged.filterMap
        state.shared.history.task) := by
  have executes := executingAccount_sound.balanced reachable
  have nobody : tally Place.executing state.place = 0 :=
    Finset.sum_eq_zero (fun thread _ =>
      (Place.empty_of_not_holding
        ((reachable_core reachable).not_holding rest.asleep thread)).2)
  simp only [executingAccount, nobody, add_zero, State.record,
    Shared.record] at executes
  have ids :
      (state.shared.history.called.map taskId).Perm
        state.shared.history.acknowledged :=
    (Multiset.coe_eq_coe.mp executes).trans rest.carriedOut
  have tasks := ids.filterMap state.shared.history.task
  rw [filterMap_task_called reachable (List.Subset.refl _)] at tasks
  exact tasks

/--
At rest the data is what the acknowledged tasks have made of it, with each
critical section as one step.
-/
theorem AtRest.locked_serially
    [Fintype Client]
    [Inhabited Local]
    (rest : AtRest execution.pool)
    (reachable :
      (executions config Client locked.code ⟨false, data⟩).Reachable
        execution)
    (independent :
      ∀ task task',
        (locked.atomic.program task).Independent
          (locked.atomic.program task')) :
    Program.Serially
      ((execution.pool.shared.history.acknowledged.filterMap
        execution.pool.shared.history.task).map locked.atomic.program)
      data execution.memory.data := by
  have poolReachable := Execution.pool_reachable reachable
  have outside :
      ∀ thread, (execution.pool.pc thread).tasked = none :=
    fun thread =>
      Place.not_tasked_of_not_holding
        ((reachable_core poolReachable).not_holding rest.asleep thread)
  obtain ⟨coarse, reached, condenses⟩ := reachable_condenses reachable
  obtain rfl := condenses.eq_of_free (condenses.free_of_outside outside)
  obtain ⟨first, rfl, run⟩ := reached
  have apart :
      (execution.pool.shared.history.called.map
        locked.atomic.program).Pairwise Program.Independent := by
    rw [List.pairwise_map]
    exact List.pairwise_of_forall independent
  have serially :=
    executions_serially (by exact .start rfl)
      (fun thread => by cases thread <;> rfl) run outside
      (List.nil_append _).symm apart
  exact serially.perm ((rest.called_perm poolReachable).map _) apart

/-- What becomes of a pool whose tasks share data under a mutex. -/
structure Execution.Responsive
    (code : TaskCode Func Arg Local (Guarded Data))
    (execution : Execution config Client Func Arg Local (Guarded Data)) :
    Prop where
  runsOut :
    ∀ run : Nat → Execution config Client Func Arg Local (Guarded Data),
      run 0 = execution →
      (∀ time, (run time).Next code (run (time + 1))) →
      ∀ settled,
        ∃ time,
          settled ≤ time ∧
            ¬ Proceeds code.behaviour (run time).pool (run (time + 1)).pool
  rests :
    execution.pool.pc .destroyer = .destroying .start →
    (∀ thread later,
      thread ≠ .destroyer →
      execution.pool.pc thread ≠ .idle →
      ¬ execution.Step code thread later) →
    AtRest execution.pool ∧ execution.memory.locked = false
  frees :
    (∀ thread later,
      execution.pool.pc thread ≠ .idle →
      ¬ execution.Step code thread later) →
    execution.pool.Freed

/--
Every call returns when the tasks share data under a mutex: apart from new
calls and spurious wake-ups a run has only finitely many steps, and where they
end the mutex is free, all calls have returned and all accepted tasks are
carried out, or, if somebody destroys the pool, it has been freed.
-/
theorem lockedTasks_return
    [Fintype Client]
    (terminates :
      ∀ func arg,
        locked.code.behaviour.Terminates (locked.enter func arg))
    (releases : locked.Releases)
    (reachable :
      (executions config Client locked.code ⟨false, data⟩).Reachable
        execution) :
    execution.Responsive locked.code where
  runsOut := by
    intro run first steps settled
    refine reachable_disturbed terminates locked.code.submitsNothing ?_
      (fun time => (steps time).pool_next) settled
    rw [first]
    exact Execution.pool_reachable reachable
  rests :=
    locked_atRest terminates releases reachable
  frees := by
    intro stuck
    have poolReachable := Execution.pool_reachable reachable
    have free : execution.memory.locked = false := by
      refine free_of_stuck releases reachable ?_
      intro thread task place later here
      exact stuck thread later (reachable_busy poolReachable here).2
    refine reachable_freed terminates poolReachable ?_
    rintro later ⟨thread, busy, step⟩
    obtain ⟨later, step⟩ := step_of_pool_step releases free step
    exact stuck thread later busy step

end

/-- Whoever sleeps on `not_empty` takes no step of the queue. -/
theorem not_queue_step_of_asleep
    {Owner Func Arg : Type}
    [DecidableEq Owner]
    {state later : Scheduler.State Owner Func Arg}
    {owner : Owner}
    (asleep : state.pc owner = .popWait .asleep) :
    ¬ Scheduler.Step state owner later := by
  intro step
  cases step with
  | popEmpty kind locked
  | popSleeps kind locked
  | popUnlinked kind node record queue targets locked stored signals
  | popFault kind locked =>
      rw [asleep] at locked
      cases locked with
      | resume awake ends =>
          exact awake rfl
  | pushRefused func arg node locked
  | pushSleeps func arg node locked
  | pushLinked func arg node heap queue targets locked signals
  | pushFault func arg node locked =>
      rw [asleep] at locked
      cases locked
  | alloc func arg priority node submitTime here fresh
  | allocFailed func arg priority here
  | pushFreed node record here stored
  | pushFreeFault node here missing
  | popTaken kind node removal record here stored
  | popTakeFault kind node removal here missing
  | shutdown here =>
      rw [asleep] at here
      contradiction

/-- Nor does a worker take another one. -/
theorem LocalStep.not_asleep
    {Owner Func Arg Local : Type}
    {behaviour : TaskBehaviour Func Arg Local}
    {owner : Owner}
    {numThreads : Nat}
    {shared shared' : Shared Owner Func Arg}
    {place place' : Place Func Arg Local}
    (here : place.pc = .popping)
    (asleep : place.call = .popWait .asleep) :
    ¬ LocalStep behaviour owner numThreads
      shared place shared' place' := by
  intro step
  cases step with
  | worker step
  | destroy step =>
      cases step <;> contradiction
  | submit step =>
      cases step with
      | callNull call caller arg priority may
      | call call caller func arg priority may =>
          cases caller <;> contradiction
      | _ =>
          simp at here
  | wait step =>
      cases step with
      | call call caller may =>
          cases caller <;> contradiction
      | _ =>
          simp at here

/-- A worker asleep on the empty queue cannot go on. -/
theorem Execution.Step.not_asleep
    {config : Config}
    {Client Func Arg Local Memory : Type}
    [DecidableEq Client]
    {code : TaskCode Func Arg Local Memory}
    {execution later : Execution config Client Func Arg Local Memory}
    {thread : Thread config.numThreads Client}
    (here : execution.pool.pc thread = .popping)
    (asleep : execution.pool.queue.pc thread = .popWait .asleep) :
    ¬ execution.Step code thread later := by
  intro step
  cases step with
  | compute task place later memory' running step =>
      rw [here] at running
      contradiction
  | other step =>
      cases step with
      | queue step =>
          exact not_queue_step_of_asleep asleep step
      | own step =>
          exact LocalStep.not_asleep here asleep step
      | broadcast elsewhere
      | join next elsewhere inRange ended
      | destroyQueue heap elsewhere frees
      | destroyQueueFault elsewhere fails =>
          rw [here] at elsewhere
          contradiction

/-- Task functions all of whose steps count something down terminate. -/
theorem TaskCode.terminates
    {Func Arg Local Memory : Type}
    (code : TaskCode Func Arg Local Memory)
    (left : Local → Nat)
    (decreases :
      ∀ {place memory later memory'},
        code.step place memory later memory' →
        left later < left place)
    (goesOn :
      ∀ place,
        code.returns place ∨
          ∃ memory later memory', code.step place memory later memory')
    (place : Local) :
    code.behaviour.Terminates place := by
  induction steps : left place using Nat.strong_induction_on
    generalizing place with
  | _ steps inductionHypothesis =>
      refine .intro place ?_ id ?_
      · rcases goesOn place with returns | ⟨memory, later, memory', step⟩
        · exact ⟨.finish, returns⟩
        · exact ⟨.compute later, memory, memory', step⟩
      · rintro later (⟨memory, memory', step⟩ | ⟨_, _, _, _, submits, _⟩)
        · exact inductionHypothesis _ (steps ▸ decreases step) later rfl
        · exact submits.elim

/-- What is left of a task that adds under the mutex. -/
def AddingPlace.left : AddingPlace → Nat
  | .start _ => 3
  | .holding _ => 2
  | .added => 1
  | .done => 0

/-- It terminates. -/
theorem lockedAdding_terminates
    (func arg : Nat) :
    lockedAdding.code.behaviour.Terminates
      (lockedAdding.enter func arg) := by
  refine lockedAdding.code.terminates AddingPlace.left ?_ ?_ _
  · intro place memory later memory' step
    cases step with
    | outside guarded step =>
        exact step.elim
    | lock data step =>
        obtain ⟨amount, rfl, rfl⟩ := step
        exact Nat.lt_succ_self 2
    | inside isLocked step =>
        obtain ⟨amount, rfl, rfl, rfl⟩ := step
        exact Nat.lt_succ_self 1
    | unlock isLocked data step =>
        obtain ⟨rfl, rfl⟩ := step
        exact Nat.lt_succ_self 0
  · intro place
    cases place with
    | start amount =>
        exact Or.inr ⟨_, _, _, .lock 0 ⟨amount, rfl, rfl⟩⟩
    | holding amount =>
        exact Or.inr ⟨⟨true, 0⟩, _, _, .inside true ⟨amount, rfl, rfl, rfl⟩⟩
    | added =>
        exact Or.inr ⟨⟨true, 0⟩, _, _, .unlock true 0 ⟨rfl, rfl⟩⟩
    | done =>
        exact Or.inl rfl

/-- It gives the mutex back. -/
theorem lockedAdding_releases :
    lockedAdding.Releases := by
  intro place data holds
  cases place with
  | holding amount =>
      exact Or.inl ⟨_, _, amount, rfl, rfl, rfl⟩
  | added =>
      exact Or.inr ⟨_, rfl, rfl⟩
  | start amount
  | done =>
      exact Bool.noConfusion holds

/-- A pool in which one such task holds the mutex and another one waits for it. -/
theorem lockedTasks_return_adding :
    ∃ execution :
        Execution pairConfig Unit Nat Nat AddingPlace (Guarded Nat),
      (executions pairConfig Unit lockedAdding.code
          ⟨false, 5⟩).Reachable execution ∧
        execution.pool.pc (.worker 0) = .running (7, ⟨0, 8⟩) (.holding 8) ∧
        execution.pool.pc (.worker 1) = .running (7, ⟨1, 9⟩) (.start 9) ∧
        execution.memory.locked = true ∧
        execution.Responsive lockedAdding.code := by
  have start :
      (executions pairConfig Unit lockedAdding.code
        ⟨false, 5⟩).Reachable _ :=
    .start rfl
  have first :=
    run_submits start.stay (State.not_freed rfl) () 7 8 rfl rfl rfl 0 rfl
      rfl
  have second :=
    run_submits first (State.not_freed rfl) () 7 9 rfl rfl rfl 1 rfl rfl
  have called :=
    run_calls second (State.not_freed rfl) 0 rfl rfl rfl rfl rfl
  have both :=
    run_calls called (State.not_freed rfl) 1 rfl rfl rfl rfl rfl
  have locked :=
    run_computes both (State.not_freed rfl) 0 rfl
      (.step .refl (.lock 5 ⟨8, rfl, rfl⟩))
  have reachable := start.run locked
  exact ⟨_, reachable, rfl, rfl, rfl,
    lockedTasks_return lockedAdding_terminates lockedAdding_releases
      reachable⟩

end SThread.ThreadPool
