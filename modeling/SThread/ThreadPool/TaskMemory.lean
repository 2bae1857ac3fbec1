import SThread.Library.Interleaving
import SThread.ThreadPool.ExactlyOnce

namespace SThread.ThreadPool

open SThread.Library
open SThread.Scheduler

/-!
# The memory the tasks work on

The tasks of a pool compute on a memory they share; they neither submit nor
wait.  A step of a task function changes its own place and the memory, and all
other steps of the pool leave the memory alone.
-/

/-- The code of tasks that compute on a shared memory. -/
structure TaskCode (Func Arg Local Memory : Type) where
  enter : Func → Arg → Local
  step : Local → Memory → Local → Memory → Prop
  returns : Local → Prop

namespace TaskCode

variable
    {Func Arg Local Memory : Type}

/-- One call of a task function as a program. -/
def program
    (code : TaskCode Func Arg Local Memory)
    (task : Func × Job Arg) : Program Local Memory where
  entry := code.enter task.1 task.2.arg
  step := code.step
  returns := code.returns

/-- What the pool sees of the tasks. -/
def behaviour
    (code : TaskCode Func Arg Local Memory) :
    TaskBehaviour Func Arg Local where
  enter := code.enter
  acts place
    | .compute later =>
        ∃ memory memory', code.step place memory later memory'
    | .finish => code.returns place
    | .submit _ _ _ => False
    | .wait => False
  resume place _ := place

/-- What is left when the steps of the task functions are left out. -/
def control
    (code : TaskCode Func Arg Local Memory) :
    TaskBehaviour Func Arg Local where
  enter := code.enter
  acts place action := action = .finish ∧ code.returns place
  resume place _ := place

/-- Leaving steps out adds none. -/
theorem acts_of_control
    (code : TaskCode Func Arg Local Memory)
    (place : Local)
    (action : TaskAction Func Arg Local)
    (acts : code.control.acts place action) :
    code.behaviour.acts place action := by
  obtain ⟨rfl, returns⟩ := acts
  exact returns

end TaskCode

section Fewer

variable
    {Owner Func Arg Local : Type}
    {behaviour : TaskBehaviour Func Arg Local}
    {acts : Local → TaskAction Func Arg Local → Prop}
    {thread : Owner}
    {numThreads : Nat}
    {shared shared' : Shared Owner Func Arg}
    {place place' : Place Func Arg Local}

/-- Tasks that may do less make fewer calls. -/
theorem Caller.May.mono
    {caller : Caller Func Arg Local}
    {action : TaskAction Func Arg Local}
    (fewer :
      ∀ place action,
        acts place action → behaviour.acts place action)
    (may : caller.May { behaviour with acts := acts } action) :
    caller.May behaviour action := by
  cases caller with
  | client =>
      trivial
  | task item place =>
      exact fewer place action may

/-- Tasks that may do less make fewer steps. -/
theorem LocalStep.mono
    (fewer :
      ∀ place action,
        acts place action → behaviour.acts place action)
    (step :
      LocalStep { behaviour with acts := acts } thread numThreads
        shared place shared' place') :
    LocalStep behaviour thread numThreads
      shared place shared' place' := by
  cases step with
  | worker step =>
      refine .worker ?_
      cases step with
      | compute call task place later may =>
          exact .compute call task place later (fewer _ _ may)
      | finish call task place may =>
          exact .finish call task place (fewer _ _ may)
      | enter call task =>
          exact .enter call task
      | _ =>
          constructor <;> assumption
  | submit step =>
      refine .submit ?_
      cases step with
      | callNull call caller arg priority may =>
          exact .callNull call caller arg priority (may.mono fewer)
      | call call caller func arg priority may =>
          exact .call call caller func arg priority (may.mono fewer)
      | failed call submission caller ret failed =>
          exact .failed call submission caller ret failed
      | acknowledged call submission caller =>
          exact .acknowledged call submission caller
      | _ =>
          constructor <;> assumption
  | wait step =>
      refine .wait ?_
      cases step with
      | call call caller may =>
          exact .call call caller (may.mono fewer)
      | ret call since caller =>
          exact .ret call since caller
      | wake call completed wake since caller awake free =>
          exact .wake call completed wake since caller awake free
      | _ =>
          constructor <;> assumption
  | destroy step =>
      exact .destroy step

/-- And so does the whole pool. -/
theorem Next.mono
    {config : Config}
    {Client : Type}
    [DecidableEq Client]
    {state later : State config Client Func Arg Local}
    (fewer :
      ∀ place action,
        acts place action → behaviour.acts place action)
    (next : Next { behaviour with acts := acts } state later) :
    Next behaviour state later := by
  cases next with
  | step thread allocated step =>
      refine .step thread allocated ?_
      cases step with
      | queue step =>
          exact .queue step
      | own step =>
          exact .own (step.mono fewer)
      | broadcast here =>
          exact .broadcast here
      | join next here inRange ended =>
          exact .join next here inRange ended
      | destroyQueue heap here frees =>
          exact .destroyQueue heap here frees
      | destroyQueueFault here fails =>
          exact .destroyQueueFault here fails
  | queueSpurious thread allocated wakes =>
      exact .queueSpurious thread allocated wakes
  | waitSpurious thread completed since caller allocated here =>
      exact .waitSpurious thread completed since caller allocated here

end Fewer

/-- A pool and the memory its tasks work on. -/
structure Execution
    (config : Config)
    (Client Func Arg Local Memory : Type) where
  pool : State config Client Func Arg Local
  memory : Memory

section Execution

variable
    {config : Config}
    {Client Func Arg Local Memory : Type}
    [DecidableEq Client]

/-- A step of a task function, or any other step of the pool. -/
inductive Execution.Next
    (code : TaskCode Func Arg Local Memory)
    (execution : Execution config Client Func Arg Local Memory) :
    Execution config Client Func Arg Local Memory → Prop where
  | compute
      (thread : Thread config.numThreads Client)
      (task : Func × Job Arg)
      (place later : Local)
      (memory' : Memory)
      (allocated : ¬ execution.pool.Freed)
      (here : execution.pool.pc thread = .running task place)
      (step : code.step place execution.memory later memory') :
      Execution.Next code execution {
        pool :=
          execution.pool.put thread execution.pool.shared
            ⟨.running task later, execution.pool.queue.pc thread⟩
        memory := memory' }
  | other
      {pool : State config Client Func Arg Local}
      (next : ThreadPool.Next code.control execution.pool pool) :
      Execution.Next code execution {
        execution with
          pool := pool }

/-- All runs of a pool together with the memory of its tasks. -/
def executions
    (config : Config)
    (Client : Type)
    [DecidableEq Client]
    (code : TaskCode Func Arg Local Memory)
    (memory : Memory) :
    System (Execution config Client Func Arg Local Memory) where
  init execution :=
    execution = ⟨State.initial config Client Func Arg Local, memory⟩
  next :=
    Execution.Next code

variable
    {code : TaskCode Func Arg Local Memory}
    {memory : Memory}
    {execution later : Execution config Client Func Arg Local Memory}

/-- The pool takes a step of its own. -/
theorem Execution.Next.pool_next
    (next : execution.Next code later) :
    ThreadPool.Next code.behaviour execution.pool later.pool := by
  cases next with
  | compute thread task place later memory' allocated here step =>
      refine .step thread allocated (.own (.worker ?_))
      rw [State.place, here]
      exact .compute _ task place later ⟨_, _, step⟩
  | other next =>
      exact next.mono code.acts_of_control

/-- The pool of a run is a pool that runs such tasks. -/
theorem Execution.pool_run
    (run : (executions config Client code memory).Run execution later) :
    (system config Client code.behaviour).Run
      execution.pool later.pool := by
  induction run with
  | refl =>
      exact .refl
  | tail run next inductionHypothesis =>
      exact inductionHypothesis.tail next.pool_next

/-- And it is reachable. -/
theorem Execution.pool_reachable
    (reachable :
      (executions config Client code memory).Reachable execution) :
    (system config Client code.behaviour).Reachable execution.pool := by
  obtain ⟨first, rfl, run⟩ := reachable
  exact ⟨_, rfl, Execution.pool_run run⟩

end Execution

end SThread.ThreadPool
