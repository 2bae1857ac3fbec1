import Mathlib.Data.Fintype.Sum
import SThread.Library.CondVar
import SThread.Scheduler.System

namespace SThread.ThreadPool

open SThread.Library
open SThread.Scheduler

/-!
# The thread pool

A pool that `thread_pool_create` has returned, its workers, any number of
client threads, and one thread that calls `thread_pool_destroy`.

A step is one atomic operation on the fields of the pool, one operation on
`wait_lock` or `wait_cond`, one step of a task function, or one step of the
task queue.  Calls and returns are merged with the operation next to them.  The
two loads in the condition of `thread_pool_wait` are steps of their own and
come in either order.

Most steps only concern the shared fields and the place of the thread that
takes them; they are given function by function, and `Step` lifts them to the
whole pool.

The counters `completed_tasks` and `submitted_tasks` only go up and are natural
numbers here; neither passes the number of calls of `thread_pool_submit`, so
they are the machine words of the source as long as fewer than `2 ^ 64` tasks
have been submitted.  `active_tasks` goes down as well as up and is a machine
word.
-/

/-- The numbers `thread_pool_create` has settled on. -/
structure Config where
  numThreads : Nat
  queueCapacity : Nat
  numThreads_pos : 0 < numThreads
  numThreads_fits : numThreads < 2 ^ 64
  queueCapacity_pos : 0 < queueCapacity

instance (config : Config) : NeZero config.numThreads :=
  ⟨config.numThreads_pos.ne'⟩

/-- The threads that use a pool. -/
inductive Thread (numThreads : Nat) (Client : Type) where
  | worker (index : Fin numThreads)
  | client (name : Client)
  | destroyer
  deriving DecidableEq

namespace Thread

/-- A thread is a worker, a client, or the destroyer. -/
def parties
    (numThreads : Nat)
    (Client : Type) :
    Fin numThreads ⊕ Client ⊕ Unit ≃ Thread numThreads Client where
  toFun
    | .inl index => .worker index
    | .inr (.inl name) => .client name
    | .inr (.inr _) => .destroyer
  invFun
    | .worker index => .inl index
    | .client name => .inr (.inl name)
    | .destroyer => .inr (.inr ())
  left_inv := by
    rintro (index | name | _) <;> rfl
  right_inv := by
    rintro (index | name | _) <;> rfl

instance
    {numThreads : Nat}
    {Client : Type}
    [Fintype Client] :
    Fintype (Thread numThreads Client) :=
  Fintype.ofEquiv _ (parties numThreads Client)

end Thread

/-- An argument on its way through the queue, with the number of its submission. -/
structure Job (Arg : Type) where
  id : Nat
  arg : Arg
  deriving DecidableEq, Repr

/-- `pool_state_t`. -/
inductive PoolState where
  | running
  | shutdown
  | terminated
  deriving DecidableEq, Repr

/-- What a task function does next; `none` stands for a null function. -/
inductive TaskAction (Func Arg Local : Type) where
  | compute (later : Local)
  | submit
      (func : Option Func)
      (arg : Arg)
      (priority : TaskPriority)
  | wait
  | finish

/--
The code of the task functions: where a call starts, what it may do next, and
how it goes on when a call of `thread_pool_submit` or `thread_pool_wait`
returns.
-/
structure TaskBehaviour (Func Arg Local : Type) where
  enter : Func → Arg → Local
  acts : Local → TaskAction Func Arg Local → Prop
  resume : Local → Int → Local

/-- Who called `thread_pool_submit` or `thread_pool_wait`. -/
inductive Caller (Func Arg Local : Type) where
  | client
  | task
      (task : Func × Job Arg)
      (place : Local)
  deriving DecidableEq, Repr

/-- One call of `thread_pool_submit`. -/
structure Submission (Func Arg : Type) where
  id : Nat
  func : Func
  arg : Arg
  priority : TaskPriority
  deriving DecidableEq, Repr

/-- The task a submission hands to the queue. -/
def Submission.task
    {Func Arg : Type}
    (submission : Submission Func Arg) : Func × Job Arg :=
  (submission.func, ⟨submission.id, submission.arg⟩)

/-- Where a thread is in `thread_pool_submit`. -/
inductive SubmitStage where
  | checking
  | pushing
  | done (ret : Int)
  deriving DecidableEq, Repr

/-- Where a thread is in `thread_pool_wait`, with the values it has loaded. -/
inductive WaitStage where
  | locking
  | testing (completed submitted : Option Nat)
  | sleeping (completed : Nat) (wake : Wake)
  | unlocking (completed submitted : Nat)
  | done
  deriving DecidableEq, Repr

/-- Where the destroyer is in `thread_pool_destroy`. -/
inductive DestroyStage where
  | start
  | ignored
  | shuttingDown
  | joining (next : Nat)
  | freeingWorkers
  | destroyingCond
  | destroyingMutex
  | destroyingQueue
  | freeingPool
  | freed
  deriving DecidableEq, Repr

/-- The program points of all threads; `since` is ghost state of a wait. -/
inductive Pc (Func Arg Local : Type) where
  | idle
  | loop
  | popping
  | activating (task : Func × Job Arg)
  | entering (task : Func × Job Arg)
  | running (task : Func × Job Arg) (place : Local)
  | deactivating (task : Func × Job Arg)
  | completing (task : Func × Job Arg)
  | locking
  | broadcasting
  | unlocking
  | exited
  | submitting
      (stage : SubmitStage)
      (submission : Submission Func Arg)
      (caller : Caller Func Arg Local)
  | waiting
      (stage : WaitStage)
      (since : List Nat)
      (caller : Caller Func Arg Local)
  | destroying (stage : DestroyStage)
  deriving DecidableEq, Repr

namespace Caller

/-- Where a caller is while it runs code of its own. -/
def place
    {Func Arg Local : Type} :
    Caller Func Arg Local → Pc Func Arg Local
  | .client => .idle
  | .task item place => .running item place

/-- Where a caller goes on when its call returns. -/
def resume
    {Func Arg Local : Type}
    (behaviour : TaskBehaviour Func Arg Local)
    (ret : Int) :
    Caller Func Arg Local → Pc Func Arg Local
  | .client => .idle
  | .task item place => .running item (behaviour.resume place ret)

/-- A client may call anything at any time, a task what its code says. -/
def May
    {Func Arg Local : Type}
    (behaviour : TaskBehaviour Func Arg Local)
    (action : TaskAction Func Arg Local) :
    Caller Func Arg Local → Prop
  | .client => True
  | .task _ place => behaviour.acts place action

end Caller

namespace Pc

/-- Asleep on `wait_cond`. -/
def asleepWait
    {Func Arg Local : Type} :
    Pc Func Arg Local → Bool
  | .waiting (.sleeping _ .asleep) _ _ => true
  | _ => false

/-- Woken by a broadcast on `wait_cond`, not yet back in the lock. -/
def notifiedWait
    {Func Arg Local : Type} :
    Pc Func Arg Local → Bool
  | .waiting (.sleeping _ .notified) _ _ => true
  | _ => false

/-- A thread asleep on `wait_cond` once it is notified. -/
def wakeWait
    {Func Arg Local : Type} :
    Pc Func Arg Local → Pc Func Arg Local
  | .waiting (.sleeping completed .asleep) since caller =>
      .waiting (.sleeping completed .notified) since caller
  | pc => pc

/-- The shape of a thread asleep in `thread_pool_wait`. -/
theorem asleepWait_iff
    {Func Arg Local : Type}
    {pc : Pc Func Arg Local} :
    pc.asleepWait = true ↔
      ∃ completed since caller,
        pc = .waiting (.sleeping completed .asleep) since caller := by
  constructor
  · intro asleep
    cases pc with
    | waiting stage since caller =>
        cases stage with
        | sleeping completed wake =>
            cases wake <;> simp [asleepWait] at asleep ⊢
        | _ =>
            simp [asleepWait] at asleep
    | _ =>
        simp [asleepWait] at asleep
  · rintro ⟨completed, since, caller, rfl⟩
    rfl

end Pc

/-- The condition variable `pool->wait_cond`. -/
def waitCond
    (Func Arg Local : Type) : CondVar (Pc Func Arg Local) where
  asleep := Pc.asleepWait
  notified := Pc.notifiedWait
  wake := Pc.wakeWait
  wake_not_asleep := by
    intro pc asleep
    rw [Pc.asleepWait_iff] at asleep
    obtain ⟨completed, since, caller, rfl⟩ := asleep
    rfl
  wake_notified := by
    intro pc asleep
    rw [Pc.asleepWait_iff] at asleep
    obtain ⟨completed, since, caller, rfl⟩ := asleep
    rfl
  asleep_not_notified := by
    intro pc asleep
    rw [Pc.asleepWait_iff] at asleep
    obtain ⟨completed, since, caller, rfl⟩ := asleep
    rfl

/-- What has happened in the pool so far, in order; all of it is ghost state. -/
structure History (Func Arg : Type) where
  submissions : List (Func × Arg)
  refused : List Nat
  counted : List Nat
  acknowledged : List Nat
  called : List (Func × Job Arg)
  finished : List Nat
  completed : List Nat

/-- Nothing has happened yet. -/
def History.empty
    (Func Arg : Type) : History Func Arg where
  submissions := []
  refused := []
  counted := []
  acknowledged := []
  called := []
  finished := []
  completed := []

/-- The fields of `thread_pool_t` besides the queue, and the ghost history. -/
structure Shared (Owner Func Arg : Type) where
  poolState : PoolState
  activeTasks : UInt64
  completedTasks : Nat
  submittedTasks : Nat
  waitLock : Option Owner
  history : History Func Arg

/-- Where a thread is in the functions of the pool and of its queue. -/
structure Place (Func Arg Local : Type) where
  pc : Pc Func Arg Local
  call : Scheduler.Pc Func (Job Arg)

section Functions

variable
    {Owner Func Arg Local : Type}
    (behaviour : TaskBehaviour Func Arg Local)
    (thread : Owner)

/-- The steps of `worker_thread`, but for the broadcast on `wait_cond`. -/
inductive WorkerStep
    (shared : Shared Owner Func Arg) :
    Place Func Arg Local →
    Shared Owner Func Arg → Place Func Arg Local → Prop where
  | pop :
      WorkerStep
        shared ⟨.loop, .idle⟩
        shared ⟨.popping, (Request.pop .pop true).start⟩
  | popFailed :
      WorkerStep
        shared ⟨.popping, .popDone .pop none⟩
        shared ⟨.exited, .idle⟩
  | terminated
      (removal : Removal Func (Job Arg))
      (stops : shared.poolState = .terminated) :
      WorkerStep
        shared ⟨.popping, .popDone .pop (some removal)⟩
        shared ⟨.exited, .idle⟩
  | taken
      (removal : Removal Func (Job Arg))
      (goesOn : shared.poolState ≠ .terminated) :
      WorkerStep
        shared ⟨.popping, .popDone .pop (some removal)⟩
        shared ⟨.activating removal.task, .idle⟩
  | activate
      (call : Scheduler.Pc Func (Job Arg))
      (task : Func × Job Arg) :
      WorkerStep
        shared ⟨.activating task, call⟩
        { shared with activeTasks := shared.activeTasks + 1 }
        ⟨.entering task, call⟩
  | enter
      (call : Scheduler.Pc Func (Job Arg))
      (task : Func × Job Arg) :
      WorkerStep
        shared ⟨.entering task, call⟩
        { shared with
            history := {
              shared.history with
                called := shared.history.called ++ [task] } }
        ⟨.running task (behaviour.enter task.1 task.2.arg), call⟩
  | compute
      (call : Scheduler.Pc Func (Job Arg))
      (task : Func × Job Arg)
      (place later : Local)
      (acts : behaviour.acts place (.compute later)) :
      WorkerStep
        shared ⟨.running task place, call⟩
        shared ⟨.running task later, call⟩
  | finish
      (call : Scheduler.Pc Func (Job Arg))
      (task : Func × Job Arg)
      (place : Local)
      (acts : behaviour.acts place .finish) :
      WorkerStep
        shared ⟨.running task place, call⟩
        { shared with
            history := {
              shared.history with
                finished := shared.history.finished ++ [task.2.id] } }
        ⟨.deactivating task, call⟩
  | deactivate
      (call : Scheduler.Pc Func (Job Arg))
      (task : Func × Job Arg) :
      WorkerStep
        shared ⟨.deactivating task, call⟩
        { shared with activeTasks := shared.activeTasks - 1 }
        ⟨.completing task, call⟩
  | complete
      (call : Scheduler.Pc Func (Job Arg))
      (task : Func × Job Arg) :
      WorkerStep
        shared ⟨.completing task, call⟩
        { shared with
            completedTasks := shared.completedTasks + 1
            history := {
              shared.history with
                completed := shared.history.completed ++ [task.2.id] } }
        ⟨.locking, call⟩
  | lock
      (call : Scheduler.Pc Func (Job Arg))
      (free : shared.waitLock = none) :
      WorkerStep
        shared ⟨.locking, call⟩
        { shared with waitLock := some thread }
        ⟨.broadcasting, call⟩
  | unlock
      (call : Scheduler.Pc Func (Job Arg)) :
      WorkerStep
        shared ⟨.unlocking, call⟩
        { shared with waitLock := none }
        ⟨.loop, call⟩

/-- The steps of `thread_pool_submit`. -/
inductive SubmitStep
    (shared : Shared Owner Func Arg) :
    Place Func Arg Local →
    Shared Owner Func Arg → Place Func Arg Local → Prop where
  | callNull
      (call : Scheduler.Pc Func (Job Arg))
      (caller : Caller Func Arg Local)
      (arg : Arg)
      (priority : TaskPriority)
      (may : caller.May behaviour (.submit none arg priority)) :
      SubmitStep
        shared ⟨caller.place, call⟩
        shared ⟨caller.resume behaviour (-1), call⟩
  | call
      (call : Scheduler.Pc Func (Job Arg))
      (caller : Caller Func Arg Local)
      (func : Func)
      (arg : Arg)
      (priority : TaskPriority)
      (may : caller.May behaviour (.submit (some func) arg priority)) :
      SubmitStep
        shared ⟨caller.place, call⟩
        { shared with
            history := {
              shared.history with
                submissions :=
                  shared.history.submissions ++ [(func, arg)] } }
        ⟨.submitting .checking
          ⟨shared.history.submissions.length, func, arg, priority⟩
          caller, call⟩
  | checkFailed
      (call : Scheduler.Pc Func (Job Arg))
      (submission : Submission Func Arg)
      (caller : Caller Func Arg Local)
      (stopped : shared.poolState ≠ .running) :
      SubmitStep
        shared ⟨.submitting .checking submission caller, call⟩
        { shared with
            history := {
              shared.history with
                refused := shared.history.refused ++ [submission.id] } }
        ⟨.submitting (.done (-2)) submission caller, call⟩
  | checkPassed
      (submission : Submission Func Arg)
      (caller : Caller Func Arg Local)
      (running : shared.poolState = .running) :
      SubmitStep
        shared ⟨.submitting .checking submission caller, .idle⟩
        shared
        ⟨.submitting .pushing submission caller,
          (Request.push (some submission.func)
            ⟨submission.id, submission.arg⟩
            submission.priority).start⟩
  | pushFailed
      (submission : Submission Func Arg)
      (caller : Caller Func Arg Local)
      (ret : Int)
      (failed : ret ≠ 0) :
      SubmitStep
        shared
        ⟨.submitting .pushing submission caller, .pushDone ret⟩
        { shared with
            history := {
              shared.history with
                refused := shared.history.refused ++ [submission.id] } }
        ⟨.submitting (.done ret) submission caller, .idle⟩
  | counted
      (submission : Submission Func Arg)
      (caller : Caller Func Arg Local) :
      SubmitStep
        shared
        ⟨.submitting .pushing submission caller, .pushDone 0⟩
        { shared with
            submittedTasks := shared.submittedTasks + 1
            history := {
              shared.history with
                counted := shared.history.counted ++ [submission.id] } }
        ⟨.submitting (.done 0) submission caller, .idle⟩
  | failed
      (call : Scheduler.Pc Func (Job Arg))
      (submission : Submission Func Arg)
      (caller : Caller Func Arg Local)
      (ret : Int)
      (failed : ret ≠ 0) :
      SubmitStep
        shared ⟨.submitting (.done ret) submission caller, call⟩
        shared ⟨caller.resume behaviour ret, call⟩
  | acknowledged
      (call : Scheduler.Pc Func (Job Arg))
      (submission : Submission Func Arg)
      (caller : Caller Func Arg Local) :
      SubmitStep
        shared ⟨.submitting (.done 0) submission caller, call⟩
        { shared with
            history := {
              shared.history with
                acknowledged :=
                  shared.history.acknowledged ++ [submission.id] } }
        ⟨caller.resume behaviour 0, call⟩

/-- The steps of `thread_pool_wait`. -/
inductive WaitStep
    (shared : Shared Owner Func Arg) :
    Place Func Arg Local →
    Shared Owner Func Arg → Place Func Arg Local → Prop where
  | call
      (call : Scheduler.Pc Func (Job Arg))
      (caller : Caller Func Arg Local)
      (may : caller.May behaviour .wait) :
      WaitStep
        shared ⟨caller.place, call⟩
        shared
        ⟨.waiting .locking shared.history.acknowledged caller, call⟩
  | lock
      (call : Scheduler.Pc Func (Job Arg))
      (since : List Nat)
      (caller : Caller Func Arg Local)
      (free : shared.waitLock = none) :
      WaitStep
        shared ⟨.waiting .locking since caller, call⟩
        { shared with waitLock := some thread }
        ⟨.waiting (.testing none none) since caller, call⟩
  | loadCompleted
      (call : Scheduler.Pc Func (Job Arg))
      (submitted : Option Nat)
      (since : List Nat)
      (caller : Caller Func Arg Local) :
      WaitStep
        shared ⟨.waiting (.testing none submitted) since caller, call⟩
        shared
        ⟨.waiting (.testing (some shared.completedTasks) submitted)
          since caller, call⟩
  | loadSubmitted
      (call : Scheduler.Pc Func (Job Arg))
      (completed : Option Nat)
      (since : List Nat)
      (caller : Caller Func Arg Local) :
      WaitStep
        shared ⟨.waiting (.testing completed none) since caller, call⟩
        shared
        ⟨.waiting (.testing completed (some shared.submittedTasks))
          since caller, call⟩
  | sleep
      (call : Scheduler.Pc Func (Job Arg))
      (completed submitted : Nat)
      (since : List Nat)
      (caller : Caller Func Arg Local)
      (behind : completed < submitted) :
      WaitStep
        shared
        ⟨.waiting (.testing (some completed) (some submitted))
          since caller, call⟩
        { shared with waitLock := none }
        ⟨.waiting (.sleeping completed .asleep) since caller, call⟩
  | wake
      (call : Scheduler.Pc Func (Job Arg))
      (completed : Nat)
      (wake : Wake)
      (since : List Nat)
      (caller : Caller Func Arg Local)
      (awake : wake ≠ .asleep)
      (free : shared.waitLock = none) :
      WaitStep
        shared ⟨.waiting (.sleeping completed wake) since caller, call⟩
        { shared with waitLock := some thread }
        ⟨.waiting (.testing none none) since caller, call⟩
  | pass
      (call : Scheduler.Pc Func (Job Arg))
      (completed submitted : Nat)
      (since : List Nat)
      (caller : Caller Func Arg Local)
      (reached : ¬ completed < submitted) :
      WaitStep
        shared
        ⟨.waiting (.testing (some completed) (some submitted))
          since caller, call⟩
        shared
        ⟨.waiting (.unlocking completed submitted) since caller, call⟩
  | unlock
      (call : Scheduler.Pc Func (Job Arg))
      (completed submitted : Nat)
      (since : List Nat)
      (caller : Caller Func Arg Local) :
      WaitStep
        shared
        ⟨.waiting (.unlocking completed submitted) since caller, call⟩
        { shared with waitLock := none }
        ⟨.waiting .done since caller, call⟩
  | ret
      (call : Scheduler.Pc Func (Job Arg))
      (since : List Nat)
      (caller : Caller Func Arg Local) :
      WaitStep
        shared ⟨.waiting .done since caller, call⟩
        shared ⟨caller.resume behaviour 0, call⟩

/-- The stages of `thread_pool_destroy` that only release something. -/
def DestroyStage.released : DestroyStage → Option DestroyStage
  | .freeingWorkers => some .destroyingCond
  | .destroyingCond => some .destroyingMutex
  | .destroyingMutex => some .destroyingQueue
  | .freeingPool => some .freed
  | _ => none

/--
The steps of `thread_pool_destroy`, but for `pthread_join` and
`task_queue_destroy`.
-/
inductive DestroyStep
    (numThreads : Nat)
    (shared : Shared Owner Func Arg) :
    Place Func Arg Local →
    Shared Owner Func Arg → Place Func Arg Local → Prop where
  | begin
      (running : shared.poolState = .running) :
      DestroyStep numThreads
        shared ⟨.destroying .start, .idle⟩
        { shared with poolState := .shutdown }
        ⟨.destroying .shuttingDown, Request.shutdown.start⟩
  | ignored
      (stopped : shared.poolState ≠ .running) :
      DestroyStep numThreads
        shared ⟨.destroying .start, .idle⟩
        shared ⟨.destroying .ignored, .idle⟩
  | shutDown :
      DestroyStep numThreads
        shared ⟨.destroying .shuttingDown, .shutdownDone⟩
        shared ⟨.destroying (.joining 0), .idle⟩
  | terminate
      (call : Scheduler.Pc Func (Job Arg))
      (next : Nat)
      (allJoined : ¬ next < numThreads) :
      DestroyStep numThreads
        shared ⟨.destroying (.joining next), call⟩
        { shared with poolState := .terminated }
        ⟨.destroying .freeingWorkers, call⟩
  | release
      (call : Scheduler.Pc Func (Job Arg))
      (stage next : DestroyStage)
      (releases : stage.released = some next) :
      DestroyStep numThreads
        shared ⟨.destroying stage, call⟩
        shared ⟨.destroying next, call⟩

/-- The steps that concern one thread and the shared fields only. -/
inductive LocalStep
    (numThreads : Nat)
    (shared : Shared Owner Func Arg)
    (place : Place Func Arg Local)
    (shared' : Shared Owner Func Arg)
    (place' : Place Func Arg Local) : Prop where
  | worker
      (step : WorkerStep behaviour thread shared place shared' place')
  | submit
      (step : SubmitStep behaviour shared place shared' place')
  | wait
      (step : WaitStep behaviour thread shared place shared' place')
  | destroy
      (step : DestroyStep numThreads shared place shared' place')

end Functions

/-- A pool: its queue, its other fields, and its threads. -/
structure State
    (config : Config)
    (Client Func Arg Local : Type) where
  queue :
    Scheduler.State (Thread config.numThreads Client) Func (Job Arg)
  shared : Shared (Thread config.numThreads Client) Func Arg
  pc : Thread config.numThreads Client → Pc Func Arg Local

namespace State

/-- Where a thread of a new pool starts. -/
def start
    {numThreads : Nat}
    {Client Func Arg Local : Type} :
    Thread numThreads Client → Pc Func Arg Local
  | .worker _ => .loop
  | .client _ => .idle
  | .destroyer => .destroying .start

/-- The pool when `thread_pool_create` returns it. -/
def initial
    (config : Config)
    (Client Func Arg Local : Type) :
    State config Client Func Arg Local where
  queue :=
    Scheduler.State.initial _ Func (Job Arg) config.queueCapacity
  shared := {
    poolState := .running
    activeTasks := 0
    completedTasks := 0
    submittedTasks := 0
    waitLock := none
    history := .empty Func Arg }
  pc := start

variable
    {config : Config}
    {Client Func Arg Local : Type}

/-- The place of a thread. -/
def place
    (state : State config Client Func Arg Local)
    (thread : Thread config.numThreads Client) :
    Place Func Arg Local :=
  ⟨state.pc thread, state.queue.pc thread⟩

/-- Let one thread change the shared fields and move to another place. -/
def put
    [DecidableEq Client]
    (state : State config Client Func Arg Local)
    (thread : Thread config.numThreads Client)
    (shared : Shared (Thread config.numThreads Client) Func Arg)
    (place : Place Func Arg Local) :
    State config Client Func Arg Local where
  queue := state.queue.setPc thread place.call
  shared := shared
  pc := Function.update state.pc thread place.pc

/-- The pool has been freed. -/
def Freed
    (state : State config Client Func Arg Local) : Prop :=
  state.pc .destroyer = .destroying .freed

instance
    [DecidableEq Func]
    [DecidableEq Arg]
    [DecidableEq Local]
    (state : State config Client Func Arg Local) :
    Decidable state.Freed :=
  inferInstanceAs (Decidable (_ = _))

end State

section Steps

variable
    {config : Config}
    {Client Func Arg Local : Type}
    [DecidableEq Client]
    (behaviour : TaskBehaviour Func Arg Local)

/-- A step of one thread. -/
inductive Step
    (state : State config Client Func Arg Local)
    (thread : Thread config.numThreads Client) :
    State config Client Func Arg Local → Prop where
  | queue
      {queue : Scheduler.State _ Func (Job Arg)}
      (step : Scheduler.Step state.queue thread queue) :
      Step state thread { state with queue := queue }
  | own
      {shared : Shared (Thread config.numThreads Client) Func Arg}
      {place : Place Func Arg Local}
      (step :
        LocalStep behaviour thread config.numThreads
          state.shared (state.place thread) shared place) :
      Step state thread (state.put thread shared place)
  | broadcast
      (here : state.pc thread = .broadcasting) :
      Step state thread {
        state with
          pc :=
            (waitCond Func Arg Local).broadcast
              (Function.update state.pc thread .unlocking) }
  | join
      (next : Nat)
      (here : state.pc thread = .destroying (.joining next))
      (inRange : next < config.numThreads)
      (ended : state.pc (.worker ⟨next, inRange⟩) = .exited) :
      Step state thread {
        state with
          pc :=
            Function.update state.pc thread
              (.destroying (.joining (next + 1))) }
  | destroyQueue
      (heap : Heap Func (Job Arg))
      (here : state.pc thread = .destroying .destroyingQueue)
      (frees :
        freeNodes state.queue.queue.count
          state.queue.heap state.queue.queue.head = some heap) :
      Step state thread {
        state with
          queue := {
            state.queue with
              heap := heap
              queue := emptied state.queue.queue }
          pc :=
            Function.update state.pc thread
              (.destroying .freeingPool) }
  | destroyQueueFault
      (here : state.pc thread = .destroying .destroyingQueue)
      (fails :
        freeNodes state.queue.queue.count
          state.queue.heap state.queue.queue.head = none) :
      Step state thread {
        state with
          queue := state.queue.setPc thread .fault }

/-- A step of the system; nothing is modelled after the pool is freed. -/
inductive Next
    (state : State config Client Func Arg Local) :
    State config Client Func Arg Local → Prop where
  | step
      (thread : Thread config.numThreads Client)
      {later : State config Client Func Arg Local}
      (allocated : ¬ state.Freed)
      (step : Step behaviour state thread later) :
      Next state later
  | queueSpurious
      (thread : Thread config.numThreads Client)
      {call : Scheduler.Pc Func (Job Arg)}
      (allocated : ¬ state.Freed)
      (wakes : (state.queue.pc thread).spurious = some call) :
      Next state {
        state with
          queue := state.queue.setPc thread call }
  | waitSpurious
      (thread : Thread config.numThreads Client)
      (completed : Nat)
      (since : List Nat)
      (caller : Caller Func Arg Local)
      (allocated : ¬ state.Freed)
      (here :
        state.pc thread =
          .waiting (.sleeping completed .asleep) since caller) :
      Next state {
        state with
          pc :=
            Function.update state.pc thread
              (.waiting (.sleeping completed .spurious)
                since caller) }

end Steps

/-- All runs of a pool whose tasks behave in the given way. -/
def system
    (config : Config)
    (Client : Type)
    {Func Arg Local : Type}
    [DecidableEq Client]
    (behaviour : TaskBehaviour Func Arg Local) :
    System (State config Client Func Arg Local) where
  init state :=
    state = State.initial config Client Func Arg Local
  next :=
    Next behaviour

/-- One worker and room for one task. -/
def smallConfig : Config where
  numThreads := 1
  queueCapacity := 1
  numThreads_pos := by decide
  numThreads_fits := by decide
  queueCapacity_pos := by decide

/-- Two workers and room for two tasks. -/
def pairConfig : Config where
  numThreads := 2
  queueCapacity := 2
  numThreads_pos := by decide
  numThreads_fits := by decide
  queueCapacity_pos := by decide

/-- Tasks that return at once. -/
def idleTasks : TaskBehaviour Nat Nat Unit where
  enter _ _ := ()
  acts _ action := action = .finish
  resume _ _ := ()

end SThread.ThreadPool
