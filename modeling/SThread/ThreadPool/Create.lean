import SThread.ThreadPool.Core

namespace SThread.ThreadPool

open SThread.Library
open SThread.Scheduler

/-!
# The life of a pool

`thread_pool_create` acquires one resource after the other and then starts the
workers; any of these steps may fail.  Each failure has an unwinding list of its
own.  Once `pthread_create` has failed, workers that have been started are still
running, and they are made to leave their loops first.

After a successful return the pool is used, and destroyed, as the steps of the
pool say.  `resources` is ghost state: what has been acquired and released, which
workers have been started and joined, and whether anything was released without
being held.
-/

/-- What `thread_pool_create` allocates and initialises. -/
inductive Resource where
  | poolMemory
  | queueLock
  | notEmpty
  | notFull
  | waitLock
  | waitCond
  | workersArray
  deriving DecidableEq, Repr

/-- What is acquired after a resource; the workers are started after the last one. -/
def Resource.next : Resource → Option Resource
  | .poolMemory => some .queueLock
  | .queueLock => some .notEmpty
  | .notEmpty => some .notFull
  | .notFull => some .waitLock
  | .waitLock => some .waitCond
  | .waitCond => some .workersArray
  | .workersArray => none

/--
What is released, in this order, when a resource cannot be acquired.  The inner
functions `task_queue_init` and `task_queue_destroy` are written out.
-/
def Resource.unwinding : Resource → List Resource
  | .poolMemory =>
      []
  | .queueLock =>
      [.poolMemory]
  | .notEmpty =>
      [.queueLock, .poolMemory]
  | .notFull =>
      [.notEmpty, .queueLock, .poolMemory]
  | .waitLock =>
      [.notFull, .notEmpty, .queueLock, .poolMemory]
  | .waitCond =>
      [.waitLock, .notFull, .notEmpty, .queueLock, .poolMemory]
  | .workersArray =>
      [.waitCond, .waitLock, .notFull, .notEmpty, .queueLock, .poolMemory]

/-- What is released when a worker cannot be started and the others are joined. -/
def spawnUnwinding : List Resource :=
  [.workersArray, .waitCond, .waitLock,
    .notFull, .notEmpty, .queueLock, .poolMemory]

/-- The history of a resource. -/
inductive ResourceStatus where
  | untouched
  | held
  | released
  deriving DecidableEq, Repr

/-- The history of a worker thread. -/
inductive WorkerStatus where
  | unstarted
  | running
  | joined
  deriving DecidableEq, Repr

/-- The histories of all resources and workers. -/
structure Resources (numThreads : Nat) where
  status : Resource → ResourceStatus
  worker : Fin numThreads → WorkerStatus
  misused : Bool

namespace Resources

variable
    {numThreads : Nat}

/-- Nothing has happened yet. -/
def fresh
    (numThreads : Nat) : Resources numThreads where
  status := fun _ => .untouched
  worker := fun _ => .unstarted
  misused := false

/-- Acquire a resource; only an untouched one may be. -/
def acquire
    (resource : Resource)
    (resources : Resources numThreads) : Resources numThreads :=
  { resources with
      status := Function.update resources.status resource .held
      misused :=
        resources.misused ||
          decide (resources.status resource ≠ .untouched) }

/-- Release a resource; only a held one may be. -/
def release
    (resource : Resource)
    (resources : Resources numThreads) : Resources numThreads :=
  { resources with
      status := Function.update resources.status resource .released
      misused :=
        resources.misused ||
          decide (resources.status resource ≠ .held) }

/-- Start a worker; only an unstarted one may be. -/
def start
    (index : Fin numThreads)
    (resources : Resources numThreads) : Resources numThreads :=
  { resources with
      worker := Function.update resources.worker index .running
      misused :=
        resources.misused ||
          decide (resources.worker index ≠ .unstarted) }

/-- Join a worker; only a running one may be. -/
def join
    (index : Fin numThreads)
    (resources : Resources numThreads) : Resources numThreads :=
  { resources with
      worker := Function.update resources.worker index .joined
      misused :=
        resources.misused ||
          decide (resources.worker index ≠ .running) }

end Resources

/-- What a stage of `thread_pool_destroy` does to the resources. -/
def DestroyStage.effect
    {numThreads : Nat} :
    DestroyStage → Resources numThreads → Resources numThreads
  | .joining next, resources =>
      if inRange : next < numThreads then
        resources.join ⟨next, inRange⟩
      else
        resources
  | .freeingWorkers, resources =>
      resources.release .workersArray
  | .destroyingCond, resources =>
      resources.release .waitCond
  | .destroyingMutex, resources =>
      resources.release .waitLock
  | .destroyingQueue, resources =>
      ((resources.release .notFull).release .notEmpty).release .queueLock
  | .freeingPool, resources =>
      resources.release .poolMemory
  | _, resources =>
      resources

/-- How far `thread_pool_create` has got. -/
inductive CreateStage where
  | acquiring (resource : Resource)
  | spawning (next : Nat)
  | stopping (started : Nat)
  | unwinding (rest : List Resource)
  | returned (pool : Bool)
  deriving DecidableEq, Repr

/-- The stage after the acquisition of a resource. -/
def CreateStage.after (resource : Resource) : CreateStage :=
  match resource.next with
  | some next => .acquiring next
  | none => .spawning 0

/-- The number of workers `thread_pool_create` settles on. -/
def settledThreads (numCores numThreads : UInt64) : Nat :=
  if numThreads = 0 then
    if numCores = 0 then 4 else numCores.toNat
  else
    numThreads.toNat

/-- The capacity `thread_pool_create` settles on. -/
def settledCapacity (queueCapacity : UInt64) : Nat :=
  if queueCapacity = 0 then 1024 else queueCapacity.toNat

/-- A machine word that is not zero is a positive number. -/
theorem toNat_pos
    {word : UInt64}
    (nonzero : word ≠ 0) :
    0 < word.toNat := by
  apply Nat.pos_of_ne_zero
  intro zero
  exact nonzero (UInt64.toNat_inj.mp zero)

/-- The numbers of a pool, from the arguments and the number of cores. -/
def createConfig
    (numCores numThreads queueCapacity : UInt64) : Config where
  numThreads := settledThreads numCores numThreads
  queueCapacity := settledCapacity queueCapacity
  numThreads_pos := by
    unfold settledThreads
    split
    · split
      · decide
      · exact toNat_pos (by assumption)
    · exact toNat_pos (by assumption)
  numThreads_fits := by
    unfold settledThreads
    split
    · split
      · decide
      · exact numCores.toNat_lt
    · exact numThreads.toNat_lt
  queueCapacity_pos := by
    unfold settledCapacity
    split
    · decide
    · exact toNat_pos (by assumption)

/-- A pool in the making or in use, and the ghost account of its resources. -/
structure Lifetime
    (config : Config)
    (Client Func Arg Local : Type) where
  stage : CreateStage
  failed : Bool
  pool : State config Client Func Arg Local
  resources : Resources config.numThreads

namespace Lifetime

variable
    {config : Config}
    {Client Func Arg Local : Type}

/-- The call of `thread_pool_create`. -/
def initial
    (config : Config)
    (Client Func Arg Local : Type) :
    Lifetime config Client Func Arg Local where
  stage := .acquiring .poolMemory
  failed := false
  pool := State.initial config Client Func Arg Local
  resources := .fresh config.numThreads

/-- How far `thread_pool_destroy`, or the code like it, has got. -/
def destroyStage
    (pool : State config Client Func Arg Local) : Option DestroyStage :=
  match pool.pc .destroyer with
  | .destroying stage => some stage
  | _ => none

/-- The resources after a step of the pool. -/
def track
    (before after : State config Client Func Arg Local)
    (resources : Resources config.numThreads) :
    Resources config.numThreads :=
  match destroyStage before with
  | none =>
      resources
  | some stage =>
      if destroyStage after = some stage then
        resources
      else
        stage.effect resources

/-- Let the pool take a step. -/
def step
    (state : Lifetime config Client Func Arg Local)
    (later : State config Client Func Arg Local) :
    Lifetime config Client Func Arg Local :=
  { state with
      pool := later
      resources := track state.pool later state.resources }

variable
    [DecidableEq Client]
    (behaviour : TaskBehaviour Func Arg Local)

/--
The steps of the thread in `thread_pool_create`.  While it stops the workers it
takes the steps of `thread_pool_destroy` that do the same, as far as the workers
that have been started.
-/
inductive CreatorStep
    (state : Lifetime config Client Func Arg Local) :
    Lifetime config Client Func Arg Local → Prop where
  | acquire
      (resource : Resource)
      (here : state.stage = .acquiring resource) :
      CreatorStep state {
        state with
          stage := .after resource
          resources := state.resources.acquire resource }
  | acquireFails
      (resource : Resource)
      (here : state.stage = .acquiring resource) :
      CreatorStep state {
        state with
          stage := .unwinding resource.unwinding
          failed := true }
  | spawn
      (next : Nat)
      (here : state.stage = .spawning next)
      (inRange : next < config.numThreads) :
      CreatorStep state {
        state with
          stage := .spawning (next + 1)
          resources := state.resources.start ⟨next, inRange⟩ }
  | spawnFails
      (next : Nat)
      (here : state.stage = .spawning next)
      (inRange : next < config.numThreads) :
      CreatorStep state {
        state with
          stage := .stopping next
          failed := true }
  | spawned
      (next : Nat)
      (here : state.stage = .spawning next)
      (all : ¬ next < config.numThreads) :
      CreatorStep state { state with stage := .returned true }
  -- The pool is still running, so the exchange in `thread_pool_destroy` has the
  -- effect of the plain store here.
  | stop
      (started : Nat)
      {later : State config Client Func Arg Local}
      (here : state.stage = .stopping started)
      (goesOn :
        destroyStage state.pool ≠ some (.joining started))
      (step : Step behaviour state.pool .destroyer later) :
      CreatorStep state (state.step later)
  | stopped
      (started : Nat)
      (here : state.stage = .stopping started)
      (allJoined :
        destroyStage state.pool = some (.joining started)) :
      CreatorStep state { state with stage := .unwinding spawnUnwinding }
  | release
      (resource : Resource)
      (rest : List Resource)
      (here : state.stage = .unwinding (resource :: rest)) :
      CreatorStep state {
        state with
          stage := .unwinding rest
          resources := state.resources.release resource }
  | unwound
      (here : state.stage = .unwinding []) :
      CreatorStep state { state with stage := .returned false }

/-- The steps of a pool: in the making only those of started workers. -/
inductive Next
    (state : Lifetime config Client Func Arg Local) :
    Lifetime config Client Func Arg Local → Prop where
  | creator
      {later : Lifetime config Client Func Arg Local}
      (step : CreatorStep behaviour state later) :
      Next state later
  | worker
      (index : Fin config.numThreads)
      {later : State config Client Func Arg Local}
      (making : state.stage ≠ .returned true)
      (running : state.resources.worker index = .running)
      (step : Step behaviour state.pool (.worker index) later) :
      Next state (state.step later)
  | workerSpurious
      (index : Fin config.numThreads)
      {call : Scheduler.Pc Func (Job Arg)}
      (making : state.stage ≠ .returned true)
      (running : state.resources.worker index = .running)
      (wakes :
        (state.pool.queue.pc (.worker index)).spurious = some call) :
      Next state {
        state with
          pool := {
            state.pool with
              queue := state.pool.queue.setPc (.worker index) call } }
  | use
      {later : State config Client Func Arg Local}
      (here : state.stage = .returned true)
      (next : ThreadPool.Next behaviour state.pool later) :
      Next state (state.step later)

end Lifetime

/-- All lives of a pool. -/
def lifetime
    (config : Config)
    (Client : Type)
    {Func Arg Local : Type}
    [DecidableEq Client]
    (behaviour : TaskBehaviour Func Arg Local) :
    System (Lifetime config Client Func Arg Local) where
  init state :=
    state = .initial config Client Func Arg Local
  next :=
    Lifetime.Next behaviour

end SThread.ThreadPool
