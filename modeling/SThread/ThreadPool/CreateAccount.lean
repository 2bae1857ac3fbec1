import SThread.ThreadPool.Create

namespace SThread.ThreadPool

open SThread.Library
open SThread.Scheduler

/-!
# The resources of a pool in the making

At every stage of `thread_pool_create` and `thread_pool_destroy` it is known
which resources are held, which workers have been started and which have been
joined, and the next step is always about something that is in the right state
for it.
-/

/-- What has been released, last first, when `thread_pool_destroy` is at a stage. -/
def DestroyStage.releasedSoFar : DestroyStage → List Resource
  | .destroyingCond =>
      [.workersArray]
  | .destroyingMutex =>
      [.waitCond, .workersArray]
  | .destroyingQueue =>
      [.waitLock, .waitCond, .workersArray]
  | .freeingPool =>
      [.queueLock, .notEmpty, .notFull, .waitLock, .waitCond, .workersArray]
  | .freed =>
      [.poolMemory, .queueLock, .notEmpty, .notFull,
        .waitLock, .waitCond, .workersArray]
  | _ =>
      []

/-- How many workers have been joined when `thread_pool_destroy` is at a stage. -/
def DestroyStage.joinedSoFar
    (numThreads : Nat) : DestroyStage → Nat
  | .start => 0
  | .ignored => 0
  | .shuttingDown => 0
  | .joining next => next
  | _ => numThreads

/-- The stages that follow each other in `thread_pool_destroy`. -/
inductive DestroyStage.Follows
    (numThreads : Nat) :
    DestroyStage → DestroyStage → Prop where
  | begin :
      Follows numThreads .start .shuttingDown
  | ignored :
      Follows numThreads .start .ignored
  | shutDown :
      Follows numThreads .shuttingDown (.joining 0)
  | join
      (next : Nat)
      (inRange : next < numThreads) :
      Follows numThreads (.joining next) (.joining (next + 1))
  | terminate
      (next : Nat)
      (all : ¬ next < numThreads) :
      Follows numThreads (.joining next) .freeingWorkers
  | release
      (stage next : DestroyStage)
      (releases : stage.released = some next) :
      Follows numThreads stage next
  | destroyQueue :
      Follows numThreads .destroyingQueue .freeingPool

namespace Resources

variable
    {numThreads : Nat}

/-- Some resources have been acquired, and nothing else has happened. -/
structure Acquired
    (held : List Resource)
    (resources : Resources numThreads) : Prop where
  status :
    ∀ resource,
      resources.status resource =
        if resource ∈ held then .held else .untouched
  worker :
    ∀ index, resources.worker index = .unstarted
  proper :
    resources.misused = false

/-- All resources are acquired, and some of it has been taken back. -/
structure Spent
    (started joined : Nat)
    (released : List Resource)
    (resources : Resources numThreads) : Prop where
  status :
    ∀ resource,
      resources.status resource =
        if resource ∈ released then .released else .held
  worker :
    ∀ index,
      resources.worker index =
        if index.val < joined then .joined
        else if index.val < started then .running
        else .unstarted
  proper :
    resources.misused = false

/-- The resources are as they should be when a destroy is at a stage. -/
def Matches
    (started : Nat)
    (stage : DestroyStage)
    (resources : Resources numThreads) : Prop :=
  resources.Spent started (stage.joinedSoFar numThreads)
    stage.releasedSoFar

/-- What is left to release, with no worker running. -/
structure Left
    (rest : List Resource)
    (resources : Resources numThreads) : Prop where
  nodup :
    rest.Nodup
  status :
    ∀ resource, resources.status resource = .held ↔ resource ∈ rest
  worker :
    ∀ index, resources.worker index ≠ .running
  proper :
    resources.misused = false

/-- One more resource is acquired. -/
theorem Acquired.acquire
    {held : List Resource}
    {resources : Resources numThreads}
    (acquired : resources.Acquired held)
    (resource : Resource)
    (isNew : resource ∉ held) :
    (resources.acquire resource).Acquired (resource :: held) := by
  refine ⟨?_, acquired.worker, ?_⟩
  · intro other
    by_cases same : other = resource
    · simp [Resources.acquire, same]
    · simp [Resources.acquire, same, acquired.status other]
  · simp [Resources.acquire, acquired.proper, acquired.status, isNew]

/-- What has been acquired is what is left to release. -/
theorem Acquired.left
    {held : List Resource}
    {resources : Resources numThreads}
    (acquired : resources.Acquired held)
    (nodup : held.Nodup) :
    resources.Left held := by
  refine ⟨nodup, ?_, ?_, acquired.proper⟩
  · intro resource
    rw [acquired.status]
    split <;> simp_all
  · intro index
    simp [acquired.worker]

/-- When everything is acquired the workers can be started. -/
theorem Acquired.spent
    {resources : Resources numThreads}
    (acquired : resources.Acquired spawnUnwinding) :
    resources.Spent 0 0 [] := by
  refine ⟨?_, ?_, acquired.proper⟩
  · intro resource
    cases resource <;> simp [acquired.status, spawnUnwinding]
  · intro index
    simp [acquired.worker]

/-- One more worker is started. -/
theorem Spent.start
    {next : Nat}
    {released : List Resource}
    {resources : Resources numThreads}
    (spent : resources.Spent next 0 released)
    (inRange : next < numThreads) :
    (resources.start ⟨next, inRange⟩).Spent (next + 1) 0 released := by
  refine ⟨spent.status, ?_, ?_⟩
  · intro index
    rcases eq_or_ne index ⟨next, inRange⟩ with rfl | other
    · simp [Resources.start]
    · have different : index.val ≠ next := by
        intro equal
        exact other (Fin.ext equal)
      have bound : index.val < next + 1 ↔ index.val < next := by
        omega
      simp [Resources.start, other, spent.worker, bound]
  · simp [Resources.start, spent.proper, spent.worker]

/-- One more worker is joined. -/
theorem Spent.join
    {started next : Nat}
    {released : List Resource}
    {resources : Resources numThreads}
    (spent : resources.Spent started next released)
    (inRange : next < numThreads)
    (isStarted : next < started) :
    (resources.join ⟨next, inRange⟩).Spent started (next + 1)
      released := by
  refine ⟨spent.status, ?_, ?_⟩
  · intro index
    rcases eq_or_ne index ⟨next, inRange⟩ with rfl | other
    · simp [Resources.join]
    · have different : index.val ≠ next := by
        intro equal
        exact other (Fin.ext equal)
      have bound : index.val < next + 1 ↔ index.val < next := by
        omega
      simp only [Resources.join, Function.update_of_ne other,
        spent.worker, bound]
  · simp [Resources.join, spent.proper, spent.worker, isStarted]

/-- One more resource is taken back. -/
theorem Spent.release
    {started joined : Nat}
    {released : List Resource}
    {resources : Resources numThreads}
    (spent : resources.Spent started joined released)
    (resource : Resource)
    (held : resource ∉ released) :
    (resources.release resource).Spent started joined
      (resource :: released) := by
  refine ⟨?_, spent.worker, ?_⟩
  · intro other
    rcases eq_or_ne other resource with rfl | different
    · simp [Resources.release]
    · simp [Resources.release, different, spent.status]
  · simp [Resources.release, spent.proper, spent.status, held]

/-- Once the started workers are joined, everything is left to release. -/
theorem Spent.left
    {started : Nat}
    {resources : Resources numThreads}
    (spent : resources.Spent started started []) :
    resources.Left spawnUnwinding := by
  refine ⟨by decide, ?_, ?_, spent.proper⟩
  · intro resource
    cases resource <;> simp [spent.status, spawnUnwinding]
  · intro index
    rw [spent.worker]
    split <;> simp

/-- One more resource is released. -/
theorem Left.release
    {resource : Resource}
    {rest : List Resource}
    {resources : Resources numThreads}
    (left : resources.Left (resource :: rest)) :
    (resources.release resource).Left rest := by
  obtain ⟨isLast, nodup⟩ := List.nodup_cons.mp left.nodup
  have held := (left.status resource).mpr List.mem_cons_self
  refine ⟨nodup, ?_, left.worker, ?_⟩
  · intro other
    by_cases same : other = resource
    · subst same
      simp [Resources.release, isLast]
    · simp [Resources.release, same, left.status other]
  · simp [Resources.release, left.proper, held]

/-- A stage of a destroy does to the resources what the next stage expects. -/
theorem Matches.follows
    {started : Nat}
    {stage next : DestroyStage}
    {resources : Resources numThreads}
    (consistent : resources.Matches started stage)
    (follows : stage.Follows numThreads next)
    (isStarted :
      ∀ index, stage = .joining index → index < numThreads →
        index < started) :
    (stage.effect resources).Matches started next := by
  cases follows with
  | begin
  | ignored
  | shutDown =>
      exact consistent
  | join index inRange =>
      rw [DestroyStage.effect, dif_pos inRange]
      exact Spent.join consistent inRange (isStarted index rfl inRange)
  | terminate index all =>
      rw [DestroyStage.effect, dif_neg all]
      refine ⟨consistent.status, ?_, consistent.proper⟩
      intro worker
      have joined : worker.val < index := by
        omega
      rw [consistent.worker]
      simp [DestroyStage.joinedSoFar, joined]
  | release stage next releases =>
      have held :
          ∀ resource, resource ∉ stage.releasedSoFar →
            (resources.release resource).Spent started
              (stage.joinedSoFar numThreads)
              (resource :: stage.releasedSoFar) :=
        fun resource => Spent.release consistent resource
      cases stage <;>
        simp only [DestroyStage.released, Option.some.injEq,
          reduceCtorEq] at releases <;>
        subst releases <;>
        exact held _ (by decide)
  | destroyQueue =>
      have notFull := Spent.release consistent .notFull (by decide)
      have notEmpty := notFull.release .notEmpty (by decide)
      exact notEmpty.release .queueLock (by decide)

end Resources

end SThread.ThreadPool
