import SThread.ThreadPool.Create
import SThread.ThreadPool.Shutdown

namespace SThread.ThreadPool

open SThread.Library
open SThread.Scheduler

/-!
# A pool nobody has used

While a pool is being made its queue is empty and its workers can only wait for
a first task.  Once it is shut down they have a bounded way out of their loops,
whatever the tasks of the program do.
-/

section Places

variable
    {Func Arg Local : Type}

/-- A worker that has not got a task. -/
def Place.Vacant
    (place : Place Func Arg Local) : Prop :=
  (place.pc = .loop ∨ place.pc = .popping ∨ place.pc = .exited) ∧
    place.call.held = []

/-- No wake-up gives a worker a task. -/
theorem Place.vacant_stable :
    Place.Stable
      (fun place : Place Func Arg Local => place.Vacant) where
  notEmpty := by
    intro pc wake
    rfl
  notFull := by
    intro pc func arg node wake
    rfl
  waitCond := by
    intro call completed since caller wake
    simp [Place.Vacant]

/-- A worker without a task has no task to finish. -/
theorem Place.Vacant.onCourse
    {place : Place Func Arg Local}
    (vacant : place.Vacant)
    (behaviour : TaskBehaviour Func Arg Local) :
    place.pc.OnCourse behaviour := by
  rcases vacant.1 with here | here | here <;>
    rw [here] <;>
    trivial

/-- A worker without a task calls nothing but `task_queue_pop`. -/
theorem Place.Vacant.pushTask
    {place : Place Func Arg Local}
    (vacant : place.Vacant)
    (agrees : place.Agrees) :
    place.call.pushTask = none := by
  obtain ⟨pc, call⟩ := place
  rcases vacant.1 with rfl | rfl | rfl
  · exact congrArg Scheduler.Pc.pushTask agrees
  · exact Scheduler.Pc.pushTask_of_inPop agrees
  · exact congrArg Scheduler.Pc.pushTask agrees

/-- In particular it does not shut the queue down. -/
theorem Place.Vacant.notClosing
    {place : Place Func Arg Local}
    (vacant : place.Vacant)
    (agrees : place.Agrees) :
    place.call ≠ .shutdownEnter := by
  obtain ⟨pc, call⟩ := place
  rintro rfl
  rcases vacant.1 with rfl | rfl | rfl
  · contradiction
  · exact Bool.noConfusion agrees
  · contradiction

/-- Outside the queue a worker without a task only enters and leaves its loop. -/
theorem Place.Vacant.local
    {Owner : Type}
    {behaviour : TaskBehaviour Func Arg Local}
    {thread : Owner}
    {numThreads : Nat}
    {shared shared' : Shared Owner Func Arg}
    {place place' : Place Func Arg Local}
    (vacant : place.Vacant)
    (step :
      LocalStep behaviour thread numThreads
        shared place shared' place') :
    place'.Vacant := by
  obtain ⟨inLoop, noTask⟩ := vacant
  cases step with
  | worker step =>
      cases step with
      | pop =>
          exact ⟨Or.inr (Or.inl rfl), rfl⟩
      | popFailed
      | terminated =>
          exact ⟨Or.inr (Or.inr rfl), rfl⟩
      | taken removal goesOn =>
          exact (List.cons_ne_nil _ _ noTask).elim
      | _ =>
          simp at inLoop
  | submit step =>
      cases step with
      | callNull call caller
      | call call caller =>
          cases caller <;> simp [Caller.place] at inLoop
      | _ =>
          simp at inLoop
  | wait step =>
      cases step with
      | call call caller =>
          cases caller <;> simp [Caller.place] at inLoop
      | _ =>
          simp at inLoop
  | destroy step =>
      cases step <;> simp at inLoop

/-- In an empty queue a worker without a task finds none. -/
theorem Place.Vacant.effect
    {queue : TaskQueue}
    {index : Nat}
    {pc : Pc Func Arg Local}
    {call call' : Scheduler.Pc Func (Job Arg)}
    {linked removed : List (Func × Job Arg)}
    (vacant : (Place.mk pc call).Vacant)
    (agrees : (Place.mk pc call).Agrees)
    (empty : queue.count = 0)
    (effect : Effect queue index call call' linked removed) :
    (Place.mk pc call').Vacant := by
  have noPush := vacant.pushTask agrees
  obtain ⟨inLoop, noTask⟩ := vacant
  cases effect with
  | alloc func arg priority node
  | allocFailed func arg priority =>
      contradiction
  | pushRefused before func arg node pushes closed
  | pushSleeps before func arg node pushes opened bounded
  | pushLinked before func arg pushes opened =>
      rw [noPush] at pushes
      contradiction
  | popUnlinked before kind node func arg pops nonempty =>
      exact (nonempty empty).elim
  | popTaken kind node removal =>
      exact (List.cons_ne_nil _ _ noTask).elim
  | _ =>
      exact ⟨inLoop, rfl⟩

/-- A thread that is not pushing links no task. -/
theorem linked_of_pushTask
    {queue : TaskQueue}
    {index : Nat}
    {call call' : Scheduler.Pc Func (Job Arg)}
    {linked removed : List (Func × Job Arg)}
    (effect : Effect queue index call call' linked removed)
    (noPush : call.pushTask = none) :
    linked = [] := by
  cases effect with
  | pushLinked before func arg pushes opened =>
      rw [noPush] at pushes
      contradiction
  | _ =>
      rfl

end Places

section Pools

variable
    {config : Config}
    {Client Func Arg Local : Type}

/-- No task has been submitted to a pool. -/
structure State.Vacant
    (state : State config Client Func Arg Local) : Prop where
  linked :
    state.queue.linked = []
  workers :
    ∀ index, (state.place (.worker index)).Vacant

/-- A new pool. -/
theorem State.Vacant.initial :
    (State.initial config Client Func Arg Local).Vacant :=
  ⟨rfl, fun _ => ⟨Or.inl rfl, rfl⟩⟩

variable
    [DecidableEq Client]
    {behaviour : TaskBehaviour Func Arg Local}
    {state later : State config Client Func Arg Local}

/-- The queue of such a pool is empty. -/
theorem State.Vacant.count
    (vacant : state.Vacant)
    (core : Core state) :
    state.queue.queue.count = 0 := by
  have lengths := core.length_linked
  rw [vacant.linked, List.length_nil] at lengths
  omega

/-- The destroyer links no task. -/
theorem Core.destroyer_pushTask
    (core : Core state) :
    (state.queue.pc .destroyer).pushTask = none := by
  have agrees := core.agrees .destroyer
  obtain ⟨stage, here⟩ := core.stage
  simp only [State.place, here] at agrees
  cases stage with
  | shuttingDown =>
      rcases agrees with call | call
      · exact congrArg Scheduler.Pc.pushTask call
      · exact congrArg Scheduler.Pc.pushTask call
  | _ =>
      exact congrArg Scheduler.Pc.pushTask agrees

/-- Only clients link tasks. -/
theorem State.Vacant.linked_step
    (vacant : state.Vacant)
    (core : Core state)
    {thread : Thread config.numThreads Client}
    (step : Step behaviour state thread later)
    (noClient : ∀ name, thread ≠ .client name) :
    later.queue.linked = [] := by
  have noPush : (state.queue.pc thread).pushTask = none := by
    cases thread with
    | worker index =>
        exact (vacant.workers index).pushTask (core.agrees _)
    | client name =>
        exact (noClient name rfl).elim
    | destroyer =>
        exact core.destroyer_pushTask
  cases step with
  | queue step =>
      obtain ⟨channel, nodes, refines⟩ := core.refines
      obtain ⟨linked, removed, linkedIs, _, effect⟩ :=
        step.effect refines
      rw [linkedIs, vacant.linked, linked_of_pushTask effect noPush]
      rfl
  | _ =>
      exact vacant.linked

/-- A worker's own step leaves it without a task. -/
theorem State.Vacant.worker_step
    (vacant : state.Vacant)
    (core : Core state)
    {index : Fin config.numThreads}
    (step : Step behaviour state (.worker index) later) :
    (later.place (.worker index)).Vacant := by
  have before := vacant.workers index
  cases step with
  | queue step =>
      obtain ⟨channel, nodes, refines⟩ := core.refines
      obtain ⟨_, _, _, _, effect⟩ := step.effect refines
      exact before.effect (core.agrees _) (vacant.count core) effect
  | own step =>
      simpa [State.place, State.put] using before.local step
  | broadcast here
  | join next here inRange ended
  | destroyQueue heap here frees
  | destroyQueueFault here fails =>
      simp [State.place, Place.Vacant, here] at before

/-- As long as no client takes a step nothing is submitted. -/
theorem State.Vacant.step
    (vacant : state.Vacant)
    (core : Core state)
    {thread : Thread config.numThreads Client}
    (step : Step behaviour state thread later)
    (noClient : ∀ name, thread ≠ .client name) :
    later.Vacant := by
  refine ⟨vacant.linked_step core step noClient, ?_⟩
  intro index
  by_cases actor : .worker index = thread
  · subst actor
    exact vacant.worker_step core step
  · have same := step.observe_other Place.vacant_stable actor
    exact same.mpr (vacant.workers index)

/-- No worker shuts the queue down. -/
theorem State.Vacant.shutdown_eq
    (vacant : state.Vacant)
    (core : Core state)
    {index : Fin config.numThreads}
    (step : Step behaviour state (.worker index) later) :
    later.queue.queue.shutdown = state.queue.queue.shutdown := by
  have notClosing := (vacant.workers index).notClosing (core.agrees _)
  have role := core.role (.worker index)
  cases step with
  | queue step =>
      rw [Bool.eq_iff_iff]
      exact step.shutdown_iff.trans (or_iff_left notClosing)
  | destroyQueue heap here frees =>
      rw [here] at role
      exact Role.noConfusion role
  | _ =>
      rfl

/-- Nor does a spurious wake-up submit anything. -/
theorem State.Vacant.spurious
    (vacant : state.Vacant)
    {thread : Thread config.numThreads Client}
    {call : Scheduler.Pc Func (Job Arg)}
    (wakes : (state.queue.pc thread).spurious = some call) :
    State.Vacant {
      state with
        queue := state.queue.setPc thread call } := by
  refine ⟨vacant.linked, ?_⟩
  intro index
  have same :=
    observe_queueSpurious Place.vacant_stable wakes (.worker index)
  exact same.mpr (vacant.workers index)

/-- After shutdown a worker without a task has a step until it leaves its loop. -/
theorem State.Vacant.worker_enabled
    (vacant : state.Vacant)
    (core : Core state)
    (behaviour : TaskBehaviour Func Arg Local)
    (closed : state.queue.queue.shutdown = true)
    {index : Fin config.numThreads}
    (inLoop : state.pc (.worker index) ≠ .exited) :
    ∃ next, Step behaviour state (.worker index) next := by
  have place := vacant.workers index
  refine core.worker_enabled (core.awake closed _)
    (place.onCourse behaviour) inLoop ?_
  intro locking
  simp [Place.Vacant, State.place, locking] at place

/-- And every step of it brings it closer to that. -/
theorem State.Vacant.measure_lt
    (vacant : state.Vacant)
    (core : Core state)
    (closed : state.queue.queue.shutdown = true)
    {index : Fin config.numThreads}
    (step : Step behaviour state (.worker index) later) :
    later.measure behaviour < state.measure behaviour :=
  step.measure_lt core closed
    ((vacant.workers index).onCourse behaviour)

end Pools

end SThread.ThreadPool
