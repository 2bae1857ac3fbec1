import SThread.Scheduler.Fifo
import SThread.ThreadPool.Pool

namespace SThread.ThreadPool

open SThread.Library
open SThread.Scheduler

/-!
# The threads of a pool and its queue

What relates the two program counters of a thread, which program points each
party can be at, and how far `thread_pool_destroy` has got.  The queue of a
reachable pool is a reachable state of the queue by itself, so everything known
about the queue holds inside the pool.
-/

/-- The parts the threads of a pool play. -/
inductive Role where
  | worker
  | client
  | destroyer
  deriving DecidableEq, Repr

/-- The part of a thread. -/
def Thread.role
    {numThreads : Nat}
    {Client : Type} :
    Thread numThreads Client → Role
  | .worker _ => .worker
  | .client _ => .client
  | .destroyer => .destroyer

/-- Tasks are run by workers. -/
def Caller.role
    {Func Arg Local : Type} :
    Caller Func Arg Local → Role
  | .client => .client
  | .task _ _ => .worker

/-- Whose program point this is. -/
def Pc.role
    {Func Arg Local : Type} :
    Pc Func Arg Local → Role
  | .idle => .client
  | .submitting _ _ caller => caller.role
  | .waiting _ _ caller => caller.role
  | .destroying _ => .destroyer
  | _ => .worker

/-- A caller is where it is in its own part. -/
@[simp] theorem Caller.place_role
    {Func Arg Local : Type}
    (caller : Caller Func Arg Local) :
    caller.place.role = caller.role := by
  cases caller <;> rfl

/-- A caller goes on in its own part. -/
@[simp] theorem Caller.resume_role
    {Func Arg Local : Type}
    (behaviour : TaskBehaviour Func Arg Local)
    (ret : Int)
    (caller : Caller Func Arg Local) :
    (caller.resume behaviour ret).role = caller.role := by
  cases caller <;> rfl

/-- No caller has left the loop of its worker. -/
theorem Caller.place_ne_exited
    {Func Arg Local : Type}
    (caller : Caller Func Arg Local) :
    caller.place ≠ .exited := by
  cases caller <;> exact nofun

/-- No caller leaves the loop of its worker by returning. -/
theorem Caller.resume_ne_exited
    {Func Arg Local : Type}
    (behaviour : TaskBehaviour Func Arg Local)
    (ret : Int)
    (caller : Caller Func Arg Local) :
    caller.resume behaviour ret ≠ .exited := by
  cases caller <;> exact nofun

/-- The destroyer makes no calls of the other functions. -/
theorem Caller.role_ne_destroyer
    {Func Arg Local : Type}
    (caller : Caller Func Arg Local) :
    caller.role ≠ .destroyer := by
  cases caller <;> exact nofun

/-- The call of the queue a thread is in is the one its function makes there. -/
def Place.Agrees
    {Func Arg Local : Type}
    (place : Place Func Arg Local) : Prop :=
  match place.pc with
  | .popping => place.call.inPop = true
  | .submitting .pushing submission _ =>
      place.call.InPush submission.task
  | .destroying .shuttingDown =>
      place.call = .shutdownEnter ∨ place.call = .shutdownDone
  | _ => place.call = .idle

/-- Code of the caller's own makes no call of the queue. -/
theorem Place.agrees_place
    {Func Arg Local : Type}
    (caller : Caller Func Arg Local)
    (call : Scheduler.Pc Func (Job Arg)) :
    (Place.mk caller.place call).Agrees ↔ call = .idle := by
  cases caller <;> exact Iff.rfl

/-- The same after a return. -/
theorem Place.agrees_resume
    {Func Arg Local : Type}
    (behaviour : TaskBehaviour Func Arg Local)
    (ret : Int)
    (caller : Caller Func Arg Local)
    (call : Scheduler.Pc Func (Job Arg)) :
    (Place.mk (caller.resume behaviour ret) call).Agrees ↔
      call = .idle := by
  cases caller <;> exact Iff.rfl

/-- How a step outside the queue changes the call of its thread. -/
inductive CallMove
    {Func Arg : Type} :
    Scheduler.Pc Func Arg → Scheduler.Pc Func Arg → Prop where
  | stay (call : Scheduler.Pc Func Arg) :
      CallMove call call
  | start (request : Request Func Arg) :
      CallMove .idle request.start
  | ret
      (call : Scheduler.Pc Func Arg)
      (returned : call.returned = true) :
      CallMove call .idle

/-- An observation of a place that does not see its thread being woken. -/
structure Place.Stable
    {Func Arg Local : Type}
    {Value : Type*}
    (observe : Place Func Arg Local → Value) : Prop where
  notEmpty :
    ∀ pc wake,
      observe ⟨pc, .popWait wake⟩ = observe ⟨pc, .popWait .asleep⟩
  notFull :
    ∀ pc func arg node wake,
      observe ⟨pc, .pushWait func arg node wake⟩ =
        observe ⟨pc, .pushWait func arg node .asleep⟩
  waitCond :
    ∀ call completed since caller wake,
      observe
          ⟨.waiting (.sleeping completed wake) since caller, call⟩ =
        observe
          ⟨.waiting (.sleeping completed .asleep) since caller, call⟩

/-- Starting a call or returning from it is a step of the queue by itself. -/
theorem CallMove.next
    {Thread Func Arg : Type}
    [DecidableEq Thread]
    {state : Scheduler.State Thread Func Arg}
    {thread : Thread}
    {call : Scheduler.Pc Func Arg}
    (move : CallMove (state.pc thread) call) :
    state.setPc thread call = state ∨
      Scheduler.Next state (state.setPc thread call) := by
  generalize here : state.pc thread = before at move
  cases move with
  | stay =>
      refine Or.inl ?_
      rw [← here, Scheduler.State.setPc, Function.update_eq_self]
  | start request =>
      exact Or.inr (.call thread request here)
  | ret _ returned =>
      exact Or.inr (.ret thread (by rw [here]; exact returned))

/-- Whether the two program counters agree does not depend on a wake-up. -/
theorem Place.agrees_stable
    {Func Arg Local : Type} :
    Place.Stable
      (fun place : Place Func Arg Local => place.Agrees) where
  notEmpty := by
    intro pc wake
    cases pc with
    | submitting stage submission caller =>
        cases stage <;> simp [Place.Agrees, Scheduler.Pc.InPush]
    | destroying stage =>
        cases stage <;> simp [Place.Agrees]
    | _ =>
        simp [Place.Agrees, Scheduler.Pc.inPop]
  notFull := by
    intro pc func arg node wake
    cases pc with
    | submitting stage submission caller =>
        cases stage <;> simp [Place.Agrees, Scheduler.Pc.InPush]
    | destroying stage =>
        cases stage <;> simp [Place.Agrees]
    | _ =>
        simp [Place.Agrees, Scheduler.Pc.inPop]
  waitCond := by
    intro call completed since caller wake
    rfl

/-- No wake-up lets a worker leave its loop. -/
theorem exited_stable
    {Func Arg Local : Type} :
    Place.Stable
      (fun place : Place Func Arg Local => place.pc = .exited) :=
  ⟨fun _ _ => rfl, fun _ _ _ _ _ => rfl, by simp⟩

/-- No wake-up moves the destroyer. -/
theorem destroying_stable
    {Func Arg Local : Type}
    (stage : DestroyStage) :
    Place.Stable
      (fun place : Place Func Arg Local =>
        place.pc = .destroying stage) :=
  ⟨fun _ _ => rfl, fun _ _ _ _ _ => rfl, by simp⟩

/-- No wake-up ends a call of `task_queue_shutdown`. -/
theorem shutdownDone_stable
    {Func Arg Local : Type} :
    Place.Stable
      (fun place : Place Func Arg Local =>
        place.call = .shutdownDone) :=
  ⟨by simp, by simp, fun _ _ _ _ _ => rfl⟩

/-- No wake-up changes the part of a thread. -/
theorem role_stable
    {Func Arg Local : Type} :
    Place.Stable
      (fun place : Place Func Arg Local => place.pc.role) :=
  ⟨fun _ _ => rfl, fun _ _ _ _ _ => rfl, fun _ _ _ _ _ => rfl⟩

/-- A step of `thread_pool_submit` belongs to some caller. -/
theorem SubmitStep.caller
    {Owner Func Arg Local : Type}
    {behaviour : TaskBehaviour Func Arg Local}
    {shared shared' : Shared Owner Func Arg}
    {place place' : Place Func Arg Local}
    (step : SubmitStep behaviour shared place shared' place') :
    ∃ caller : Caller Func Arg Local,
      place.pc.role = caller.role := by
  cases step with
  | callNull call caller arg priority may
  | call call caller func arg priority may =>
      exact ⟨caller, caller.place_role⟩
  | _ =>
      exact ⟨_, rfl⟩

/-- A step of `thread_pool_wait` belongs to some caller. -/
theorem WaitStep.caller
    {Owner Func Arg Local : Type}
    {behaviour : TaskBehaviour Func Arg Local}
    {thread : Owner}
    {shared shared' : Shared Owner Func Arg}
    {place place' : Place Func Arg Local}
    (step : WaitStep behaviour thread shared place shared' place') :
    ∃ caller : Caller Func Arg Local,
      place.pc.role = caller.role := by
  cases step with
  | call call caller may =>
      exact ⟨caller, caller.place_role⟩
  | _ =>
      exact ⟨_, rfl⟩

namespace LocalStep

variable
    {Owner Func Arg Local : Type}
    {behaviour : TaskBehaviour Func Arg Local}
    {thread : Owner}
    {numThreads : Nat}
    {shared shared' : Shared Owner Func Arg}
    {place place' : Place Func Arg Local}

/-- A step stays in the part of its thread. -/
theorem role
    (step :
      LocalStep behaviour thread numThreads
        shared place shared' place') :
    place'.pc.role = place.pc.role := by
  cases step with
  | worker step =>
      cases step <;> rfl
  | submit step =>
      cases step with
      | callNull call caller arg priority may =>
          exact (caller.resume_role behaviour _).trans caller.place_role.symm
      | call call caller func arg priority may =>
          exact caller.place_role.symm
      | failed call submission caller ret failed
      | acknowledged call submission caller =>
          exact caller.resume_role behaviour _
      | _ =>
          rfl
  | wait step =>
      cases step with
      | call call caller may =>
          exact caller.place_role.symm
      | ret call since caller =>
          exact caller.resume_role behaviour _
      | _ =>
          rfl
  | destroy step =>
      cases step <;> rfl

/-- A step calls the queue or returns from it as its function does. -/
theorem callMove
    (step :
      LocalStep behaviour thread numThreads
        shared place shared' place') :
    CallMove place.call place'.call := by
  cases step with
  | worker step =>
      cases step with
      | pop =>
          exact .start (Request.pop .pop true)
      | popFailed
      | terminated removal stops
      | taken removal goesOn =>
          exact .ret (.popDone .pop _) rfl
      | _ =>
          exact .stay _
  | submit step =>
      cases step with
      | checkPassed submission caller running =>
          exact .start (Request.push (some submission.func) _ _)
      | pushFailed submission caller ret failed
      | counted submission caller =>
          exact .ret (.pushDone _) rfl
      | _ =>
          exact .stay _
  | wait step =>
      cases step <;> exact .stay _
  | destroy step =>
      cases step with
      | begin running =>
          exact .start Request.shutdown
      | shutDown =>
          exact .ret .shutdownDone rfl
      | _ =>
          exact .stay _

/-- The two program counters of a thread go on agreeing. -/
theorem agrees
    (step :
      LocalStep behaviour thread numThreads
        shared place shared' place')
    (agrees : place.Agrees) :
    place'.Agrees := by
  cases step with
  | worker step =>
      cases step <;> first
        | rfl
        | exact agrees
  | submit step =>
      cases step with
      | callNull call caller arg priority may =>
          rw [Place.agrees_place] at agrees
          rwa [Place.agrees_resume]
      | call call caller func arg priority may =>
          exact (Place.agrees_place caller call).mp agrees
      | failed call submission caller ret failed
      | acknowledged call submission caller =>
          rw [Place.agrees_resume]
          exact agrees
      | checkPassed submission caller running =>
          rfl
      | checkFailed call submission caller stopped =>
          exact agrees
      | pushFailed submission caller ret failed
      | counted submission caller =>
          rfl
  | wait step =>
      cases step with
      | call call caller may =>
          exact (Place.agrees_place caller call).mp agrees
      | ret call since caller =>
          rw [Place.agrees_resume]
          exact agrees
      | _ =>
          exact agrees
  | destroy step =>
      cases step with
      | begin running =>
          exact Or.inl rfl
      | release call stage next releases =>
          cases stage <;> cases releases <;> exact agrees
      | terminate call next allJoined =>
          exact agrees
      | _ =>
          rfl

/-- The destroyer takes steps of `thread_pool_destroy` only. -/
theorem destroyStep
    (step :
      LocalStep behaviour thread numThreads
        shared place shared' place')
    (destroyer : place.pc.role = .destroyer) :
    DestroyStep numThreads shared place shared' place' := by
  cases step with
  | worker step =>
      cases step <;> exact Role.noConfusion destroyer
  | submit step =>
      obtain ⟨caller, role⟩ := step.caller
      exact (caller.role_ne_destroyer (role ▸ destroyer)).elim
  | wait step =>
      obtain ⟨caller, role⟩ := step.caller
      exact (caller.role_ne_destroyer (role ▸ destroyer)).elim
  | destroy step =>
      exact step

/-- Only the destroyer changes the state of the pool. -/
theorem poolState_eq
    (step :
      LocalStep behaviour thread numThreads
        shared place shared' place')
    (notDestroyer : place.pc.role ≠ .destroyer) :
    shared'.poolState = shared.poolState := by
  cases step with
  | worker step =>
      cases step <;> rfl
  | submit step =>
      cases step <;> rfl
  | wait step =>
      cases step <;> rfl
  | destroy step =>
      cases step <;> exact (notDestroyer rfl).elim

/-- A worker that has left its loop takes no step. -/
theorem not_exited
    (step :
      LocalStep behaviour thread numThreads
        shared place shared' place') :
    place.pc ≠ .exited := by
  cases step with
  | worker step =>
      cases step <;> exact nofun
  | submit step =>
      cases step with
      | callNull call caller arg priority may
      | call call caller func arg priority may =>
          exact caller.place_ne_exited
      | _ =>
          exact nofun
  | wait step =>
      cases step with
      | call call caller may =>
          exact caller.place_ne_exited
      | _ =>
          exact nofun
  | destroy step =>
      cases step <;> exact nofun

/-- A worker leaves its loop after a failed pop or in a terminated pool. -/
theorem exits
    (step :
      LocalStep behaviour thread numThreads
        shared place shared' place')
    (exited : place'.pc = .exited) :
    place.call = .popDone .pop none ∨
      shared.poolState = .terminated := by
  cases step with
  | worker step =>
      cases step with
      | popFailed =>
          exact Or.inl rfl
      | terminated removal stops =>
          exact Or.inr stops
      | _ =>
          contradiction
  | submit step =>
      cases step with
      | callNull call caller arg priority may
      | failed call submission caller ret failed
      | acknowledged call submission caller =>
          exact (caller.resume_ne_exited _ _ exited).elim
      | _ =>
          contradiction
  | wait step =>
      cases step with
      | ret call since caller =>
          exact (caller.resume_ne_exited _ _ exited).elim
      | _ =>
          contradiction
  | destroy step =>
      cases step <;>
        contradiction

end LocalStep

/-- A wake-up on `wait_cond` changes nothing that these two shapes share. -/
theorem wakeWait_stable
    {Func Arg Local : Type}
    {Value : Type*}
    (observe : Pc Func Arg Local → Value)
    (same :
      ∀ completed since caller,
        observe (.waiting (.sleeping completed .notified) since caller) =
          observe (.waiting (.sleeping completed .asleep) since caller))
    (pc : Pc Func Arg Local)
    (asleep : (waitCond Func Arg Local).asleep pc = true) :
    observe ((waitCond Func Arg Local).wake pc) = observe pc := by
  obtain ⟨completed, since, caller, shape⟩ := Pc.asleepWait_iff.mp asleep
  rw [shape]
  exact same completed since caller

section

variable
    {config : Config}
    {Client Func Arg Local : Type}
    [DecidableEq Client]
    {behaviour : TaskBehaviour Func Arg Local}
    {state later : State config Client Func Arg Local}
    {thread : Thread config.numThreads Client}

/-- Nothing that wake-ups leave alone changes for another thread. -/
theorem Step.observe_other
    {Value : Type*}
    {observe : Place Func Arg Local → Value}
    (stable : Place.Stable observe)
    (step : Step behaviour state thread later)
    {other : Thread config.numThreads Client}
    (notActor : other ≠ thread) :
    observe (later.place other) = observe (state.place other) := by
  have pcStays :
      ∀ pc, Function.update state.pc thread pc other = state.pc other :=
    fun pc => Function.update_of_ne notActor pc state.pc
  have callStays :
      ∀ call,
        Function.update state.queue.pc thread call other =
          state.queue.pc other :=
    fun call => Function.update_of_ne notActor call state.queue.pc
  cases step with
  | queue step =>
      have quiet :
          WakeStable
            (fun call => observe ⟨state.pc other, call⟩) :=
        ⟨stable.notEmpty _ _,
          fun func arg node => stable.notFull _ func arg node _⟩
      exact Scheduler.Step.observe_other quiet step notActor
  | own step =>
      simp only [State.place, State.put, Scheduler.State.setPc,
        pcStays, callStays]
  | broadcast here =>
      have quiet :=
        wakeWait_stable
          (fun pc => observe ⟨pc, state.queue.pc other⟩)
          (fun completed since caller =>
            stable.waitCond _ completed since caller _)
      refine (CondVar.broadcast_stable
        (fun pc => observe ⟨pc, state.queue.pc other⟩)
        quiet other).trans ?_
      simp only [pcStays, State.place]
  | join next here inRange ended =>
      simp only [State.place, pcStays]
  | destroyQueue heap here frees =>
      simp only [State.place, pcStays]
  | destroyQueueFault here fails =>
      simp only [State.place, Scheduler.State.setPc, callStays]

/-- A spurious wake-up in the queue is not observed at all. -/
theorem observe_queueSpurious
    {Value : Type*}
    {observe : Place Func Arg Local → Value}
    (stable : Place.Stable observe)
    {call : Scheduler.Pc Func (Job Arg)}
    (wakes : (state.queue.pc thread).spurious = some call)
    (other : Thread config.numThreads Client) :
    observe
        (State.place
          { state with queue := state.queue.setPc thread call } other) =
      observe (state.place other) := by
  by_cases actor : other = thread
  · subst actor
    simp only [State.place, Scheduler.State.setPc_pc,
      Function.update_self]
    rcases Scheduler.Pc.spurious_cases wakes with
      ⟨func, arg, node, shape, rfl⟩ | ⟨shape, rfl⟩
    · rw [shape]
      exact stable.notFull _ func arg node _
    · rw [shape]
      exact stable.notEmpty _ _
  · simp [State.place, Function.update_of_ne actor]

/-- Nor is a spurious wake-up in `thread_pool_wait`. -/
theorem observe_waitSpurious
    {Value : Type*}
    {observe : Place Func Arg Local → Value}
    (stable : Place.Stable observe)
    {completed : Nat}
    {since : List Nat}
    {caller : Caller Func Arg Local}
    (here :
      state.pc thread =
        .waiting (.sleeping completed .asleep) since caller)
    (other : Thread config.numThreads Client) :
    observe
        (State.place
          { state with
              pc :=
                Function.update state.pc thread
                  (.waiting (.sleeping completed .spurious)
                    since caller) }
          other) =
      observe (state.place other) := by
  by_cases actor : other = thread
  · subst actor
    simp only [State.place, Function.update_self, here]
    exact stable.waitCond _ completed since caller _
  · simp [State.place, Function.update_of_ne actor]

/-- How far `thread_pool_destroy` has got, and what it has achieved by then. -/
def Phase
    (state : State config Client Func Arg Local) :
    DestroyStage → Prop
  | .start =>
      state.shared.poolState = .running
  | .ignored =>
      False
  | .shuttingDown =>
      state.shared.poolState = .shutdown ∧
        (state.queue.pc .destroyer = .shutdownDone →
          state.queue.queue.shutdown = true)
  | .joining next =>
      state.shared.poolState = .shutdown ∧
        state.queue.queue.shutdown = true ∧
        ∀ index : Fin config.numThreads,
          index < next → state.pc (.worker index) = .exited
  | _ =>
      state.shared.poolState = .terminated ∧
        state.queue.queue.shutdown = true ∧
        ∀ index, state.pc (.worker index) = .exited

/-- The invariant that ties the threads, the queue and the destroyer together. -/
structure Core
    (state : State config Client Func Arg Local) : Prop where
  queue :
    (Scheduler.system (Thread config.numThreads Client)
      Func (Job Arg) config.queueCapacity).Reachable state.queue
  agrees :
    ∀ thread, (state.place thread).Agrees
  role :
    ∀ thread, (state.pc thread).role = thread.role
  closed :
    state.queue.queue.shutdown = true →
      state.shared.poolState ≠ .running
  drained :
    ∀ index,
      state.pc (.worker index) = .exited →
      Drained state.queue.queue
  phase :
    ∀ stage,
      state.pc .destroyer = .destroying stage → Phase state stage

/-- A reachable queue as a refinement of a channel. -/
theorem Core.refines
    (core : Core state) :
    ∃ channel nodes, Refines state.queue channel nodes := by
  obtain ⟨channel, nodes, _, refines⟩ := reachable_refines core.queue
  exact ⟨channel, nodes, refines⟩

/-- What was linked is removed or still in the queue. -/
theorem Core.length_linked
    (core : Core state) :
    state.queue.linked.length =
      state.queue.removed.length + state.queue.queue.count := by
  obtain ⟨_, contents, _, order, size⟩ := reachable_order core.queue
  rw [order, List.length_append, size]

/-- What was removed was linked before, and first. -/
theorem Core.removed_first
    (core : Core state) :
    state.queue.removed <+: state.queue.linked := by
  obtain ⟨_, contents, _, order, _⟩ := reachable_order core.queue
  exact ⟨contents, order.symm⟩

/-- Everything linked has been removed from an empty queue. -/
theorem Core.removed_of_empty
    (core : Core state)
    (empty : state.queue.queue.count = 0) :
    state.queue.removed = state.queue.linked := by
  have lengths := core.length_linked
  exact core.removed_first.eq_of_length (by omega)

/-- Once all workers have been joined the queue is empty for good. -/
theorem Core.drained_of_exited
    (core : Core state)
    (exited :
      ∀ index : Fin config.numThreads,
        state.pc (.worker index) = .exited) :
    Drained state.queue.queue :=
  core.drained ⟨0, config.numThreads_pos⟩ (exited _)

/-- `task_queue_destroy` finds an empty queue and has nothing to free. -/
theorem Core.destroyQueue
    (core : Core state)
    (here : state.pc .destroyer = .destroying .destroyingQueue) :
    freeNodes state.queue.queue.count
        state.queue.heap state.queue.queue.head =
      some state.queue.heap ∧
      emptied state.queue.queue = state.queue.queue := by
  obtain ⟨_, _, exited⟩ := core.phase _ here
  obtain ⟨_, empty⟩ := core.drained_of_exited exited
  obtain ⟨channel, nodes, refines⟩ := core.refines
  have noNodes : nodes = [] := by
    rw [← List.length_eq_zero_iff, ← refines.represents.count]
    exact empty
  subst noNodes
  exact refines.represents.destroy_nil

/-- A worker that has left its loop takes no step. -/
theorem Step.not_exited
    (step : Step behaviour state thread later)
    (agrees : (state.place thread).Agrees) :
    state.pc thread ≠ .exited := by
  intro exited
  cases step with
  | queue step =>
      have idle : state.queue.pc thread = .idle := by
        simpa [Place.Agrees, State.place, exited] using agrees
      exact step.inside.1 idle
  | own step =>
      exact step.not_exited exited
  | broadcast here
  | join next here inRange ended
  | destroyQueue heap here frees
  | destroyQueueFault here fails =>
      rw [here] at exited
      contradiction

/-- A worker that has left its loop stays out of it. -/
theorem Step.exited_stays
    (step : Step behaviour state thread later)
    (agrees : (state.place thread).Agrees)
    {other : Thread config.numThreads Client}
    (exited : state.pc other = .exited) :
    later.pc other = .exited := by
  have notActor : other ≠ thread := by
    rintro rfl
    exact step.not_exited agrees exited
  have same := step.observe_other exited_stable notActor
  exact same.mpr exited

/-- Whoever is in `thread_pool_destroy` is the destroyer. -/
theorem Core.destroyer_of
    (core : Core state)
    {stage : DestroyStage}
    (here : state.pc thread = .destroying stage) :
    thread = .destroyer := by
  have role := core.role thread
  rw [here] at role
  cases thread with
  | destroyer =>
      rfl
  | _ =>
      exact Role.noConfusion role

/-- The destroyer is always somewhere in `thread_pool_destroy`. -/
theorem Core.stage
    (core : Core state) :
    ∃ stage, state.pc .destroyer = .destroying stage := by
  have role := core.role .destroyer
  cases here : state.pc .destroyer with
  | destroying stage =>
      exact ⟨stage, rfl⟩
  | submitting stage submission caller
  | waiting stage since caller =>
      rw [here] at role
      exact (caller.role_ne_destroyer role).elim
  | _ =>
      rw [here] at role
      exact Role.noConfusion role

/-- A step of the pool is a step of its queue or leaves the queue alone. -/
theorem Step.queue_next
    (step : Step behaviour state thread later)
    (core : Core state) :
    later.queue = state.queue ∨
      Scheduler.Next state.queue later.queue := by
  cases step with
  | queue step =>
      exact Or.inr (.step thread step)
  | own step =>
      exact CallMove.next step.callMove
  | broadcast here =>
      exact Or.inl rfl
  | join next here inRange ended =>
      exact Or.inl rfl
  | destroyQueue heap here frees =>
      obtain rfl := core.destroyer_of here
      obtain ⟨nothing, same⟩ := core.destroyQueue here
      rw [nothing] at frees
      obtain rfl := Option.some.inj frees
      refine Or.inl ?_
      simp only [same]
  | destroyQueueFault here fails =>
      obtain rfl := core.destroyer_of here
      rw [(core.destroyQueue here).1] at fails
      contradiction

omit [DecidableEq Client] in
/-- The program counters agree after a step of the queue. -/
theorem Place.Agrees.effect
    {queue : TaskQueue}
    {index : Nat}
    {pc : Pc Func Arg Local}
    {call call' : Scheduler.Pc Func (Job Arg)}
    {linked removed : List (Func × Job Arg)}
    (agrees : (Place.mk pc call).Agrees)
    (effect : Effect queue index call call' linked removed)
    (inside : call ≠ .idle ∧ call.returned = false) :
    (Place.mk pc call').Agrees := by
  cases pc with
  | popping =>
      exact (effect.inPop agrees).1
  | submitting stage submission caller =>
      cases stage with
      | pushing =>
          exact (effect.inPush agrees).1
      | _ =>
          exact (inside.1 agrees).elim
  | destroying stage =>
      cases stage with
      | shuttingDown =>
          rcases agrees with rfl | rfl
          · exact Or.inr effect.inShutdown.1
          · exact Bool.noConfusion inside.2
      | _ =>
          exact (inside.1 agrees).elim
  | _ =>
      exact (inside.1 agrees).elim

/-- The worker that broadcasts goes on to unlock. -/
theorem broadcast_actor
    (state : State config Client Func Arg Local)
    (thread : Thread config.numThreads Client) :
    (waitCond Func Arg Local).broadcast
        (Function.update state.pc thread .unlocking) thread =
      .unlocking := by
  rw [CondVar.broadcast_of_awake
    (by rw [Function.update_self]; rfl), Function.update_self]

/-- The program counters of all threads agree after a step. -/
theorem Step.agrees
    (step : Step behaviour state thread later)
    (core : Core state)
    (other : Thread config.numThreads Client) :
    (later.place other).Agrees := by
  by_cases actor : other = thread
  · subst actor
    have agrees := core.agrees other
    cases step with
    | queue step =>
        obtain ⟨channel, nodes, refines⟩ := core.refines
        obtain ⟨_, _, _, _, effect⟩ := step.effect refines
        exact agrees.effect effect step.inside
    | own step =>
        have moved := step.agrees agrees
        simpa [State.place, State.put] using moved
    | broadcast here =>
        simp only [State.place, here] at agrees
        simp only [State.place, broadcast_actor]
        exact agrees
    | join next here inRange ended
    | destroyQueue heap here frees =>
        simp only [State.place, here] at agrees
        simp only [State.place, Function.update_self]
        exact agrees
    | destroyQueueFault here fails =>
        obtain rfl := core.destroyer_of here
        rw [(core.destroyQueue here).1] at fails
        contradiction
  · have same := step.observe_other Place.agrees_stable actor
    exact same.mpr (core.agrees other)

/-- Every thread stays in its part. -/
theorem Step.role
    (step : Step behaviour state thread later)
    (core : Core state)
    (other : Thread config.numThreads Client) :
    (later.pc other).role = other.role := by
  by_cases actor : other = thread
  · subst actor
    rw [← core.role other]
    cases step with
    | queue step =>
        rfl
    | own step =>
        simpa [State.put, State.place] using step.role
    | broadcast here =>
        simp only [broadcast_actor, here]
        rfl
    | join next here inRange ended
    | destroyQueue heap here frees =>
        simp only [Function.update_self, here]
        rfl
    | destroyQueueFault here fails =>
        rfl
  · exact (step.observe_other role_stable actor).trans (core.role other)

/-- After a step the shutdown flag still excludes a running pool. -/
theorem Step.closed
    (step : Step behaviour state thread later)
    (core : Core state)
    (closed : later.queue.queue.shutdown = true) :
    later.shared.poolState ≠ .running := by
  cases step with
  | queue step =>
      rcases step.shutdown_iff.mp closed with before | closing
      · exact core.closed before
      · have agrees := core.agrees thread
        cases here : state.pc thread with
        | destroying stage =>
            obtain rfl := core.destroyer_of here
            cases stage with
            | shuttingDown =>
                have phase := core.phase _ here
                simp [phase.1]
            | _ =>
                simp [Place.Agrees, State.place, here, closing] at agrees
        | submitting stage submission caller =>
            cases stage <;>
              simp [Place.Agrees, State.place, here, closing,
                Scheduler.Pc.InPush] at agrees
        | _ =>
            simp [Place.Agrees, State.place, here, closing,
              Scheduler.Pc.inPop] at agrees
  | own step =>
      have before := core.closed closed
      by_cases destroyer : (state.place thread).pc.role = .destroyer
      · have destroy := step.destroyStep destroyer
        generalize state.place thread = place at destroy
        cases destroy with
        | begin running =>
            rintro ⟨⟩
        | terminate call next allJoined =>
            rintro ⟨⟩
        | _ =>
            exact before
      · have same := step.poolState_eq destroyer
        simpa only [State.put, same] using before
  | broadcast here
  | join next here inRange ended
  | destroyQueue heap here frees
  | destroyQueueFault here fails =>
      exact core.closed closed

/-- The pool is terminated only after all workers have left their loops. -/
theorem Core.exited_of_terminated
    (core : Core state)
    (terminated : state.shared.poolState = .terminated)
    (index : Fin config.numThreads) :
    state.pc (.worker index) = .exited := by
  obtain ⟨stage, here⟩ := core.stage
  have phase := core.phase stage here
  cases stage with
  | start =>
      rw [Phase, terminated] at phase
      exact PoolState.noConfusion phase
  | ignored =>
      exact phase.elim
  | shuttingDown
  | joining next =>
      rw [Phase, terminated] at phase
      exact PoolState.noConfusion phase.1
  | _ =>
      exact phase.2.2 index

/-- No worker gets a task from a terminated pool. -/
theorem Core.alive
    (core : Core state)
    (thread : Thread config.numThreads Client)
    (popping : state.pc thread = .popping) :
    state.shared.poolState ≠ .terminated := by
  intro terminated
  have role := core.role thread
  rw [popping] at role
  cases thread with
  | worker index =>
      rw [core.exited_of_terminated terminated index] at popping
      contradiction
  | _ =>
      exact Role.noConfusion role

/-- A worker leaves its loop only when the queue is shut down and empty. -/
theorem Step.drained
    (step : Step behaviour state thread later)
    (core : Core state)
    (index : Fin config.numThreads)
    (exited : later.pc (.worker index) = .exited) :
    Drained later.queue.queue := by
  obtain ⟨channel, nodes, refines⟩ := core.refines
  have before : Drained state.queue.queue := by
    by_cases actor : .worker index = thread
    · subst actor
      cases step with
      | queue step =>
          exact core.drained index exited
      | own step =>
          simp only [State.put, Function.update_self] at exited
          rcases step.exits exited with failed | terminated
          · have supported := refines.supported (.worker index)
            rw [show state.queue.pc (.worker index) =
              .popDone .pop none from failed] at supported
            exact supported
          · exact core.drained_of_exited
              (core.exited_of_terminated terminated)
      | broadcast here =>
          simp [broadcast_actor] at exited
      | join next here inRange ended
      | destroyQueue heap here frees =>
          simp at exited
      | destroyQueueFault here fails =>
          exact core.drained index exited
    · have same := step.observe_other exited_stable actor
      exact core.drained index (same.mp exited)
  rcases step.queue_next core with same | next
  · rw [same]
    exact before
  · exact next.drained refines before

omit [DecidableEq Client] in
/-- What a phase says stays true when nothing it speaks of changes. -/
theorem Phase.mono
    {stage : DestroyStage}
    (phase : Phase state stage)
    (poolState : later.shared.poolState = state.shared.poolState)
    (closed :
      state.queue.queue.shutdown = true →
        later.queue.queue.shutdown = true)
    (call :
      later.queue.pc .destroyer = .shutdownDone →
        state.queue.pc .destroyer = .shutdownDone)
    (exited :
      ∀ index,
        state.pc (.worker index) = .exited →
        later.pc (.worker index) = .exited) :
    Phase later stage := by
  cases stage with
  | start =>
      exact poolState.trans phase
  | ignored =>
      exact phase
  | shuttingDown =>
      refine ⟨poolState.trans phase.1, ?_⟩
      intro returned
      exact closed (phase.2 (call returned))
  | joining next =>
      refine ⟨poolState.trans phase.1, closed phase.2.1, ?_⟩
      intro index inRange
      exact exited index (phase.2.2 index inRange)
  | _ =>
      refine ⟨poolState.trans phase.1, closed phase.2.1, ?_⟩
      intro index
      exact exited index (phase.2.2 index)

/-- The shutdown flag stays set. -/
theorem Step.closed_stays
    (step : Step behaviour state thread later)
    (core : Core state)
    (closed : state.queue.queue.shutdown = true) :
    later.queue.queue.shutdown = true := by
  rcases step.queue_next core with same | next
  · rw [same]
    exact closed
  · exact (next.frozen closed).1

/-- The destroyer goes from phase to phase. -/
theorem Step.phase
    (step : Step behaviour state thread later)
    (core : Core state)
    (stage : DestroyStage)
    (here : later.pc .destroyer = .destroying stage) :
    Phase later stage := by
  have exitedStays :
      ∀ index,
        state.pc (.worker index) = .exited →
        later.pc (.worker index) = .exited :=
    fun index => step.exited_stays (core.agrees thread)
  by_cases actor : .destroyer = thread
  · subst actor
    have agrees := core.agrees .destroyer
    cases step with
    | queue step =>
        have phase := core.phase stage here
        rw [show state.place .destroyer =
          ⟨.destroying stage, state.queue.pc .destroyer⟩ by
            rw [State.place, here]] at agrees
        cases stage with
        | shuttingDown =>
            refine ⟨phase.1, ?_⟩
            intro _
            rcases agrees with closing | closed
            · exact step.shutdown_iff.mpr (Or.inr closing)
            · have inside := step.inside.2
              rw [show state.queue.pc .destroyer = .shutdownDone
                from closed] at inside
              exact Bool.noConfusion inside
        | _ =>
            exact (step.inside.1 agrees).elim
    | own step =>
        have role := core.role .destroyer
        have destroy := step.destroyStep role
        simp only [State.put, Function.update_self] at here
        generalize placeIs : state.place .destroyer = place at destroy
        have pcIs : state.pc .destroyer = place.pc :=
          congrArg Place.pc placeIs
        have callIs : state.queue.pc .destroyer = place.call :=
          congrArg Place.call placeIs
        cases destroy with
        | begin running =>
            obtain rfl := Pc.destroying.inj here
            refine ⟨rfl, ?_⟩
            simp [State.put, Request.start]
        | ignored stopped =>
            exact (stopped (core.phase _ pcIs)).elim
        | shutDown =>
            obtain rfl := Pc.destroying.inj here
            have phase := core.phase _ pcIs
            exact ⟨phase.1, phase.2 callIs, nofun⟩
        | terminate call next allJoined =>
            obtain rfl := Pc.destroying.inj here
            have phase := core.phase _ pcIs
            refine ⟨rfl, phase.2.1, ?_⟩
            intro index
            exact exitedStays index
              (phase.2.2 index
                (index.isLt.trans_le (Nat.le_of_not_lt allJoined)))
        | release call before after releases =>
            obtain rfl := Pc.destroying.inj here
            have phase := core.phase _ pcIs
            cases before <;> cases releases <;>
              exact ⟨phase.1, phase.2.1,
                fun index => exitedStays index (phase.2.2 index)⟩
    | broadcast broadcasting =>
        simp [broadcast_actor] at here
    | join next joining inRange ended =>
        simp only [Function.update_self] at here
        obtain rfl := Pc.destroying.inj here
        have phase := core.phase _ joining
        refine ⟨phase.1, phase.2.1, ?_⟩
        intro index below
        apply exitedStays
        rcases Nat.lt_succ_iff_lt_or_eq.mp below with earlier | same
        · exact phase.2.2 index earlier
        · rw [← ended]
          congr 2
          exact Fin.ext same
    | destroyQueue heap destroying frees =>
        simp only [Function.update_self] at here
        obtain rfl := Pc.destroying.inj here
        have phase := core.phase _ destroying
        exact ⟨phase.1, phase.2.1,
          fun index => exitedStays index (phase.2.2 index)⟩
    | destroyQueueFault destroying fails =>
        rw [(core.destroyQueue destroying).1] at fails
        contradiction
  · have before :=
      core.phase stage
        ((step.observe_other (destroying_stable stage) actor).mp here)
    refine before.mono ?_ (step.closed_stays core)
      (step.observe_other shutdownDone_stable actor).mp exitedStays
    cases step with
    | own step =>
        refine step.poolState_eq ?_
        rw [State.place, core.role thread]
        cases thread with
        | destroyer =>
            exact (actor rfl).elim
        | _ =>
            exact nofun
    | _ =>
        rfl

/-- A new pool satisfies the invariant. -/
theorem Core.initial :
    Core (State.initial config Client Func Arg Local) where
  queue :=
    .start rfl
  agrees := by
    intro thread
    cases thread <;> rfl
  role := by
    intro thread
    cases thread <;> rfl
  closed := by
    intro closed
    exact Bool.noConfusion closed
  drained := by
    intro index exited
    contradiction
  phase := by
    intro stage here
    obtain rfl := Pc.destroying.inj here
    rfl

/-- A step of a thread keeps the invariant. -/
theorem Step.core
    (step : Step behaviour state thread later)
    (core : Core state) :
    Core later where
  queue := by
    rcases step.queue_next core with same | next
    · rw [same]
      exact core.queue
    · exact core.queue.step next
  agrees :=
    step.agrees core
  role :=
    step.role core
  closed :=
    step.closed core
  drained :=
    step.drained core
  phase :=
    step.phase core

/-- A spurious wake-up in the queue keeps the invariant. -/
theorem Core.queueSpurious
    (core : Core state)
    (thread : Thread config.numThreads Client)
    {call : Scheduler.Pc Func (Job Arg)}
    (wakes : (state.queue.pc thread).spurious = some call) :
    Core { state with queue := state.queue.setPc thread call } where
  queue :=
    core.queue.step (.spurious thread wakes)
  agrees := by
    intro other
    exact (observe_queueSpurious Place.agrees_stable wakes other).mpr
      (core.agrees other)
  role :=
    core.role
  closed :=
    core.closed
  drained :=
    core.drained
  phase := by
    intro stage here
    exact (core.phase stage here).mono rfl id
      (observe_queueSpurious shutdownDone_stable wakes .destroyer).mp
      (fun _ => id)

/-- A spurious wake-up in `thread_pool_wait` keeps the invariant. -/
theorem Core.waitSpurious
    (core : Core state)
    (thread : Thread config.numThreads Client)
    (completed : Nat)
    (since : List Nat)
    (caller : Caller Func Arg Local)
    (here :
      state.pc thread =
        .waiting (.sleeping completed .asleep) since caller) :
    Core {
      state with
        pc :=
          Function.update state.pc thread
            (.waiting (.sleeping completed .spurious) since caller) }
    where
  queue :=
    core.queue
  agrees := by
    intro other
    exact (observe_waitSpurious Place.agrees_stable here other).mpr
      (core.agrees other)
  role := by
    intro other
    exact (observe_waitSpurious role_stable here other).trans
      (core.role other)
  closed :=
    core.closed
  drained := by
    intro index exited
    exact core.drained index
      ((observe_waitSpurious exited_stable here _).mp exited)
  phase := by
    intro stage destroying
    refine (core.phase stage
      ((observe_waitSpurious (destroying_stable stage) here _).mp
        destroying)).mono rfl id id ?_
    intro index exited
    exact (observe_waitSpurious exited_stable here _).mpr exited

/-- Every step of the system keeps the invariant. -/
theorem Next.core
    (next : Next behaviour state later)
    (core : Core state) :
    Core later := by
  cases next with
  | step thread allocated step =>
      exact step.core core
  | queueSpurious thread allocated wakes =>
      exact core.queueSpurious thread wakes
  | waitSpurious thread completed since caller allocated here =>
      exact core.waitSpurious thread completed since caller here

/-- The invariant holds in every reachable state. -/
theorem reachable_core
    (reachable :
      (system config Client behaviour).Reachable state) :
    Core state := by
  refine System.Reachable.invariant Core ?_ ?_ reachable
  · rintro first rfl
    exact Core.initial
  · intro before after _ core next
    exact Next.core next core

end

end SThread.ThreadPool
