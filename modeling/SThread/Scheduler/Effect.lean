import SThread.Scheduler.Refinement

namespace SThread.Scheduler

open SThread.Library

/-!
# What one step does to the threads

A step moves the thread that takes it, and `Effect` lists the moves.  Other
threads can only be woken by it, and what a wake-up does not change stays as it
was.
-/

/-- The task a thread is trying to link. -/
def Pc.pushTask
    {Func Arg : Type} :
    Pc Func Arg → Option (Func × Arg)
  | .pushStart func arg _ => some (func, arg)
  | .pushEnter func arg _ => some (func, arg)
  | .pushWait func arg _ _ => some (func, arg)
  | _ => none

/-- The function in which a thread is trying to remove a task. -/
def Pc.popKind
    {Func Arg : Type} :
    Pc Func Arg → Option PopKind
  | .popEnter kind => some kind
  | .popWait _ => some .pop
  | _ => none

/-- The thread is inside one call of `task_queue_pop`. -/
def Pc.inPop
    {Func Arg : Type} :
    Pc Func Arg → Bool
  | .popEnter .pop => true
  | .popWait _ => true
  | .popTake .pop _ _ => true
  | .popDone .pop _ => true
  | _ => false

/-- The thread is inside one call of `task_queue_push` with this task. -/
def Pc.InPush
    {Func Arg : Type}
    (task : Func × Arg) :
    Pc Func Arg → Prop
  | .pushStart func arg _ => (func, arg) = task
  | .pushEnter func arg _ => (func, arg) = task
  | .pushWait func arg _ _ => (func, arg) = task
  | .pushFree _ => True
  | .pushDone _ => True
  | _ => False

/-- The task a thread has removed and not yet returned. -/
def Pc.held
    {Func Arg : Type} :
    Pc Func Arg → List (Func × Arg)
  | .popTake _ _ removal => [removal.task]
  | .popDone _ (some removal) => [removal.task]
  | _ => []

/-- The thread has linked its node and is about to return 0. -/
def Pc.pushed
    {Func Arg : Type} :
    Pc Func Arg → Bool
  | .pushDone ret => decide (ret = 0)
  | _ => false

/-- A thread that still has steps to take has not finished its push. -/
theorem Pc.pushed_of_inside
    {Func Arg : Type}
    {pc : Pc Func Arg}
    (inside : pc.returned = false) :
    pc.pushed = false := by
  cases pc with
  | pushDone ret =>
      exact Bool.noConfusion inside
  | _ =>
      rfl

/-- A thread that is pushing holds no removed task. -/
theorem Pc.held_of_pushTask
    {Func Arg : Type}
    {pc : Pc Func Arg}
    {task : Func × Arg}
    (pushes : pc.pushTask = some task) :
    pc.held = [] := by
  cases pc <;> first
    | rfl
    | contradiction

/-- A thread that is still trying to remove a task holds none. -/
theorem Pc.held_of_popKind
    {Func Arg : Type}
    {pc : Pc Func Arg}
    {kind : PopKind}
    (pops : pc.popKind = some kind) :
    pc.held = [] := by
  cases pc <;> first
    | rfl
    | contradiction

/-- A call of `task_queue_push` holds no removed task. -/
theorem Pc.held_of_inPush
    {Func Arg : Type}
    {pc : Pc Func Arg}
    {task : Func × Arg}
    (inside : pc.InPush task) :
    pc.held = [] := by
  cases pc <;> first
    | rfl
    | exact inside.elim

/-- A call of `task_queue_pop` removes as such. -/
theorem Pc.popKind_of_inPop
    {Func Arg : Type}
    {pc : Pc Func Arg}
    {kind : PopKind}
    (inside : pc.inPop = true)
    (pops : pc.popKind = some kind) :
    kind = .pop := by
  cases pc with
  | popEnter other =>
      cases other <;> simp_all [Pc.inPop, Pc.popKind]
  | popWait wake =>
      exact (Option.some.inj pops).symm
  | _ =>
      contradiction

/-- A call of `task_queue_pop` links nothing. -/
theorem Pc.pushTask_of_inPop
    {Func Arg : Type}
    {pc : Pc Func Arg}
    (inside : pc.inPop = true) :
    pc.pushTask = none := by
  cases pc <;> first | rfl | exact Bool.noConfusion inside

/-- A call of `task_queue_push` links its own task. -/
theorem Pc.pushTask_of_inPush
    {Func Arg : Type}
    {pc : Pc Func Arg}
    {task other : Func × Arg}
    (inside : pc.InPush task)
    (pushes : pc.pushTask = some other) :
    other = task := by
  cases pc <;>
    simp_all [Pc.InPush, Pc.pushTask]

/-- A call of `task_queue_push` removes nothing. -/
theorem Pc.popKind_of_inPush
    {Func Arg : Type}
    {pc : Pc Func Arg}
    {task : Func × Arg}
    (inside : pc.InPush task) :
    pc.popKind = none := by
  cases pc <;> first | rfl | exact inside.elim

/--
The moves of a thread inside a call, with what they add to the two histories of
a queue from which `index` tasks have been removed.
-/
inductive Effect
    {Func Arg : Type}
    (queue : TaskQueue)
    (index : Nat) :
    Pc Func Arg → Pc Func Arg →
    List (Func × Arg) → List (Func × Arg) → Prop where
  | alloc
      (func : Func)
      (arg : Arg)
      (priority : TaskPriority)
      (node : Addr) :
      Effect queue index
        (.pushStart func arg priority)
        (.pushEnter func arg node) [] []
  | allocFailed
      (func : Func)
      (arg : Arg)
      (priority : TaskPriority) :
      Effect queue index
        (.pushStart func arg priority)
        (.pushDone (-1)) [] []
  | pushRefused
      (before : Pc Func Arg)
      (func : Func)
      (arg : Arg)
      (node : Addr)
      (pushes : before.pushTask = some (func, arg))
      (closed : queue.shutdown = true) :
      Effect queue index before (.pushFree node) [] []
  | pushSleeps
      (before : Pc Func Arg)
      (func : Func)
      (arg : Arg)
      (node : Addr)
      (pushes : before.pushTask = some (func, arg))
      (opened : queue.shutdown = false)
      (bounded : 0 < queue.capacity) :
      Effect queue index before
        (.pushWait func arg node .asleep) [] []
  | pushLinked
      (before : Pc Func Arg)
      (func : Func)
      (arg : Arg)
      (pushes : before.pushTask = some (func, arg))
      (opened : queue.shutdown = false) :
      Effect queue index before (.pushDone 0) [(func, arg)] []
  | pushFreed
      (node : Addr) :
      Effect queue index (.pushFree node) (.pushDone (-1)) [] []
  | popEmpty
      (before : Pc Func Arg)
      (kind : PopKind)
      (pops : before.popKind = some kind)
      (empty : queue.count = 0)
      (closed : kind = .pop → queue.shutdown = true) :
      Effect queue index before (.popDone kind none) [] []
  | popSleeps
      (before : Pc Func Arg)
      (pops : before.popKind = some .pop)
      (empty : queue.count = 0)
      (opened : queue.shutdown = false) :
      Effect queue index before (.popWait .asleep) [] []
  | popUnlinked
      (before : Pc Func Arg)
      (kind : PopKind)
      (node : Addr)
      (func : Func)
      (arg : Arg)
      (pops : before.popKind = some kind)
      (nonempty : queue.count ≠ 0) :
      Effect queue index before
        (.popTake kind node ⟨index, func, arg⟩) [] [(func, arg)]
  | popTaken
      (kind : PopKind)
      (node : Addr)
      (removal : Removal Func Arg) :
      Effect queue index
        (.popTake kind node removal)
        (.popDone kind (some removal)) [] []
  | shutdown :
      Effect queue index .shutdownEnter .shutdownDone [] []

/-- An observation of a thread that does not see it being notified. -/
structure WakeStable
    {Func Arg : Type}
    {Value : Type*}
    (observe : Pc Func Arg → Value) : Prop where
  notEmpty :
    observe (.popWait .notified) = observe (.popWait .asleep)
  notFull :
    ∀ func arg node,
      observe (.pushWait func arg node .notified) =
        observe (.pushWait func arg node .asleep)

namespace Effect

variable
    {Func Arg : Type}
    {queue : TaskQueue}
    {index : Nat}
    {before after : Pc Func Arg}
    {linked removed : List (Func × Arg)}

/-- A call of `task_queue_pop` goes on until it is about to return. -/
theorem inPop
    (effect : Effect queue index before after linked removed)
    (inside : before.inPop = true) :
    after.inPop = true ∧ linked = [] := by
  cases effect with
  | popEmpty _ kind pops empty closed
  | popUnlinked _ kind node func arg pops nonempty =>
      obtain rfl := Pc.popKind_of_inPop inside pops
      exact ⟨rfl, rfl⟩
  | popSleeps _ pops empty opened =>
      exact ⟨rfl, rfl⟩
  | popTaken kind node removal =>
      cases kind with
      | pop =>
          exact ⟨rfl, rfl⟩
      | tryPop =>
          exact Bool.noConfusion inside
  | pushRefused _ func arg node pushes closed
  | pushSleeps _ func arg node pushes opened bounded
  | pushLinked _ func arg pushes opened =>
      rw [Pc.pushTask_of_inPop inside] at pushes
      contradiction
  | _ =>
      exact Bool.noConfusion inside

/-- A removed task is held until it is returned. -/
theorem held
    (effect : Effect queue index before after linked removed) :
    after.held = before.held ++ removed := by
  cases effect with
  | alloc func arg priority node
  | allocFailed func arg priority
  | pushFreed node
  | popTaken kind node removal
  | shutdown =>
      rfl
  | pushRefused _ func arg node pushes closed
  | pushSleeps _ func arg node pushes opened bounded
  | pushLinked _ func arg pushes opened =>
      rw [Pc.held_of_pushTask pushes]
      rfl
  | popEmpty _ kind pops empty closed
  | popSleeps _ pops empty opened
  | popUnlinked _ kind node func arg pops nonempty =>
      rw [Pc.held_of_popKind pops]
      rfl

/-- A push links its task in the step after which it returns 0. -/
theorem linked_of_inPush
    {task : Func × Arg}
    (effect : Effect queue index before after linked removed)
    (inside : before.InPush task) :
    linked = if after.pushed = true then [task] else [] := by
  cases effect with
  | pushLinked _ func arg pushes opened =>
      rw [Pc.pushTask_of_inPush inside pushes]
      rfl
  | popTaken kind node removal
  | shutdown =>
      exact inside.elim
  | _ =>
      rfl

/-- A call of `task_queue_push` goes on with its task, and removes none. -/
theorem inPush
    {task : Func × Arg}
    (effect : Effect queue index before after linked removed)
    (inside : before.InPush task) :
    after.InPush task ∧ removed = [] := by
  cases effect with
  | alloc func arg priority node =>
      exact ⟨inside, rfl⟩
  | allocFailed func arg priority
  | pushRefused _ func arg node pushes closed
  | pushLinked _ func arg pushes opened
  | pushFreed node =>
      exact ⟨trivial, rfl⟩
  | pushSleeps _ func arg node pushes opened bounded =>
      exact ⟨Pc.pushTask_of_inPush inside pushes, rfl⟩
  | popEmpty _ kind pops empty closed
  | popUnlinked _ kind node func arg pops nonempty
  | popSleeps _ pops empty opened =>
      rw [Pc.popKind_of_inPush inside] at pops
      contradiction
  | popTaken kind node removal
  | shutdown =>
      exact inside.elim

/-- A call of `task_queue_shutdown` takes one step. -/
theorem inShutdown
    (effect : Effect queue index .shutdownEnter after linked removed) :
    after = .shutdownDone ∧ linked = [] ∧ removed = [] := by
  cases effect with
  | shutdown =>
      exact ⟨rfl, rfl, rfl⟩
  | pushRefused _ func arg node pushes closed
  | pushSleeps _ func arg node pushes opened bounded
  | pushLinked _ func arg pushes opened =>
      contradiction
  | popEmpty _ kind pops empty closed
  | popUnlinked _ kind node func arg pops nonempty
  | popSleeps _ pops empty opened =>
      contradiction

end Effect

/-- A thread in a section of `task_queue_push` is trying to link its task. -/
theorem PushSection.pushTask
    {Func Arg : Type}
    {heap : Heap Func Arg}
    {queue : TaskQueue}
    {pc : Pc Func Arg}
    {func : Func}
    {arg : Arg}
    {node : Addr}
    {exit : PushExit Func Arg}
    (locked : PushSection heap queue pc func arg node exit) :
    pc.pushTask = some (func, arg) := by
  cases locked <;> rfl

/-- A thread in a section of a pop function is trying to remove a task. -/
theorem PopSection.popKind
    {Func Arg : Type}
    {heap : Heap Func Arg}
    {queue : TaskQueue}
    {pc : Pc Func Arg}
    {kind : PopKind}
    {exit : PopExit}
    (locked : PopSection heap queue pc kind exit) :
    pc.popKind = some kind := by
  cases locked <;> rfl

section

variable
    {Thread Func Arg : Type}
    [DecidableEq Thread]
    {state later : State Thread Func Arg}
    {thread : Thread}

/-- A thread that takes a step is inside its call. -/
theorem Step.inside
    (step : Step state thread later) :
    state.pc thread ≠ .idle ∧
      (state.pc thread).returned = false := by
  cases step with
  | pushRefused func arg node locked
  | pushSleeps func arg node locked
  | pushLinked func arg node heap queue targets locked signals
  | pushFault func arg node locked =>
      generalize state.pc thread = pc at locked
      cases locked <;> exact ⟨nofun, rfl⟩
  | popEmpty kind locked
  | popSleeps kind locked
  | popUnlinked kind node record queue targets locked stored signals
  | popFault kind locked =>
      generalize state.pc thread = pc at locked
      cases locked <;> exact ⟨nofun, rfl⟩
  | alloc func arg priority node submitTime here fresh
  | allocFailed func arg priority here
  | pushFreed node record here stored
  | pushFreeFault node here missing
  | popTaken kind node removal record here stored
  | popTakeFault kind node removal here missing
  | shutdown here =>
      rw [here]
      exact ⟨nofun, rfl⟩

/-- Every step of a thread is one of the moves, and none dereferences a bad node. -/
theorem Step.effect
    {channel : Channel (Func × Arg)}
    {nodes : List Addr}
    (step : Step state thread later)
    (refines : Refines state channel nodes) :
    ∃ linked removed,
      later.linked = state.linked ++ linked ∧
        later.removed = state.removed ++ removed ∧
        Effect state.queue state.removed.length
          (state.pc thread) (later.pc thread) linked removed := by
  obtain ⟨_, _, _, refinesLater⟩ := step.refines refines
  have noFault : later.pc thread ≠ .fault := by
    intro fault
    have supported := refinesLater.supported thread
    rw [fault] at supported
    exact supported
  have moved :
      ∀ pc, Function.update state.pc thread pc thread = pc :=
    fun pc => Function.update_self thread pc state.pc
  cases step with
  | alloc func arg priority node submitTime here fresh =>
      refine ⟨[], [], by simp, by simp, ?_⟩
      simpa [here] using Effect.alloc func arg priority node
  | allocFailed func arg priority here =>
      refine ⟨[], [], by simp [State.setPc], by simp [State.setPc], ?_⟩
      simpa [here] using Effect.allocFailed func arg priority
  | pushRefused func arg node locked =>
      refine ⟨[], [], by simp [State.setPc], by simp [State.setPc], ?_⟩
      simpa using Effect.pushRefused _ func arg node
        locked.pushTask locked.justified
  | pushSleeps func arg node locked =>
      obtain ⟨opened, bounded, _⟩ := locked.justified
      refine ⟨[], [], by simp [State.setPc], by simp [State.setPc], ?_⟩
      simpa using Effect.pushSleeps _ func arg node
        locked.pushTask opened bounded
  | pushLinked func arg node heap queue targets locked signals =>
      refine ⟨[(func, arg)], [], rfl, by simp, ?_⟩
      have done :
          (notEmpty Func Arg).notify targets
              (Function.update state.pc thread (.pushDone 0)) thread =
            .pushDone 0 := by
        rw [CondVar.notify_of_awake signals (by rw [moved]; rfl), moved]
      simp only [done]
      exact .pushLinked _ func arg locked.pushTask locked.justified.1
  | pushFreed node record here stored =>
      refine ⟨[], [], by simp, by simp, ?_⟩
      simpa [here] using Effect.pushFreed node
  | popEmpty kind locked =>
      obtain ⟨empty, closed⟩ := locked.justified
      refine ⟨[], [], by simp [State.setPc], by simp [State.setPc], ?_⟩
      simpa using Effect.popEmpty _ kind locked.popKind empty closed
  | popSleeps kind locked =>
      obtain ⟨rfl, empty, opened⟩ := locked.justified
      refine ⟨[], [], by simp [State.setPc], by simp [State.setPc], ?_⟩
      simpa using Effect.popSleeps _ locked.popKind empty opened
  | popUnlinked kind node record queue targets locked stored signals =>
      refine ⟨[], [(record.func, record.arg)], by simp, rfl, ?_⟩
      have taken :
          (notFull Func Arg).notify targets
              (Function.update state.pc thread
                (.popTake kind node
                  ⟨state.removed.length, record.func, record.arg⟩))
              thread =
            .popTake kind node
              ⟨state.removed.length, record.func, record.arg⟩ := by
        by_cases bounded : state.queue.capacity > 0
        · rw [if_pos bounded] at signals
          rw [CondVar.notify_of_awake signals (by rw [moved]; rfl),
            moved]
        · rw [if_neg bounded] at signals
          rw [signals, CondVar.notify_empty, moved]
      simp only [taken]
      exact .popUnlinked _ kind node record.func record.arg
        locked.popKind locked.justified.1
  | popTaken kind node removal record here stored =>
      refine ⟨[], [], by simp, by simp, ?_⟩
      have supported := refines.supported thread
      rw [here] at supported
      have sameTask : (record.func, record.arg) = removal.task := by
        have task := supported.1
        rw [payload, stored] at task
        exact Option.some.inj task
      obtain ⟨sameFunc, sameArg⟩ := Prod.mk.inj sameTask
      simpa [here, sameFunc, sameArg] using
        Effect.popTaken kind node removal
  | shutdown here =>
      refine ⟨[], [], by simp, by simp, ?_⟩
      have inner :
          (notEmpty Func Arg).broadcast
              (Function.update state.pc thread .shutdownDone) thread =
            .shutdownDone := by
        rw [CondVar.broadcast_of_awake (by rw [moved]; rfl), moved]
      have done :
          (notFull Func Arg).broadcast
              ((notEmpty Func Arg).broadcast
                (Function.update state.pc thread .shutdownDone))
              thread =
            .shutdownDone := by
        rw [CondVar.broadcast_of_awake (by rw [inner]; rfl), inner]
      simp only [done, here]
      exact .shutdown
  | pushFault func arg node locked
  | popFault kind locked
  | pushFreeFault node here missing
  | popTakeFault kind node removal here missing =>
      exact (noFault (moved _)).elim

/-- Nothing that a wake-up leaves alone changes for another thread. -/
theorem Step.observe_other
    {Value : Type*}
    {observe : Pc Func Arg → Value}
    (stable : WakeStable observe)
    (step : Step state thread later)
    {other : Thread}
    (notActor : other ≠ thread) :
    observe (later.pc other) = observe (state.pc other) := by
  have moved :
      ∀ pc, Function.update state.pc thread pc other = state.pc other :=
    fun pc => Function.update_of_ne notActor pc state.pc
  cases step with
  | pushLinked func arg node heap queue targets locked signals =>
      refine (CondVar.notify_stable signals observe
        (wakeNotEmpty_stable observe stable.notEmpty) other).trans ?_
      rw [moved]
  | popUnlinked kind node record queue targets locked stored signals =>
      by_cases bounded : state.queue.capacity > 0
      · rw [if_pos bounded] at signals
        refine (CondVar.notify_stable signals observe
          (wakeNotFull_stable observe stable.notFull) other).trans ?_
        rw [moved]
      · rw [if_neg bounded] at signals
        subst signals
        simp only [CondVar.notify_empty, moved]
  | shutdown here =>
      refine (CondVar.broadcast_stable observe
        (wakeNotFull_stable observe stable.notFull) other).trans ?_
      refine (CondVar.broadcast_stable observe
        (wakeNotEmpty_stable observe stable.notEmpty) other).trans ?_
      rw [moved]
  | _ =>
      exact congrArg observe (moved _)

/-- A step sets the shutdown flag exactly when it is one of `task_queue_shutdown`. -/
theorem Step.shutdown_iff
    (step : Step state thread later) :
    later.queue.shutdown = true ↔
      state.queue.shutdown = true ∨
        state.pc thread = .shutdownEnter := by
  have unchanged
      (notClosing : state.pc thread ≠ .shutdownEnter)
      (same : later.queue.shutdown = state.queue.shutdown) :
      later.queue.shutdown = true ↔
        state.queue.shutdown = true ∨
          state.pc thread = .shutdownEnter := by
    rw [same]
    exact (or_iff_left notClosing).symm
  cases step with
  | alloc func arg priority node submitTime here fresh
  | allocFailed func arg priority here
  | pushFreed node record here stored
  | pushFreeFault node here missing
  | popTaken kind node removal record here stored
  | popTakeFault kind node removal here missing =>
      exact unchanged (by simp [here]) rfl
  | pushRefused func arg node locked
  | pushSleeps func arg node locked
  | pushFault func arg node locked
  | popEmpty kind locked
  | popSleeps kind locked
  | popFault kind locked =>
      exact unchanged locked.notClosing rfl
  | pushLinked func arg node heap queue targets locked signals =>
      exact unchanged locked.notClosing
        (linkNode_settings locked.justified.2.2).2.1
  | popUnlinked kind node record queue targets locked stored signals =>
      exact unchanged locked.notClosing
        (unlinkHead_settings locked.justified.2).2.1
  | shutdown here =>
      exact ⟨fun _ => Or.inr here, fun _ => rfl⟩

end

end SThread.Scheduler
