import SThread.Scheduler.Effect

namespace SThread.Scheduler

open SThread.Library

/-!
# Sleepers on `not_full`

A thread goes to sleep on `not_full` in a step of its own, which finds the
queue full, and nobody but a thread that removes a task or shuts the queue down
wakes it.  When all threads that may remove a task are asleep there, the queue
is full.
-/

section

variable
    {Thread Func Arg : Type}
    [DecidableEq Thread]
    {state later : State Thread Func Arg}
    {thread : Thread}

omit [DecidableEq Thread] in
/-- A thread in a section of `task_queue_push` is awake. -/
theorem PushSection.not_asleepNotFull
    {heap : Heap Func Arg}
    {queue : TaskQueue}
    {pc : Pc Func Arg}
    {func : Func}
    {arg : Arg}
    {node : Addr}
    {exit : PushExit Func Arg}
    (locked : PushSection heap queue pc func arg node exit) :
    pc.asleepNotFull = false := by
  cases locked with
  | enter ends =>
      rfl
  | @resume _ _ _ wake _ awake ends =>
      cases wake with
      | asleep =>
          exact (awake rfl).elim
      | notified
      | spurious =>
          rfl

omit [DecidableEq Thread] in
/-- A thread in a section of a pop function does not wait for room. -/
theorem PopSection.not_asleepNotFull
    {heap : Heap Func Arg}
    {queue : TaskQueue}
    {pc : Pc Func Arg}
    {kind : PopKind}
    {exit : PopExit}
    (locked : PopSection heap queue pc kind exit) :
    pc.asleepNotFull = false := by
  cases locked <;> rfl

/-- A sleeper takes no step. -/
theorem Step.not_asleepNotFull
    (step : Step state thread later) :
    (state.pc thread).asleepNotFull = false := by
  cases step with
  | pushRefused func arg node locked
  | pushSleeps func arg node locked
  | pushLinked func arg node heap queue targets locked signals
  | pushFault func arg node locked =>
      exact locked.not_asleepNotFull
  | popEmpty kind locked
  | popSleeps kind locked
  | popUnlinked kind node record queue targets locked stored signals
  | popFault kind locked =>
      exact locked.not_asleepNotFull
  | alloc func arg priority node submitTime here fresh
  | allocFailed func arg priority here
  | pushFreed node record here stored
  | pushFreeFault node here missing
  | popTaken kind node removal record here stored
  | popTakeFault kind node removal here missing
  | shutdown here =>
      rw [here]
      rfl

/-- Nobody falls asleep in a step of another thread. -/
theorem Step.asleepNotFull_before
    (step : Step state thread later)
    {other : Thread}
    (notActor : other ≠ thread)
    (asleep : (later.pc other).asleepNotFull = true) :
    (state.pc other).asleepNotFull = true := by
  have moved :
      ∀ pc, Function.update state.pc thread pc other = state.pc other :=
    fun pc => Function.update_of_ne notActor pc state.pc
  cases step with
  | pushLinked func arg node heap queue targets locked signals =>
      have same :=
        CondVar.notify_stable signals Pc.asleepNotFull
          (wakeNotEmpty_stable Pc.asleepNotFull rfl) other
      rw [moved] at same
      exact same.symm.trans asleep
  | popUnlinked kind node record queue targets locked stored signals =>
      by_cases bounded : state.queue.capacity > 0
      · rw [if_pos bounded] at signals
        have before := CondVar.asleep_of_notify signals asleep
        rw [moved] at before
        exact before
      · rw [if_neg bounded] at signals
        subst signals
        simpa only [CondVar.notify_empty, moved] using asleep
  | shutdown here =>
      have awake :=
        CondVar.broadcast_awake (notFull Func Arg)
          ((notEmpty Func Arg).broadcast
            (Function.update state.pc thread .shutdownDone))
          other
      exact Bool.noConfusion (awake.symm.trans asleep)
  | _ =>
      exact (congrArg Pc.asleepNotFull (moved _)).symm.trans asleep

/-- A step that removes no task does not make the queue shorter. -/
theorem Step.not_shorter
    (step : Step state thread later)
    (notRemoving : (state.pc thread).popKind = none) :
    later.queue.capacity = state.queue.capacity ∧
      state.queue.count ≤ later.queue.count := by
  cases step with
  | pushLinked func arg node heap queue targets locked signals =>
      obtain ⟨capacity, _, longer⟩ :=
        linkNode_settings locked.justified.2.2
      exact ⟨capacity, by simp [longer]⟩
  | popUnlinked kind node record queue targets locked stored signals =>
      rw [locked.popKind] at notRemoving
      contradiction
  | _ =>
      exact ⟨rfl, le_refl _⟩

/-- A step that neither removes a task nor shuts the queue down wakes no sleeper. -/
theorem Step.asleepNotFull_stays
    (step : Step state thread later)
    (notRemoving : (state.pc thread).popKind = none)
    (notClosing : state.pc thread ≠ .shutdownEnter)
    {other : Thread}
    (notActor : other ≠ thread) :
    (later.pc other).asleepNotFull = (state.pc other).asleepNotFull := by
  have moved :
      ∀ pc, Function.update state.pc thread pc other = state.pc other :=
    fun pc => Function.update_of_ne notActor pc state.pc
  cases step with
  | pushLinked func arg node heap queue targets locked signals =>
      have same :=
        CondVar.notify_stable signals Pc.asleepNotFull
          (wakeNotEmpty_stable Pc.asleepNotFull rfl) other
      rw [moved] at same
      exact same
  | popUnlinked kind node record queue targets locked stored signals =>
      rw [locked.popKind] at notRemoving
      contradiction
  | shutdown here =>
      exact (notClosing here).elim
  | _ =>
      exact congrArg Pc.asleepNotFull (moved _)

/-- A thread that falls asleep has found the queue full. -/
theorem Step.full_of_sleeps
    (step : Step state thread later)
    (asleep : (later.pc thread).asleepNotFull = true) :
    later.queue.capacity ≤ later.queue.count := by
  have moved :
      ∀ pc, Function.update state.pc thread pc thread = pc :=
    fun pc => Function.update_self thread pc state.pc
  cases step with
  | pushSleeps func arg node locked =>
      exact locked.justified.2.2
  | pushLinked func arg node heap queue targets locked signals =>
      have same :=
        CondVar.notify_stable signals Pc.asleepNotFull
          (wakeNotEmpty_stable Pc.asleepNotFull rfl) thread
      rw [moved] at same
      exact Bool.noConfusion (same.symm.trans asleep)
  | popUnlinked kind node record queue targets locked stored signals =>
      by_cases bounded : state.queue.capacity > 0
      · rw [if_pos bounded] at signals
        have before := CondVar.asleep_of_notify signals asleep
        rw [moved] at before
        exact Bool.noConfusion before
      · rw [if_neg bounded] at signals
        subst signals
        simp [Pc.asleepNotFull] at asleep
  | shutdown here =>
      have awake :=
        CondVar.broadcast_awake (notFull Func Arg)
          ((notEmpty Func Arg).broadcast
            (Function.update state.pc thread .shutdownDone))
          thread
      exact Bool.noConfusion (awake.symm.trans asleep)
  | _ =>
      simp [Pc.asleepNotFull] at asleep

/--
When all threads that may remove a task are asleep, the last of them to fall
asleep has found the queue full, and nobody has made it shorter since.
-/
theorem Step.full_of_asleep
    {consumer : Thread → Prop}
    (step : Step state thread later)
    (removes :
      (state.pc thread).popKind ≠ none → consumer thread)
    (before :
      (∀ other,
        consumer other →
        (state.pc other).asleepNotFull = true) →
      state.queue.capacity ≤ state.queue.count)
    (asleep :
      ∀ other,
        consumer other →
        (later.pc other).asleepNotFull = true) :
    later.queue.capacity ≤ later.queue.count := by
  by_cases consumes : consumer thread
  · exact step.full_of_sleeps (asleep thread consumes)
  · have notRemoving : (state.pc thread).popKind = none := by
      by_contra removing
      exact consumes (removes removing)
    obtain ⟨capacity, longer⟩ := step.not_shorter notRemoving
    have full : state.queue.capacity ≤ state.queue.count := by
      apply before
      intro other isConsumer
      have notActor : other ≠ thread := by
        rintro rfl
        exact consumes isConsumer
      exact step.asleepNotFull_before notActor (asleep other isConsumer)
    omega

end

end SThread.Scheduler
