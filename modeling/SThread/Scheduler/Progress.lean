import SThread.Scheduler.Effect

namespace SThread.Scheduler

open SThread.Library

/-!
# Threads inside a call go on

A thread inside a call of the queue that is not asleep can always take a step:
the lock is free between critical sections, and every critical section ends in
one of its exits.
-/

section

variable
    {Thread Func Arg : Type}
    [DecidableEq Thread]
    {state : State Thread Func Arg}
    {thread : Thread}

/-- The head that was unlinked is allocated. -/
theorem unlinkHead_stored
    {heap : Heap Func Arg}
    {queue queue' : TaskQueue}
    {node : Addr}
    (unlinks : unlinkHead heap queue = some (node, queue')) :
    ∃ record, heap node = some record := by
  unfold unlinkHead at unlinks
  split at unlinks
  · contradiction
  · split at unlinks
    · contradiction
    · rename_i record stored
      obtain ⟨rfl, _⟩ := Prod.mk.inj (Option.some.inj unlinks)
      exact ⟨record, stored⟩

/-- Every section of a push can be left. -/
theorem PushSection.exists_step
    {func : Func}
    {arg : Arg}
    {node : Addr}
    {exit : PushExit Func Arg}
    (locked :
      PushSection state.heap state.queue (state.pc thread)
        func arg node exit) :
    ∃ later, Step state thread later := by
  cases exit with
  | refused =>
      exact ⟨_, .pushRefused func arg node locked⟩
  | sleeps =>
      exact ⟨_, .pushSleeps func arg node locked⟩
  | linked heap queue =>
      obtain ⟨targets, signals⟩ :=
        (notEmpty Func Arg).exists_signals
          (Function.update state.pc thread (.pushDone 0))
      exact ⟨_, .pushLinked func arg node heap queue targets
        locked signals⟩
  | fault =>
      exact ⟨_, .pushFault func arg node locked⟩

/-- Every section of a pop function can be left. -/
theorem PopSection.exists_step
    {kind : PopKind}
    {exit : PopExit}
    (locked :
      PopSection state.heap state.queue (state.pc thread) kind exit) :
    ∃ later, Step state thread later := by
  cases exit with
  | empty =>
      exact ⟨_, .popEmpty kind locked⟩
  | sleeps =>
      exact ⟨_, .popSleeps kind locked⟩
  | unlinked node queue =>
      obtain ⟨record, stored⟩ := unlinkHead_stored locked.justified.2
      obtain ⟨targets, signals⟩ :=
        (notFull Func Arg).exists_signals
          (Function.update state.pc thread
            (.popTake kind node
              ⟨state.removed.length, record.func, record.arg⟩))
      by_cases bounded : state.queue.capacity > 0
      · exact ⟨_, .popUnlinked kind node record queue targets
          locked stored (by rw [if_pos bounded]; exact signals)⟩
      · exact ⟨_, .popUnlinked kind node record queue ∅
          locked stored (by rw [if_neg bounded])⟩
  | fault =>
      exact ⟨_, .popFault kind locked⟩

/-- A thread inside a call that is awake has a step to take. -/
theorem exists_step
    (inside :
      state.pc thread ≠ .idle ∧ (state.pc thread).returned = false)
    (noFault : state.pc thread ≠ .fault)
    (awake :
      (state.pc thread).asleepNotEmpty = false ∧
        (state.pc thread).asleepNotFull = false) :
    ∃ later, Step state thread later := by
  cases here : state.pc thread with
  | idle =>
      exact (inside.1 here).elim
  | fault =>
      exact (noFault here).elim
  | rejected
  | pushDone ret
  | popDone kind result
  | shutdownDone =>
      rw [here] at inside
      exact Bool.noConfusion inside.2
  | pushStart func arg priority =>
      exact ⟨_, .allocFailed func arg priority here⟩
  | pushEnter func arg node =>
      have locked :
          PushSection state.heap state.queue (state.pc thread)
            func arg node (pushEntry state.heap state.queue node) := by
        rw [here]
        exact .enter rfl
      exact locked.exists_step
  | pushWait func arg node wake =>
      have notAsleep : wake ≠ .asleep := by
        intro asleep
        rw [here, asleep] at awake
        exact Bool.noConfusion awake.2
      have locked :
          PushSection state.heap state.queue (state.pc thread)
            func arg node (pushTest state.heap state.queue node) := by
        rw [here]
        exact .resume notAsleep rfl
      exact locked.exists_step
  | pushFree node =>
      cases stored : state.heap node with
      | none =>
          exact ⟨_, .pushFreeFault node here stored⟩
      | some record =>
          exact ⟨_, .pushFreed node record here stored⟩
  | popEnter kind =>
      cases kind with
      | pop =>
          have locked :
              PopSection state.heap state.queue (state.pc thread)
                .pop (popTest state.heap state.queue) := by
            rw [here]
            exact .enter rfl
          exact locked.exists_step
      | tryPop =>
          have locked :
              PopSection state.heap state.queue (state.pc thread)
                .tryPop (tryPopTest state.heap state.queue) := by
            rw [here]
            exact .enterTry rfl
          exact locked.exists_step
  | popWait wake =>
      have notAsleep : wake ≠ .asleep := by
        intro asleep
        rw [here, asleep] at awake
        exact Bool.noConfusion awake.1
      have locked :
          PopSection state.heap state.queue (state.pc thread)
            .pop (popTest state.heap state.queue) := by
        rw [here]
        exact .resume notAsleep rfl
      exact locked.exists_step
  | popTake kind node removal =>
      cases stored : state.heap node with
      | none =>
          exact ⟨_, .popTakeFault kind node removal here stored⟩
      | some record =>
          exact ⟨_, .popTaken kind node removal record here stored⟩
  | shutdownEnter =>
      exact ⟨_, .shutdown here⟩

/-- A thread in a section of `task_queue_push` does not sleep. -/
theorem PushSection.awake
    {heap : Heap Func Arg}
    {queue : TaskQueue}
    {pc : Pc Func Arg}
    {func : Func}
    {arg : Arg}
    {node : Addr}
    {exit : PushExit Func Arg}
    (locked : PushSection heap queue pc func arg node exit) :
    Awake pc := by
  cases locked with
  | enter ends =>
      exact ⟨rfl, rfl⟩
  | @resume _ _ _ wake _ awake ends =>
      cases wake with
      | asleep =>
          exact (awake rfl).elim
      | _ =>
          exact ⟨rfl, rfl⟩

/-- A thread in a section of a pop function does not sleep. -/
theorem PopSection.awake
    {heap : Heap Func Arg}
    {queue : TaskQueue}
    {pc : Pc Func Arg}
    {kind : PopKind}
    {exit : PopExit}
    (locked : PopSection heap queue pc kind exit) :
    Awake pc := by
  cases locked with
  | @resume wake _ awake ends =>
      cases wake with
      | asleep =>
          exact (awake rfl).elim
      | _ =>
          exact ⟨rfl, rfl⟩
  | _ =>
      exact ⟨rfl, rfl⟩

/-- A thread that takes a step does not sleep. -/
theorem Step.awake
    {later : State Thread Func Arg}
    (step : Step state thread later) :
    Awake (state.pc thread) := by
  cases step with
  | pushRefused func arg node locked
  | pushSleeps func arg node locked
  | pushLinked func arg node heap queue targets locked signals
  | pushFault func arg node locked =>
      exact locked.awake
  | popEmpty kind locked
  | popSleeps kind locked
  | popUnlinked kind node record queue targets locked stored signals
  | popFault kind locked =>
      exact locked.awake
  | alloc func arg priority node submitTime here fresh
  | allocFailed func arg priority here
  | pushFreed node record here stored
  | pushFreeFault node here missing
  | popTaken kind node removal record here stored
  | popTakeFault kind node removal here missing
  | shutdown here =>
      rw [here]
      exact ⟨rfl, rfl⟩

/-- A step that links and removes nothing wakes nobody, but for a shutdown. -/
theorem Step.call_other
    {later : State Thread Func Arg}
    (step : Step state thread later)
    (opened : state.pc thread ≠ .shutdownEnter)
    (linked : later.linked = state.linked)
    (removed : later.removed = state.removed)
    {other : Thread}
    (notActor : other ≠ thread) :
    later.pc other = state.pc other := by
  cases step with
  | pushLinked func arg node heap queue targets locked signals =>
      have longer := congrArg List.length linked
      simp at longer
  | popUnlinked kind node record queue targets locked stored signals =>
      have longer := congrArg List.length removed
      simp at longer
  | shutdown here =>
      exact (opened here).elim
  | _ =>
      exact Function.update_of_ne notActor _ state.pc

end

end SThread.Scheduler
