import SThread.Scheduler.System

namespace SThread.Scheduler

/-!
# What the critical sections do

For every way in which a thread leaves the lock in the push and pop functions,
what the code has tested by then.  The proofs about the system use these facts
and never look into the sections again.
-/

/-- There is room for one more node, as `task_queue_push` tests it. -/
def HasRoom (queue : TaskQueue) : Prop :=
  queue.capacity = 0 ∨ queue.count < queue.capacity

/-- The queue is shut down and empty. -/
def Drained (queue : TaskQueue) : Prop :=
  queue.shutdown = true ∧ queue.count = 0

/-- What has been tested when a section of `task_queue_push` ends. -/
def PushExit.Justified
    {Func Arg : Type}
    (heap : Heap Func Arg)
    (queue : TaskQueue)
    (node : Addr) :
    PushExit Func Arg → Prop
  | .refused =>
      queue.shutdown = true
  | .sleeps =>
      queue.shutdown = false ∧ 0 < queue.capacity ∧
        queue.capacity ≤ queue.count
  | .linked heap' queue' =>
      queue.shutdown = false ∧ HasRoom queue ∧
        linkNode heap queue node = some (heap', queue')
  | .fault =>
      linkNode heap queue node = none

/-- What has been tested when a section of a pop function ends. -/
def PopExit.Justified
    {Func Arg : Type}
    (heap : Heap Func Arg)
    (queue : TaskQueue)
    (kind : PopKind) :
    PopExit → Prop
  | .empty =>
      queue.count = 0 ∧ (kind = .pop → queue.shutdown = true)
  | .sleeps =>
      kind = .pop ∧ queue.count = 0 ∧ queue.shutdown = false
  | .unlinked node queue' =>
      queue.count ≠ 0 ∧
        unlinkHead heap queue = some (node, queue')
  | .fault =>
      queue.count ≠ 0 ∧ unlinkHead heap queue = none

/-- The loop of `task_queue_push` ends for the stated reasons. -/
theorem pushTest_justified
    {Func Arg : Type}
    (heap : Heap Func Arg)
    (queue : TaskQueue)
    (node : Addr) :
    (pushTest heap queue node).Justified heap queue node := by
  unfold pushTest
  by_cases full :
      queue.capacity > 0 ∧ queue.count ≥ queue.capacity ∧
        queue.shutdown = false
  · rw [if_pos full]
    exact ⟨full.2.2, full.1, full.2.1⟩
  · rw [if_neg full]
    by_cases closed : queue.shutdown = true
    · rw [if_pos closed]
      exact closed
    · rw [if_neg closed]
      have opened : queue.shutdown = false :=
        Bool.eq_false_iff.mpr closed
      have room : HasRoom queue := by
        unfold HasRoom
        by_contra noRoom
        exact full ⟨by omega, by omega, opened⟩
      cases links : linkNode heap queue node with
      | none =>
          exact links
      | some result =>
          exact ⟨opened, room, links⟩

/-- So does the first section, which checks the shutdown flag once more. -/
theorem pushEntry_justified
    {Func Arg : Type}
    (heap : Heap Func Arg)
    (queue : TaskQueue)
    (node : Addr) :
    (pushEntry heap queue node).Justified heap queue node := by
  unfold pushEntry
  by_cases closed : queue.shutdown = true
  · rw [if_pos closed]
    exact closed
  · rw [if_neg closed]
    exact pushTest_justified heap queue node

/-- Taking the head off a queue whose counter is not zero. -/
theorem takeHead_justified
    {Func Arg : Type}
    {heap : Heap Func Arg}
    {queue : TaskQueue}
    (kind : PopKind)
    (nonempty : queue.count ≠ 0) :
    (takeHead heap queue).Justified heap queue kind := by
  unfold takeHead
  cases unlinks : unlinkHead heap queue with
  | none =>
      exact ⟨nonempty, unlinks⟩
  | some result =>
      exact ⟨nonempty, unlinks⟩

/-- The loop of `task_queue_pop` ends for the stated reasons. -/
theorem popTest_justified
    {Func Arg : Type}
    (heap : Heap Func Arg)
    (queue : TaskQueue) :
    (popTest heap queue).Justified heap queue .pop := by
  unfold popTest
  by_cases waits : queue.count = 0 ∧ queue.shutdown = false
  · rw [if_pos waits]
    exact ⟨rfl, waits⟩
  · rw [if_neg waits]
    by_cases ended : queue.count = 0 ∧ queue.shutdown = true
    · rw [if_pos ended]
      exact ⟨ended.1, fun _ => ended.2⟩
    · rw [if_neg ended]
      apply takeHead_justified
      intro empty
      cases closed : queue.shutdown with
      | false =>
          exact waits ⟨empty, closed⟩
      | true =>
          exact ended ⟨empty, closed⟩

/-- `task_queue_try_pop` fails at once on an empty queue. -/
theorem tryPopTest_justified
    {Func Arg : Type}
    (heap : Heap Func Arg)
    (queue : TaskQueue) :
    (tryPopTest heap queue).Justified heap queue .tryPop := by
  unfold tryPopTest
  by_cases empty : queue.count = 0
  · rw [if_pos empty]
    exact ⟨empty, fun impossible => PopKind.noConfusion impossible⟩
  · rw [if_neg empty]
    exact takeHead_justified .tryPop empty

namespace PushSection

variable
    {Func Arg : Type}
    {heap : Heap Func Arg}
    {queue : TaskQueue}
    {pc : Pc Func Arg}
    {func : Func}
    {arg : Arg}
    {node : Addr}
    {exit : PushExit Func Arg}

/-- Every section of a push ends for the stated reasons. -/
theorem justified
    (locked : PushSection heap queue pc func arg node exit) :
    exit.Justified heap queue node := by
  cases locked with
  | enter ends =>
      exact ends ▸ pushEntry_justified heap queue node
  | resume _ ends =>
      exact ends ▸ pushTest_justified heap queue node

/-- A thread in the section owns the node it wants to link. -/
theorem owned
    (locked : PushSection heap queue pc func arg node exit) :
    pc.owned = some node := by
  cases locked <;> rfl

/-- A push is never notified on `not_empty`. -/
theorem notified
    (locked : PushSection heap queue pc func arg node exit) :
    pc.notifiedNotEmpty = false := by
  cases locked <;> rfl

/-- A push does not shut the queue down. -/
theorem notClosing
    (locked : PushSection heap queue pc func arg node exit) :
    pc ≠ .shutdownEnter := by
  cases locked <;> exact nofun

end PushSection

namespace PopSection

variable
    {Func Arg : Type}
    {heap : Heap Func Arg}
    {queue : TaskQueue}
    {pc : Pc Func Arg}
    {kind : PopKind}
    {exit : PopExit}

/-- Every section of a pop function ends for the stated reasons. -/
theorem justified
    (locked : PopSection heap queue pc kind exit) :
    exit.Justified heap queue kind := by
  cases locked with
  | enter ends =>
      exact ends ▸ popTest_justified heap queue
  | resume _ ends =>
      exact ends ▸ popTest_justified heap queue
  | enterTry ends =>
      exact ends ▸ tryPopTest_justified heap queue

/-- A thread in a pop section owns no node yet. -/
theorem owned
    (locked : PopSection heap queue pc kind exit) :
    pc.owned = none := by
  cases locked <;> rfl

/-- A pop is never notified on `not_full`. -/
theorem notified
    (locked : PopSection heap queue pc kind exit) :
    pc.notifiedNotFull = false := by
  cases locked <;> rfl

/-- A pop does not shut the queue down. -/
theorem notClosing
    (locked : PopSection heap queue pc kind exit) :
    pc ≠ .shutdownEnter := by
  cases locked <;> exact nofun

end PopSection

end SThread.Scheduler
