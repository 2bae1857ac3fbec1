import SThread.Library.CondVar
import SThread.Library.Transition
import SThread.Scheduler.TaskQueue

namespace SThread.Scheduler

open SThread.Library

/-!
# Threads on the task queue

Any number of threads call `task_queue_push`, `task_queue_pop`,
`task_queue_try_pop` and `task_queue_shutdown` on one queue.  A critical
section under `queue->lock` is one step; a thread inside `pthread_cond_wait`
has released the lock, is woken by a signal, by a broadcast or spuriously, and
takes the next step when it has the lock again.

The statements outside the lock are steps of their own: the allocation of a
node before it, the `free` of a refused node and the reading and freeing of an
unlinked node after it.

`linked`, `removed` and `Removal` are ghost state.
-/

/-- How far a thread inside `pthread_cond_wait` has got. -/
inductive Wake where
  | asleep
  | notified
  | spurious
  deriving DecidableEq, Repr

/-- The two functions that take a task off the queue. -/
inductive PopKind where
  | pop
  | tryPop
  deriving DecidableEq, Repr

/-- A removal: how many came before it, and the task. -/
structure Removal (Func Arg : Type) where
  index : Nat
  func : Func
  arg : Arg
  deriving DecidableEq, Repr

namespace Removal

/-- The removed task. -/
def task
    {Func Arg : Type}
    (removal : Removal Func Arg) : Func × Arg :=
  (removal.func, removal.arg)

end Removal

/-- Where a thread is in the functions of the queue. -/
inductive Pc (Func Arg : Type) where
  | idle
  | rejected
  | pushStart (func : Func) (arg : Arg) (priority : TaskPriority)
  | pushEnter (func : Func) (arg : Arg) (node : Addr)
  | pushWait (func : Func) (arg : Arg) (node : Addr) (wake : Wake)
  | pushFree (node : Addr)
  | pushDone (ret : Int)
  | popEnter (kind : PopKind)
  | popWait (wake : Wake)
  | popTake (kind : PopKind) (node : Addr) (removal : Removal Func Arg)
  | popDone (kind : PopKind) (result : Option (Removal Func Arg))
  | shutdownEnter
  | shutdownDone
  | fault
  deriving DecidableEq, Repr

/-- A call with its arguments; `none` and `false` stand for `NULL`. -/
inductive Request (Func Arg : Type) where
  | push (func : Option Func) (arg : Arg) (priority : TaskPriority)
  | pop (kind : PopKind) (outputs : Bool)
  | shutdown
  deriving DecidableEq, Repr

/-- The argument checks at the head of each function. -/
def Request.start
    {Func Arg : Type} :
    Request Func Arg → Pc Func Arg
  | .push none _ _ => .rejected
  | .push (some func) arg priority => .pushStart func arg priority
  | .pop _ false => .rejected
  | .pop kind true => .popEnter kind
  | .shutdown => .shutdownEnter

namespace Pc

/-- The thread has finished its call and is about to return. -/
def returned
    {Func Arg : Type} :
    Pc Func Arg → Bool
  | .rejected => true
  | .pushDone _ => true
  | .popDone _ _ => true
  | .shutdownDone => true
  | _ => false

/-- The node a thread has to link, to free, or to read and free. -/
def owned
    {Func Arg : Type} :
    Pc Func Arg → Option Addr
  | .pushEnter _ _ node => some node
  | .pushWait _ _ node _ => some node
  | .pushFree node => some node
  | .popTake _ node _ => some node
  | _ => none

/-- A sleeper after a spurious wake-up. -/
def spurious
    {Func Arg : Type} :
    Pc Func Arg → Option (Pc Func Arg)
  | .pushWait func arg node .asleep =>
      some (.pushWait func arg node .spurious)
  | .popWait .asleep =>
      some (.popWait .spurious)
  | _ => none

/-- Asleep on `not_empty`. -/
def asleepNotEmpty
    {Func Arg : Type} :
    Pc Func Arg → Bool
  | .popWait .asleep => true
  | _ => false

/-- Notified on `not_empty`, not yet back in the lock. -/
def notifiedNotEmpty
    {Func Arg : Type} :
    Pc Func Arg → Bool
  | .popWait .notified => true
  | _ => false

/-- A thread asleep on `not_empty` once it is notified. -/
def wakeNotEmpty
    {Func Arg : Type} :
    Pc Func Arg → Pc Func Arg
  | .popWait .asleep => .popWait .notified
  | pc => pc

/-- Asleep on `not_full`. -/
def asleepNotFull
    {Func Arg : Type} :
    Pc Func Arg → Bool
  | .pushWait _ _ _ .asleep => true
  | _ => false

/-- Notified on `not_full`, not yet back in the lock. -/
def notifiedNotFull
    {Func Arg : Type} :
    Pc Func Arg → Bool
  | .pushWait _ _ _ .notified => true
  | _ => false

/-- A thread asleep on `not_full` once it is notified. -/
def wakeNotFull
    {Func Arg : Type} :
    Pc Func Arg → Pc Func Arg
  | .pushWait func arg node .asleep => .pushWait func arg node .notified
  | pc => pc

/-- The two shapes of a thread asleep in the queue. -/
theorem asleepNotEmpty_iff
    {Func Arg : Type}
    {pc : Pc Func Arg} :
    pc.asleepNotEmpty = true ↔ pc = .popWait .asleep := by
  constructor
  · intro asleep
    cases pc with
    | popWait wake =>
        cases wake <;> simp [asleepNotEmpty] at asleep ⊢
    | _ =>
        simp [asleepNotEmpty] at asleep
  · rintro rfl
    rfl

/-- A thread asleep on `not_full` waits with its node. -/
theorem asleepNotFull_iff
    {Func Arg : Type}
    {pc : Pc Func Arg} :
    pc.asleepNotFull = true ↔
      ∃ func arg node, pc = .pushWait func arg node .asleep := by
  constructor
  · intro asleep
    cases pc with
    | pushWait func arg node wake =>
        cases wake <;> simp [asleepNotFull] at asleep ⊢
    | _ =>
        simp [asleepNotFull] at asleep
  · rintro ⟨func, arg, node, rfl⟩
    rfl

/-- The two ways to wake up spuriously. -/
theorem spurious_cases
    {Func Arg : Type}
    {pc after : Pc Func Arg}
    (wakes : pc.spurious = some after) :
    (∃ func arg node,
        pc = .pushWait func arg node .asleep ∧
          after = .pushWait func arg node .spurious) ∨
      (pc = .popWait .asleep ∧ after = .popWait .spurious) := by
  cases pc with
  | pushWait func arg node wake =>
      cases wake <;> simp [spurious] at wakes
      exact Or.inl ⟨func, arg, node, rfl, wakes.symm⟩
  | popWait wake =>
      cases wake <;> simp [spurious] at wakes
      exact Or.inr ⟨rfl, wakes.symm⟩
  | _ =>
      simp [spurious] at wakes

end Pc

/-- The condition variable `queue->not_empty`. -/
def notEmpty
    (Func Arg : Type) : CondVar (Pc Func Arg) where
  asleep := Pc.asleepNotEmpty
  notified := Pc.notifiedNotEmpty
  wake := Pc.wakeNotEmpty
  wake_not_asleep := by
    intro pc asleep
    rw [Pc.asleepNotEmpty_iff] at asleep
    subst asleep
    rfl
  wake_notified := by
    intro pc asleep
    rw [Pc.asleepNotEmpty_iff] at asleep
    subst asleep
    rfl
  asleep_not_notified := by
    intro pc asleep
    rw [Pc.asleepNotEmpty_iff] at asleep
    subst asleep
    rfl

/-- The condition variable `queue->not_full`. -/
def notFull
    (Func Arg : Type) : CondVar (Pc Func Arg) where
  asleep := Pc.asleepNotFull
  notified := Pc.notifiedNotFull
  wake := Pc.wakeNotFull
  wake_not_asleep := by
    intro pc asleep
    rw [Pc.asleepNotFull_iff] at asleep
    obtain ⟨func, arg, node, rfl⟩ := asleep
    rfl
  wake_notified := by
    intro pc asleep
    rw [Pc.asleepNotFull_iff] at asleep
    obtain ⟨func, arg, node, rfl⟩ := asleep
    rfl
  asleep_not_notified := by
    intro pc asleep
    rw [Pc.asleepNotFull_iff] at asleep
    obtain ⟨func, arg, node, rfl⟩ := asleep
    rfl

/-- A wake-up on `not_empty` changes nothing that these two shapes share. -/
theorem wakeNotEmpty_stable
    {Func Arg : Type}
    {Value : Type*}
    (observe : Pc Func Arg → Value)
    (same :
      observe (.popWait .notified) = observe (.popWait .asleep))
    (pc : Pc Func Arg)
    (asleep : (notEmpty Func Arg).asleep pc = true) :
    observe ((notEmpty Func Arg).wake pc) = observe pc := by
  rw [Pc.asleepNotEmpty_iff.mp asleep]
  exact same

/-- A wake-up on `not_full` changes nothing that these two shapes share. -/
theorem wakeNotFull_stable
    {Func Arg : Type}
    {Value : Type*}
    (observe : Pc Func Arg → Value)
    (same :
      ∀ func arg node,
        observe (.pushWait func arg node .notified) =
          observe (.pushWait func arg node .asleep))
    (pc : Pc Func Arg)
    (asleep : (notFull Func Arg).asleep pc = true) :
    observe ((notFull Func Arg).wake pc) = observe pc := by
  obtain ⟨func, arg, node, shape⟩ := Pc.asleepNotFull_iff.mp asleep
  rw [shape]
  exact same func arg node

/-- A thread that takes the lock in `task_queue_push`, and how it leaves it. -/
inductive PushSection
    {Func Arg : Type}
    (heap : Heap Func Arg)
    (queue : TaskQueue) :
    Pc Func Arg → Func → Arg → Addr → PushExit Func Arg → Prop where
  | enter
      {func : Func}
      {arg : Arg}
      {node : Addr}
      {exit : PushExit Func Arg}
      (ends : pushEntry heap queue node = exit) :
      PushSection heap queue (.pushEnter func arg node)
        func arg node exit
  | resume
      {func : Func}
      {arg : Arg}
      {node : Addr}
      {wake : Wake}
      {exit : PushExit Func Arg}
      (awake : wake ≠ .asleep)
      (ends : pushTest heap queue node = exit) :
      PushSection heap queue (.pushWait func arg node wake)
        func arg node exit

/-- A thread that takes the lock in a pop function, and how it leaves it. -/
inductive PopSection
    {Func Arg : Type}
    (heap : Heap Func Arg)
    (queue : TaskQueue) :
    Pc Func Arg → PopKind → PopExit → Prop where
  | enter
      {exit : PopExit}
      (ends : popTest heap queue = exit) :
      PopSection heap queue (.popEnter .pop) .pop exit
  | resume
      {wake : Wake}
      {exit : PopExit}
      (awake : wake ≠ .asleep)
      (ends : popTest heap queue = exit) :
      PopSection heap queue (.popWait wake) .pop exit
  | enterTry
      {exit : PopExit}
      (ends : tryPopTest heap queue = exit) :
      PopSection heap queue (.popEnter .tryPop) .tryPop exit

/-- The queue, its heap, the threads, and the two ghost histories. -/
structure State (Thread Func Arg : Type) where
  heap : Heap Func Arg
  queue : TaskQueue
  pc : Thread → Pc Func Arg
  linked : List (Func × Arg)
  removed : List (Func × Arg)

namespace State

/-- A queue right after `task_queue_init`. -/
def initial
    (Thread Func Arg : Type)
    (capacity : Nat) : State Thread Func Arg where
  heap := fun _ => none
  queue := taskQueueInit capacity
  pc := fun _ => .idle
  linked := []
  removed := []

/-- Move one thread. -/
def setPc
    {Thread Func Arg : Type}
    [DecidableEq Thread]
    (state : State Thread Func Arg)
    (thread : Thread)
    (pc : Pc Func Arg) : State Thread Func Arg :=
  { state with pc := Function.update state.pc thread pc }

/-- Moving a thread changes its local state only. -/
@[simp] theorem setPc_pc
    {Thread Func Arg : Type}
    [DecidableEq Thread]
    (state : State Thread Func Arg)
    (thread : Thread)
    (pc : Pc Func Arg) :
    (state.setPc thread pc).pc =
      Function.update state.pc thread pc :=
  rfl

/-- Moving a thread leaves the queue alone. -/
@[simp] theorem setPc_queue
    {Thread Func Arg : Type}
    [DecidableEq Thread]
    (state : State Thread Func Arg)
    (thread : Thread)
    (pc : Pc Func Arg) :
    (state.setPc thread pc).queue = state.queue := by
  simp [setPc]

end State

section Steps

variable
    {Thread Func Arg : Type}
    [DecidableEq Thread]

/-- One step of a thread that is inside a call. -/
inductive Step
    (state : State Thread Func Arg)
    (thread : Thread) :
    State Thread Func Arg → Prop where
  | alloc
      (func : Func)
      (arg : Arg)
      (priority : TaskPriority)
      (node : Addr)
      (submitTime : UInt64)
      (here : state.pc thread = .pushStart func arg priority)
      (fresh : state.heap node = none) :
      Step state thread {
        state with
          heap :=
            Function.update state.heap node (some {
              func := func
              arg := arg
              priority := priority
              submitTime := submitTime
              next := none })
          pc :=
            Function.update state.pc thread
              (.pushEnter func arg node) }
  | allocFailed
      (func : Func)
      (arg : Arg)
      (priority : TaskPriority)
      (here : state.pc thread = .pushStart func arg priority) :
      Step state thread (state.setPc thread (.pushDone (-1)))
  | pushRefused
      (func : Func)
      (arg : Arg)
      (node : Addr)
      (locked :
        PushSection state.heap state.queue (state.pc thread)
          func arg node .refused) :
      Step state thread (state.setPc thread (.pushFree node))
  | pushSleeps
      (func : Func)
      (arg : Arg)
      (node : Addr)
      (locked :
        PushSection state.heap state.queue (state.pc thread)
          func arg node .sleeps) :
      Step state thread
        (state.setPc thread (.pushWait func arg node .asleep))
  | pushLinked
      (func : Func)
      (arg : Arg)
      (node : Addr)
      (heap : Heap Func Arg)
      (queue : TaskQueue)
      (targets : Finset Thread)
      (locked :
        PushSection state.heap state.queue (state.pc thread)
          func arg node (.linked heap queue))
      (signals :
        (notEmpty Func Arg).Signals
          (Function.update state.pc thread (.pushDone 0))
          targets) :
      Step state thread {
        state with
          heap := heap
          queue := queue
          pc :=
            (notEmpty Func Arg).notify targets
              (Function.update state.pc thread (.pushDone 0))
          linked := state.linked ++ [(func, arg)] }
  | pushFault
      (func : Func)
      (arg : Arg)
      (node : Addr)
      (locked :
        PushSection state.heap state.queue (state.pc thread)
          func arg node .fault) :
      Step state thread (state.setPc thread .fault)
  | pushFreed
      (node : Addr)
      (record : TaskNode Func Arg)
      (here : state.pc thread = .pushFree node)
      (stored : state.heap node = some record) :
      Step state thread {
        state with
          heap := Function.update state.heap node none
          pc := Function.update state.pc thread (.pushDone (-1)) }
  | pushFreeFault
      (node : Addr)
      (here : state.pc thread = .pushFree node)
      (missing : state.heap node = none) :
      Step state thread (state.setPc thread .fault)
  | popEmpty
      (kind : PopKind)
      (locked :
        PopSection state.heap state.queue (state.pc thread)
          kind .empty) :
      Step state thread (state.setPc thread (.popDone kind none))
  | popSleeps
      (kind : PopKind)
      (locked :
        PopSection state.heap state.queue (state.pc thread)
          kind .sleeps) :
      Step state thread (state.setPc thread (.popWait .asleep))
  | popUnlinked
      (kind : PopKind)
      (node : Addr)
      (record : TaskNode Func Arg)
      (queue : TaskQueue)
      (targets : Finset Thread)
      (locked :
        PopSection state.heap state.queue (state.pc thread)
          kind (.unlinked node queue))
      (stored : state.heap node = some record)
      (signals :
        if state.queue.capacity > 0 then
          (notFull Func Arg).Signals
            (Function.update state.pc thread
              (.popTake kind node
                ⟨state.removed.length, record.func, record.arg⟩))
            targets
        else
          targets = ∅) :
      Step state thread {
        state with
          queue := queue
          pc :=
            (notFull Func Arg).notify targets
              (Function.update state.pc thread
                (.popTake kind node
                  ⟨state.removed.length, record.func, record.arg⟩))
          removed := state.removed ++ [(record.func, record.arg)] }
  | popFault
      (kind : PopKind)
      (locked :
        PopSection state.heap state.queue (state.pc thread)
          kind .fault) :
      Step state thread (state.setPc thread .fault)
  | popTaken
      (kind : PopKind)
      (node : Addr)
      (removal : Removal Func Arg)
      (record : TaskNode Func Arg)
      (here : state.pc thread = .popTake kind node removal)
      (stored : state.heap node = some record) :
      Step state thread {
        state with
          heap := Function.update state.heap node none
          pc :=
            Function.update state.pc thread
              (.popDone kind
                (some ⟨removal.index, record.func, record.arg⟩)) }
  | popTakeFault
      (kind : PopKind)
      (node : Addr)
      (removal : Removal Func Arg)
      (here : state.pc thread = .popTake kind node removal)
      (missing : state.heap node = none) :
      Step state thread (state.setPc thread .fault)
  | shutdown
      (here : state.pc thread = .shutdownEnter) :
      Step state thread {
        state with
          queue := { state.queue with shutdown := true }
          pc :=
            (notFull Func Arg).broadcast
              ((notEmpty Func Arg).broadcast
                (Function.update state.pc thread .shutdownDone)) }

/-- One step of the whole system. -/
inductive Next
    (state : State Thread Func Arg) :
    State Thread Func Arg → Prop where
  | call
      (thread : Thread)
      (request : Request Func Arg)
      (here : state.pc thread = .idle) :
      Next state (state.setPc thread request.start)
  | step
      (thread : Thread)
      {later : State Thread Func Arg}
      (step : Step state thread later) :
      Next state later
  | spurious
      (thread : Thread)
      {pc : Pc Func Arg}
      (wakes : (state.pc thread).spurious = some pc) :
      Next state (state.setPc thread pc)
  | ret
      (thread : Thread)
      (here : (state.pc thread).returned = true) :
      Next state (state.setPc thread .idle)

end Steps

/-- All runs of the threads on a queue of the given capacity. -/
def system
    (Thread Func Arg : Type)
    [DecidableEq Thread]
    (capacity : Nat) : System (State Thread Func Arg) where
  init state :=
    state = State.initial Thread Func Arg capacity
  next :=
    Next

end SThread.Scheduler
