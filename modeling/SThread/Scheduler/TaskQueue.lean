import Mathlib.Logic.Function.Basic
import SThread.Library.Chain

namespace SThread.Scheduler

open SThread.Library

/-!
# The task queue

The shared queue of `scheduler.c`: nodes allocated on the heap and linked
through `next`, with a head pointer, a tail pointer and a counter.  The
functions below are the critical sections of `task_queue_push`,
`task_queue_pop` and `task_queue_try_pop`, from the acquisition of
`queue->lock` to its release by an unlock or by a wait.

`NULL` is `none`.  A dereference of `NULL` or of a cell that is not allocated
ends a section in `fault`.  `count` is a natural number: it counts nodes that
are allocated at the same time.
-/

/-- Addresses of heap cells. -/
abbrev Addr := Nat

/-- `task_priority_t`. -/
inductive TaskPriority where
  | low
  | normal
  | high
  | critical
  deriving DecidableEq, Repr

/-- `task_node_t`. -/
structure TaskNode (Func Arg : Type) where
  func : Func
  arg : Arg
  priority : TaskPriority
  submitTime : UInt64
  next : Option Addr

/-- The task nodes that are allocated. -/
abbrev Heap (Func Arg : Type) := Addr → Option (TaskNode Func Arg)

/-- The data fields of `task_queue_t`. -/
structure TaskQueue where
  head : Option Addr
  tail : Option Addr
  count : Nat
  capacity : Nat
  shutdown : Bool
  deriving DecidableEq, Repr

/-- `task_queue_init`, when its three initialisations succeed. -/
def taskQueueInit (capacity : Nat) : TaskQueue where
  head := none
  tail := none
  count := 0
  capacity := capacity
  shutdown := false

/-- `task_queue_size`. -/
def taskQueueSize (queue : TaskQueue) : Nat :=
  queue.count

/-- The linking statements of `task_queue_push`. -/
def linkNode
    {Func Arg : Type}
    (heap : Heap Func Arg)
    (queue : TaskQueue)
    (node : Addr) : Option (Heap Func Arg × TaskQueue) :=
  match queue.tail with
  | some last =>
      match heap last with
      | none => none
      | some record =>
          some (
            Function.update heap last
              (some { record with next := some node }),
            { queue with
                tail := some node
                count := queue.count + 1 })
  | none =>
      some (heap,
        { queue with
            head := some node
            tail := some node
            count := queue.count + 1 })

/-- The unlinking statements of `task_queue_pop` and `task_queue_try_pop`. -/
def unlinkHead
    {Func Arg : Type}
    (heap : Heap Func Arg)
    (queue : TaskQueue) : Option (Addr × TaskQueue) :=
  match queue.head with
  | none => none
  | some node =>
      match heap node with
      | none => none
      | some record =>
          some (node,
            { queue with
                head := record.next
                tail :=
                  if record.next = none then none else queue.tail
                count := queue.count - 1 })

/-- How a critical section of `task_queue_push` ends. -/
inductive PushExit (Func Arg : Type) where
  | refused
  | sleeps
  | linked (heap : Heap Func Arg) (queue : TaskQueue)
  | fault

/-- How a critical section of the two pop functions ends. -/
inductive PopExit where
  | empty
  | sleeps
  | unlinked (node : Addr) (queue : TaskQueue)
  | fault

/-- `task_queue_push` from the test of its wait loop on. -/
def pushTest
    {Func Arg : Type}
    (heap : Heap Func Arg)
    (queue : TaskQueue)
    (node : Addr) : PushExit Func Arg :=
  if queue.capacity > 0 ∧ queue.count ≥ queue.capacity ∧
      queue.shutdown = false then
    .sleeps
  else if queue.shutdown = true then
    .refused
  else
    match linkNode heap queue node with
    | none => .fault
    | some (heap, queue) => .linked heap queue

/-- `task_queue_push` from its first acquisition of the lock on. -/
def pushEntry
    {Func Arg : Type}
    (heap : Heap Func Arg)
    (queue : TaskQueue)
    (node : Addr) : PushExit Func Arg :=
  if queue.shutdown = true then
    .refused
  else
    pushTest heap queue node

/-- The end of both pop functions, once they know the queue is not empty. -/
def takeHead
    {Func Arg : Type}
    (heap : Heap Func Arg)
    (queue : TaskQueue) : PopExit :=
  match unlinkHead heap queue with
  | none => .fault
  | some (node, queue) => .unlinked node queue

/-- `task_queue_pop` from the test of its wait loop on. -/
def popTest
    {Func Arg : Type}
    (heap : Heap Func Arg)
    (queue : TaskQueue) : PopExit :=
  if queue.count = 0 ∧ queue.shutdown = false then
    .sleeps
  else if queue.count = 0 ∧ queue.shutdown = true then
    .empty
  else
    takeHead heap queue

/-- The critical section of `task_queue_try_pop`. -/
def tryPopTest
    {Func Arg : Type}
    (heap : Heap Func Arg)
    (queue : TaskQueue) : PopExit :=
  if queue.count = 0 then
    .empty
  else
    takeHead heap queue

/--
The free loop of `task_queue_destroy`.  Each round reads the link of a node and
then frees the node; a node that is not allocated stops the loop.
-/
def freeNodes
    {Func Arg : Type} :
    Nat → Heap Func Arg → Option Addr → Option (Heap Func Arg)
  | _, heap, none =>
      some heap
  | 0, _, some _ =>
      none
  | fuel + 1, heap, some node =>
      match heap node with
      | none => none
      | some record =>
          freeNodes fuel (Function.update heap node none) record.next

/-- What `task_queue_destroy` leaves in the queue after its free loop. -/
def emptied (queue : TaskQueue) : TaskQueue :=
  { queue with head := none, tail := none, count := 0 }

/-- The links of the allocated nodes. -/
def links
    {Func Arg : Type}
    (heap : Heap Func Arg)
    (node : Addr) : Option (Option Addr) :=
  (heap node).map TaskNode.next

/-- The task stored in an allocated node. -/
def payload
    {Func Arg : Type}
    (heap : Heap Func Arg)
    (node : Addr) : Option (Func × Arg) :=
  (heap node).map fun record => (record.func, record.arg)

/--
The queue fields and the heap represent a list of tasks: the chain of nodes
from `head` ends in `NULL`, `tail` is its last node, `count` is its length, and
the nodes hold the tasks in this order.
-/
structure Represents
    {Func Arg : Type}
    (heap : Heap Func Arg)
    (queue : TaskQueue)
    (nodes : List Addr)
    (contents : List (Func × Arg)) : Prop where
  chain :
    Chain (links heap) queue.head nodes
  tail :
    queue.tail = nodes.getLast?
  count :
    queue.count = nodes.length
  tasks :
    nodes.map (payload heap) = contents.map some

namespace Represents

/-- A freshly initialised queue represents the empty list. -/
theorem init
    {Func Arg : Type}
    (heap : Heap Func Arg)
    (capacity : Nat) :
    Represents heap (taskQueueInit capacity) [] [] :=
  ⟨rfl, rfl, rfl, rfl⟩

/-- The free loop has nothing to do in an empty queue. -/
theorem destroy_nil
    {Func Arg : Type}
    {heap : Heap Func Arg}
    {queue : TaskQueue}
    {contents : List (Func × Arg)}
    (represents : Represents heap queue [] contents) :
    freeNodes queue.count heap queue.head = some heap ∧
      emptied queue = queue := by
  obtain ⟨chain, tail, count, _⟩ := represents
  obtain ⟨head, last, length, capacity, shutdown⟩ := queue
  obtain rfl : head = none := chain
  obtain rfl : last = none := tail
  obtain rfl : length = 0 := count
  exact ⟨rfl, rfl⟩

/-- As many tasks as nodes. -/
theorem contents_length
    {Func Arg : Type}
    {heap : Heap Func Arg}
    {queue : TaskQueue}
    {nodes : List Addr}
    {contents : List (Func × Arg)}
    (represents : Represents heap queue nodes contents) :
    contents.length = queue.count := by
  have lengths := congrArg List.length represents.tasks
  rw [List.length_map, List.length_map] at lengths
  rw [represents.count, lengths]

/-- The nodes of the chain are allocated. -/
theorem allocated
    {Func Arg : Type}
    {heap : Heap Func Arg}
    {queue : TaskQueue}
    {nodes : List Addr}
    {contents : List (Func × Arg)}
    (represents : Represents heap queue nodes contents)
    {node : Addr}
    (member : node ∈ nodes) :
    ∃ record, heap node = some record := by
  obtain ⟨next, here⟩ := represents.chain.allocated member
  obtain ⟨record, stored, _⟩ := Option.map_eq_some_iff.mp here
  exact ⟨record, stored⟩

/-- Only the nodes of the chain matter. -/
theorem congr
    {Func Arg : Type}
    {before after : Heap Func Arg}
    {queue : TaskQueue}
    {nodes : List Addr}
    {contents : List (Func × Arg)}
    (represents : Represents before queue nodes contents)
    (same : ∀ node ∈ nodes, after node = before node) :
    Represents after queue nodes contents where
  chain :=
    represents.chain.congr
      (fun node member => by
        simp only [links, same node member])
  tail :=
    represents.tail
  count :=
    represents.count
  tasks := by
    rw [← represents.tasks]
    apply List.map_congr_left
    intro node member
    simp only [payload, same node member]

/-- Only `head`, `tail` and `count` matter. -/
theorem congr_queue
    {Func Arg : Type}
    {heap : Heap Func Arg}
    {queue later : TaskQueue}
    {nodes : List Addr}
    {contents : List (Func × Arg)}
    (represents : Represents heap queue nodes contents)
    (head : later.head = queue.head)
    (tail : later.tail = queue.tail)
    (count : later.count = queue.count) :
    Represents heap later nodes contents :=
  ⟨head ▸ represents.chain, tail.trans represents.tail,
    count.trans represents.count, represents.tasks⟩

end Represents

/-- What linking a node changes in the heap: at most the link of one node. -/
structure Relinked
    {Func Arg : Type}
    (before after : Heap Func Arg)
    (nodes : List Addr) : Prop where
  outside :
    ∀ node, node ∉ nodes → after node = before node
  tasks :
    payload after = payload before

/-- Storing another link keeps the task of every node. -/
theorem payload_relink
    {Func Arg : Type}
    {heap : Heap Func Arg}
    {last : Addr}
    {record : TaskNode Func Arg}
    (stored : heap last = some record)
    (next : Option Addr) :
    payload
        (Function.update heap last
          (some { record with next := next })) =
      payload heap := by
  funext node
  by_cases same : node = last
  · subst same
    simp [payload, stored]
  · simp [payload, Function.update_of_ne same]

/--
Linking a fresh node never faults and appends its task to the represented
list.
-/
theorem linkNode_represents
    {Func Arg : Type}
    {heap : Heap Func Arg}
    {queue : TaskQueue}
    {nodes : List Addr}
    {contents : List (Func × Arg)}
    (represents : Represents heap queue nodes contents)
    {node : Addr}
    {record : TaskNode Func Arg}
    (stored : heap node = some record)
    (unlinked : record.next = none)
    (fresh : node ∉ nodes) :
    ∃ heap' queue',
      linkNode heap queue node = some (heap', queue') ∧
        Represents heap' queue' (nodes ++ [node])
          (contents ++ [(record.func, record.arg)]) ∧
        Relinked heap heap' nodes := by
  have tailIs := represents.tail
  cases shape : nodes.getLast? with
  | none =>
      have empty : nodes = [] := List.getLast?_eq_none_iff.mp shape
      subst empty
      rw [List.getLast?_nil] at tailIs
      refine ⟨heap,
        { queue with
            head := some node
            tail := some node
            count := queue.count + 1 },
        by simp [linkNode, tailIs], ?_, ?_⟩
      · refine ⟨?_, rfl, ?_, ?_⟩
        · exact ⟨rfl, none, by simp [links, stored, unlinked], rfl⟩
        · simp [represents.count]
        · have noTasks : contents = [] := by
            have tasks := represents.tasks
            simpa using tasks.symm
          simp [noTasks, payload, stored]
      · exact ⟨fun _ _ => rfl, rfl⟩
  | some last =>
      rw [shape] at tailIs
      have lastMember : last ∈ nodes := List.mem_of_getLast? shape
      obtain ⟨lastRecord, lastStored⟩ :=
        represents.allocated lastMember
      have different : node ≠ last := by
        intro same
        exact fresh (same ▸ lastMember)
      refine ⟨Function.update heap last
          (some { lastRecord with next := some node }),
        { queue with
            tail := some node
            count := queue.count + 1 },
        by simp [linkNode, tailIs, lastStored], ?_, ?_⟩
      · refine ⟨?_, by simp, ?_, ?_⟩
        · apply represents.chain.append_last shape
          · simp [links]
          · simp [links, Function.update_of_ne different,
              stored, unlinked]
          · intro other _ notLast
            simp [links, Function.update_of_ne notLast]
        · simp [represents.count]
        · simp only [List.map_append, List.map_cons, List.map_nil,
            payload_relink lastStored, represents.tasks]
          simp [payload, stored]
      · refine ⟨?_, payload_relink lastStored _⟩
        intro other outside
        apply Function.update_of_ne
        intro same
        exact outside (same ▸ lastMember)

/-- Unlinking leaves the capacity and the shutdown flag alone. -/
theorem unlinkHead_settings
    {Func Arg : Type}
    {heap : Heap Func Arg}
    {queue queue' : TaskQueue}
    {node : Addr}
    (unlinks : unlinkHead heap queue = some (node, queue')) :
    queue'.capacity = queue.capacity ∧
      queue'.shutdown = queue.shutdown ∧
      queue'.count = queue.count - 1 := by
  unfold unlinkHead at unlinks
  cases headIs : queue.head with
  | none =>
      simp [headIs] at unlinks
  | some first =>
      cases stored : heap first with
      | none =>
          simp [headIs, stored] at unlinks
      | some record =>
          simp only [headIs, stored, Option.some.injEq,
            Prod.mk.injEq] at unlinks
          obtain ⟨_, rfl⟩ := unlinks
          exact ⟨rfl, rfl, rfl⟩

/-- Linking leaves the capacity and the shutdown flag alone. -/
theorem linkNode_settings
    {Func Arg : Type}
    {heap heap' : Heap Func Arg}
    {queue queue' : TaskQueue}
    {node : Addr}
    (links : linkNode heap queue node = some (heap', queue')) :
    queue'.capacity = queue.capacity ∧
      queue'.shutdown = queue.shutdown ∧
      queue'.count = queue.count + 1 := by
  unfold linkNode at links
  cases tailIs : queue.tail with
  | none =>
      simp only [tailIs, Option.some.injEq, Prod.mk.injEq] at links
      obtain ⟨_, rfl⟩ := links
      exact ⟨rfl, rfl, rfl⟩
  | some last =>
      cases stored : heap last with
      | none =>
          simp [tailIs, stored] at links
      | some record =>
          simp only [tailIs, stored, Option.some.injEq,
            Prod.mk.injEq] at links
          obtain ⟨_, rfl⟩ := links
          exact ⟨rfl, rfl, rfl⟩

/--
Unlinking the head of a queue that is not empty never faults and removes the
first task of the represented list.
-/
theorem unlinkHead_represents
    {Func Arg : Type}
    {heap : Heap Func Arg}
    {queue : TaskQueue}
    {nodes : List Addr}
    {contents : List (Func × Arg)}
    (represents : Represents heap queue nodes contents)
    (nonempty : queue.count ≠ 0) :
    ∃ node rest task tasks queue',
      nodes = node :: rest ∧
        contents = task :: tasks ∧
        payload heap node = some task ∧
        unlinkHead heap queue = some (node, queue') ∧
        Represents heap queue' rest tasks := by
  cases nodes with
  | nil =>
      exact (nonempty represents.count).elim
  | cons node rest =>
      cases contents with
      | nil =>
          exact absurd represents.tasks (by simp)
      | cons task tasks =>
          obtain ⟨headIs, next, here, later⟩ := represents.chain
          obtain ⟨record, stored, nextIs⟩ :=
            Option.map_eq_some_iff.mp here
          have storedTasks := represents.tasks
          simp only [List.map_cons, List.cons.injEq] at storedTasks
          refine ⟨node, rest, task, tasks,
            { queue with
                head := record.next
                tail :=
                  if record.next = none then none else queue.tail
                count := queue.count - 1 },
            rfl, rfl, storedTasks.1,
            by simp [unlinkHead, headIs, stored], ?_⟩
          refine ⟨?_, ?_, ?_, storedTasks.2⟩
          · simpa [nextIs] using later
          · rw [nextIs, later.start_eq]
            have tailIs := represents.tail
            cases rest with
            | nil =>
                rfl
            | cons second rest =>
                rw [List.getLast?_cons_cons] at tailIs
                simpa using tailIs
          · have counted := represents.count
            rw [List.length_cons] at counted
            simp [counted]

end SThread.Scheduler
