import SThread.Scheduler.TaskQueue

namespace SThread.Scheduler

open SThread.Library

/-!
# The linked list implements a queue of tasks

The representation invariant of the list, stated on the pointers and the
counter, and what the functions of the queue do to the list of tasks behind
it: push appends, the two pop functions remove the first task, and the free
loop of `task_queue_destroy` visits every node once.
-/

/-- Both pop functions, once they have released the lock: read and free. -/
def takeNode
    {Func Arg : Type}
    (heap : Heap Func Arg)
    (node : Addr) : Option ((Func × Arg) × Heap Func Arg) :=
  match heap node with
  | none => none
  | some record =>
      some ((record.func, record.arg), Function.update heap node none)

/-- What a pop function has done when it returns or sleeps. -/
inductive PopOutcome (Func Arg : Type) where
  | failed
  | sleeps
  | removed
      (task : Func × Arg)
      (heap : Heap Func Arg)
      (queue : TaskQueue)
  | fault

/-- A pop function after its critical section. -/
def finishPop
    {Func Arg : Type}
    (heap : Heap Func Arg) : PopExit → PopOutcome Func Arg
  | .empty => .failed
  | .sleeps => .sleeps
  | .fault => .fault
  | .unlinked node queue =>
      match takeNode heap node with
      | none => .fault
      | some (task, heap) => .removed task heap queue

/-- `task_queue_pop`, up to its return or its wait. -/
def taskQueuePop
    {Func Arg : Type}
    (heap : Heap Func Arg)
    (queue : TaskQueue) : PopOutcome Func Arg :=
  finishPop heap (popTest heap queue)

/-- `task_queue_try_pop`. -/
def taskQueueTryPop
    {Func Arg : Type}
    (heap : Heap Func Arg)
    (queue : TaskQueue) : PopOutcome Func Arg :=
  finishPop heap (tryPopTest heap queue)

/-- The nodes that the free loop of `task_queue_destroy` frees, in order. -/
def freedNodes
    {Func Arg : Type} :
    Nat → Heap Func Arg → Option Addr → List Addr
  | _, _, none =>
      []
  | 0, _, some _ =>
      []
  | fuel + 1, heap, some node =>
      match heap node with
      | none => []
      | some record =>
          node ::
            freedNodes fuel (Function.update heap node none) record.next

/-- The heap without some nodes. -/
def withoutNodes
    {Func Arg : Type}
    (heap : Heap Func Arg)
    (nodes : List Addr) : Heap Func Arg :=
  fun addr => if addr ∈ nodes then none else heap addr

/-- The representation invariant of the list; `nodes` is the chain. -/
structure QueueInvariant
    {Func Arg : Type}
    (heap : Heap Func Arg)
    (queue : TaskQueue)
    (nodes : List Addr) : Prop where
  chain : Chain (links heap) queue.head nodes
  nodup : nodes.Nodup
  length : nodes.length = queue.count
  tail : queue.tail = nodes.getLast?
  head_iff_tail : queue.head = none ↔ queue.tail = none
  tail_iff_count : queue.tail = none ↔ queue.count = 0

/-- The list of tasks that a chain of nodes stands for. -/
def contents
    {Func Arg : Type}
    (heap : Heap Func Arg)
    (nodes : List Addr) : List (Func × Arg) :=
  nodes.filterMap (payload heap)

section

variable
    {Func Arg : Type}
    {heap : Heap Func Arg}
    {queue : TaskQueue}
    {nodes : List Addr}

/-- A queue that satisfies the invariant represents its contents. -/
theorem QueueInvariant.represents
    (invariant : QueueInvariant heap queue nodes) :
    Represents heap queue nodes (contents heap nodes) where
  chain := invariant.chain
  tail := invariant.tail
  count := invariant.length.symm
  tasks := by
    have allocated :
        ∀ node ∈ nodes, ∃ next, links heap node = some next :=
      fun node member => invariant.chain.allocated member
    unfold contents
    clear invariant
    induction nodes with
    | nil =>
        rfl
    | cons node rest inductionHypothesis =>
        obtain ⟨next, here⟩ := allocated node List.mem_cons_self
        obtain ⟨record, stored, _⟩ := Option.map_eq_some_iff.mp here
        have later :=
          inductionHypothesis
            (fun other member =>
              allocated other (List.mem_cons_of_mem node member))
        simp [payload, stored] at later ⊢
        exact later

/-- A represented list satisfies the invariant, and it is the contents. -/
theorem Represents.invariant
    {tasks : List (Func × Arg)}
    (represents : Represents heap queue nodes tasks) :
    QueueInvariant heap queue nodes ∧ contents heap nodes = tasks := by
  constructor
  · refine
      { chain := represents.chain
        nodup := represents.chain.nodup
        length := represents.count.symm
        tail := represents.tail
        head_iff_tail := ?_
        tail_iff_count := ?_ }
    · rw [represents.chain.start_eq, represents.tail,
        List.head?_eq_none_iff, List.getLast?_eq_none_iff]
    · rw [represents.tail, represents.count,
        List.getLast?_eq_none_iff, List.length_eq_zero_iff]
  · have mapped := congrArg (List.filterMap id) represents.tasks
    simpa [contents, List.filterMap_map, Function.comp_def] using mapped

end

/-- The free loop frees the nodes of the chain and stops at its end. -/
theorem freeNodes_chain
    {Func Arg : Type}
    {heap : Heap Func Arg}
    {start : Option Addr}
    {nodes : List Addr}
    {fuel : Nat}
    (chain : Chain (links heap) start nodes)
    (enough : nodes.length ≤ fuel) :
    freedNodes fuel heap start = nodes ∧
      freeNodes fuel heap start = some (withoutNodes heap nodes) := by
  induction nodes generalizing heap start fuel with
  | nil =>
      obtain rfl : start = none := chain
      have same : withoutNodes heap [] = heap := by
        funext addr
        simp [withoutNodes]
      simp [freedNodes, freeNodes, same]
  | cons node rest inductionHypothesis =>
      have nodup := chain.nodup
      obtain ⟨rfl, next, here, later⟩ := chain
      obtain ⟨record, stored, rfl⟩ := Option.map_eq_some_iff.mp here
      cases fuel with
      | zero =>
          simp at enough
      | succ fuel =>
          -- the rest of the chain does not come back to the freed node
          have still :
              Chain (links (Function.update heap node none))
                record.next rest := by
            refine later.congr ?_
            intro other member
            have different : other ≠ node := by
              intro same
              subst same
              exact (List.nodup_cons.mp nodup).1 member
            simp [links, Function.update_of_ne different]
          obtain ⟨visits, frees⟩ :=
            inductionHypothesis still (by simpa using enough)
          refine ⟨by simp [freedNodes, stored, visits], ?_⟩
          rw [freeNodes, stored]
          simp only [frees, Option.some.injEq]
          funext addr
          by_cases isNode : addr = node
          · simp [withoutNodes, isNode]
          · simp [withoutNodes, isNode]

/-- What the functions of the queue do to the list of tasks. -/
structure ImplementsQueue
    {Func Arg : Type}
    (heap : Heap Func Arg)
    (queue : TaskQueue)
    (nodes : List Addr) : Prop where
  push :
    ∀ node record,
      heap node = some record →
      record.next = none →
      node ∉ nodes →
      queue.shutdown = false →
      queue.capacity = 0 ∨ queue.count < queue.capacity →
      ∃ heap' queue',
        pushEntry heap queue node = .linked heap' queue' ∧
          pushTest heap queue node = .linked heap' queue' ∧
          QueueInvariant heap' queue' (nodes ++ [node]) ∧
          contents heap' (nodes ++ [node]) =
            contents heap nodes ++ [(record.func, record.arg)] ∧
          ∀ other, other ∉ nodes → heap' other = heap other
  push_full :
    ∀ node : Addr,
      queue.shutdown = false →
      0 < queue.capacity →
      queue.capacity ≤ queue.count →
      pushEntry heap queue node = .sleeps ∧
        pushTest heap queue node = .sleeps
  push_refused :
    ∀ node : Addr,
      queue.shutdown = true →
      pushEntry heap queue node = .refused ∧
        pushTest heap queue node = .refused
  pop :
    0 < queue.count →
    ∃ task rest heap' queue' nodes',
      taskQueuePop heap queue = .removed task heap' queue' ∧
        contents heap nodes = task :: rest ∧
        QueueInvariant heap' queue' nodes' ∧
        contents heap' nodes' = rest
  tryPop_empty :
    queue.count = 0 →
    taskQueueTryPop heap queue = .failed ∧ contents heap nodes = []
  tryPop_same :
    0 < queue.count →
    taskQueueTryPop heap queue = taskQueuePop heap queue
  destroy :
    ∀ fuel,
      queue.count ≤ fuel →
      freedNodes fuel heap queue.head = nodes ∧
        freeNodes fuel heap queue.head =
          some (withoutNodes heap nodes)

/-- The functions of the queue implement a list of tasks. -/
theorem queue_implements
    {Func Arg : Type}
    {heap : Heap Func Arg}
    {queue : TaskQueue}
    {nodes : List Addr}
    (invariant : QueueInvariant heap queue nodes) :
    ImplementsQueue heap queue nodes where
  push := by
    intro node record stored unlinked fresh opened room
    obtain ⟨heap', queue', links, represents, relinked⟩ :=
      linkNode_represents invariant.represents stored unlinked fresh
    have notFull :
        ¬ (queue.capacity > 0 ∧ queue.count ≥ queue.capacity ∧
          queue.shutdown = false) := by
      omega
    have ends : pushTest heap queue node = .linked heap' queue' := by
      rw [pushTest, if_neg notFull]
      simp [opened, links]
    have invariant' := represents.invariant
    exact ⟨heap', queue', by simp [pushEntry, opened, ends], ends,
      invariant'.1, invariant'.2, relinked.outside⟩
  push_full := by
    intro node opened bounded full
    simp [pushEntry, pushTest, opened, bounded, full]
  push_refused := by
    intro node closed
    simp [pushEntry, pushTest, closed]
  pop := by
    intro nonempty
    have notEmpty : queue.count ≠ 0 := by omega
    obtain ⟨node, rest, task, tasks, queue', shape, split, here,
        unlinks, represents⟩ :=
      unlinkHead_represents invariant.represents notEmpty
    obtain ⟨record, stored, isTask⟩ := Option.map_eq_some_iff.mp here
    have nodup := invariant.nodup
    rw [shape, List.nodup_cons] at nodup
    have freed :
        Represents (Function.update heap node none) queue' rest tasks := by
      refine represents.congr ?_
      intro other member
      apply Function.update_of_ne
      intro same
      subst same
      exact nodup.1 member
    refine ⟨task, tasks, Function.update heap node none, queue', rest,
      ?_, split, freed.invariant⟩
    simp [taskQueuePop, popTest, notEmpty, takeHead, unlinks, finishPop,
      takeNode, stored, isTask]
  tryPop_empty := by
    intro empty
    refine ⟨by simp [taskQueueTryPop, tryPopTest, empty, finishPop], ?_⟩
    have lengths := invariant.represents.contents_length
    rw [empty] at lengths
    exact List.length_eq_zero_iff.mp lengths
  tryPop_same := by
    intro nonempty
    have notEmpty : queue.count ≠ 0 := by omega
    simp [taskQueueTryPop, taskQueuePop, popTest, tryPopTest, notEmpty]
  destroy := by
    intro fuel enough
    apply freeNodes_chain invariant.chain
    rw [invariant.length]
    exact enough

/-- A queue of two tasks that is full. -/
theorem queue_implements_full :
    ImplementsQueue
      (fun addr =>
        if addr = 10 then some ⟨7, 1, .normal, 0, some 20⟩
        else if addr = 20 then some ⟨8, 2, .high, 0, none⟩
        else none)
      ⟨some 10, some 20, 2, 2, false⟩
      [10, 20] := by
  apply queue_implements
  refine
    { chain := ⟨rfl, some 20, rfl, rfl, none, rfl, rfl⟩
      nodup := by simp
      length := rfl
      tail := rfl
      head_iff_tail := by simp
      tail_iff_count := by simp }

end SThread.Scheduler
