import SThread.Scheduler.AbstractQueue
import SThread.Scheduler.Refinement
import Mathlib.Order.CompletePartialOrder

namespace SThread.Scheduler

open SThread.Library

/-!
# The life of the task nodes

A queue is used by any number of threads and destroyed when no call is in
progress.  At any time the allocated nodes are those of the chain, those of
pushes that have not linked theirs, and those of removals that have not freed
theirs; nothing is left when the queue has been destroyed.

The free loop of `task_queue_destroy` takes one step for each node.
-/

/-- A queue in use, in the free loop of `task_queue_destroy`, or destroyed. -/
inductive Life (Thread Func Arg : Type) where
  | used (state : State Thread Func Arg)
  | freeing
      (heap : Heap Func Arg)
      (queue : TaskQueue)
      (node : Option Addr)
  | destroyed
      (heap : Heap Func Arg)
      (queue : TaskQueue)
  | fault

section Steps

variable
    {Thread Func Arg : Type}
    [DecidableEq Thread]

/-- One step in the life of a queue. -/
inductive Life.Step :
    Life Thread Func Arg → Life Thread Func Arg → Prop where
  | use
      {state later : State Thread Func Arg}
      (next : Next state later) :
      Step (.used state) (.used later)
  | destroy
      {state : State Thread Func Arg}
      (quiet : ∀ thread, state.pc thread = .idle) :
      Step (.used state)
        (.freeing state.heap state.queue state.queue.head)
  | free
      {heap : Heap Func Arg}
      {queue : TaskQueue}
      {node : Addr}
      {record : TaskNode Func Arg}
      (stored : heap node = some record) :
      Step (.freeing heap queue (some node))
        (.freeing (Function.update heap node none) queue record.next)
  | freeFault
      {heap : Heap Func Arg}
      {queue : TaskQueue}
      {node : Addr}
      (missing : heap node = none) :
      Step (.freeing heap queue (some node)) .fault
  | finish
      {heap : Heap Func Arg}
      {queue : TaskQueue} :
      Step (.freeing heap queue none)
        (.destroyed heap (emptied queue))

/-- All lives of a queue of the given capacity. -/
def lifeSystem
    (Thread Func Arg : Type)
    [DecidableEq Thread]
    (capacity : Nat) : System (Life Thread Func Arg) where
  init life :=
    life = .used (State.initial Thread Func Arg capacity)
  next :=
    Life.Step

end Steps

/-- The node of a push that has allocated it and not linked or freed it. -/
def Pc.pushNode
    {Func Arg : Type} :
    Pc Func Arg → Option Addr
  | .pushEnter _ _ node => some node
  | .pushWait _ _ node _ => some node
  | .pushFree node => some node
  | _ => none

/-- The node of a removal that has unlinked it and not freed it. -/
def Pc.removalNode
    {Func Arg : Type} :
    Pc Func Arg → Option Addr
  | .popTake _ node _ => some node
  | _ => none

/-- A node that a thread owns belongs to its push or to its removal. -/
theorem Pc.owned_iff
    {Func Arg : Type}
    {pc : Pc Func Arg}
    {node : Addr} :
    pc.owned = some node ↔
      pc.pushNode = some node ∨ pc.removalNode = some node := by
  cases pc <;> simp [Pc.owned, Pc.pushNode, Pc.removalNode]

/-- No thread has a node in a push and in a removal. -/
theorem Pc.removalNode_of_pushNode
    {Func Arg : Type}
    {pc : Pc Func Arg}
    {node : Addr}
    (pushes : pc.pushNode = some node) :
    pc.removalNode = none := by
  cases pc <;> simp [Pc.pushNode, Pc.removalNode] at pushes ⊢

section Nodes

variable
    {Thread Func Arg : Type}

/-- The allocated nodes. -/
def allocatedNodes
    (heap : Heap Func Arg) : Set Addr :=
  { node | ∃ record, heap node = some record }

/-- The nodes owned by pushes. -/
def State.pushNodes
    (state : State Thread Func Arg) : Set Addr :=
  { node | ∃ thread, (state.pc thread).pushNode = some node }

/-- The nodes owned by removals. -/
def State.removalNodes
    (state : State Thread Func Arg) : Set Addr :=
  { node | ∃ thread, (state.pc thread).removalNode = some node }

/-- Every allocated node is in the queue or has one owner. -/
structure Partition
    (state : State Thread Func Arg)
    (nodes : List Addr) : Prop where
  invariant : QueueInvariant state.heap state.queue nodes
  union :
    allocatedNodes state.heap =
      { node | node ∈ nodes } ∪ state.pushNodes ∪ state.removalNodes
  queue_push : Disjoint { node | node ∈ nodes } state.pushNodes
  queue_removal : Disjoint { node | node ∈ nodes } state.removalNodes
  push_removal : Disjoint state.pushNodes state.removalNodes
  owner :
    ∀ thread other node,
      (state.pc thread).owned = some node →
      (state.pc other).owned = some node →
      thread = other
  noFault :
    ∀ thread, state.pc thread ≠ .fault

/-- The nodes of a state that refines a channel are partitioned. -/
theorem Refines.partition
    {state : State Thread Func Arg}
    {channel : Channel (Func × Arg)}
    {nodes : List Addr}
    (refines : Refines state channel nodes) :
    Partition state nodes := by
  have ownership := refines.ownership
  refine
    { invariant := refines.represents.invariant.1
      union := ?_
      queue_push := ?_
      queue_removal := ?_
      push_removal := ?_
      owner := ownership.distinct
      noFault := ?_ }
  · ext node
    constructor
    · intro allocated
      obtain ⟨record, stored⟩ := allocated
      rcases ownership.accounted node record stored with
        inChain | ⟨thread, owned⟩
      · exact Or.inl (Or.inl inChain)
      · rcases Pc.owned_iff.mp owned with pushes | removes
        · exact Or.inl (Or.inr ⟨thread, pushes⟩)
        · exact Or.inr ⟨thread, removes⟩
    · intro placed
      rcases placed with (inChain | ⟨thread, pushes⟩) | ⟨thread, removes⟩
      · exact refines.represents.allocated inChain
      · exact ownership.allocated thread node
          (Pc.owned_iff.mpr (Or.inl pushes))
      · exact ownership.allocated thread node
          (Pc.owned_iff.mpr (Or.inr removes))
  · rw [Set.disjoint_right]
    intro node pushes
    obtain ⟨thread, pushes⟩ := pushes
    exact ownership.apart thread node
      (Pc.owned_iff.mpr (Or.inl pushes))
  · rw [Set.disjoint_right]
    intro node removes
    obtain ⟨thread, removes⟩ := removes
    exact ownership.apart thread node
      (Pc.owned_iff.mpr (Or.inr removes))
  · rw [Set.disjoint_left]
    intro node pushes removes
    obtain ⟨thread, pushes⟩ := pushes
    obtain ⟨other, removes⟩ := removes
    have same : thread = other :=
      ownership.distinct thread other node
        (Pc.owned_iff.mpr (Or.inl pushes))
        (Pc.owned_iff.mpr (Or.inr removes))
    subst same
    rw [Pc.removalNode_of_pushNode pushes] at removes
    contradiction
  · intro thread here
    have supported := refines.supported thread
    rw [here] at supported
    exact supported

/-- In a quiet queue only the nodes of the chain are allocated. -/
theorem Partition.quiet
    {state : State Thread Func Arg}
    {nodes : List Addr}
    (partition : Partition state nodes)
    (quiet : ∀ thread, state.pc thread = .idle)
    (node : Addr) :
    (∃ record, state.heap node = some record) ↔ node ∈ nodes := by
  have placed := Set.ext_iff.mp partition.union node
  simpa [allocatedNodes, State.pushNodes, State.removalNodes, quiet,
    Pc.pushNode, Pc.removalNode] using placed

/-- What the free loop has still to free: the rest of the chain, and all. -/
structure Remaining
    (heap : Heap Func Arg)
    (start : Option Addr)
    (rest : List Addr) : Prop where
  chain : Chain (links heap) start rest
  all :
    ∀ node, (∃ record, heap node = some record) ↔ node ∈ rest

/-- The free loop frees everything that remains. -/
theorem Remaining.freeNodes
    {heap : Heap Func Arg}
    {start : Option Addr}
    {rest : List Addr}
    (remaining : Remaining heap start rest) :
    freeNodes rest.length heap start = some (fun _ => none) := by
  rw [(freeNodes_chain remaining.chain le_rfl).2]
  simp only [Option.some.injEq]
  funext node
  unfold withoutNodes
  by_cases isRest : node ∈ rest
  · rw [if_pos isRest]
  · rw [if_neg isRest]
    have missing := mt (remaining.all node).mp isRest
    rw [not_exists] at missing
    exact Option.eq_none_iff_forall_ne_some.mpr missing

/-- One round of the free loop. -/
theorem Remaining.free
    {heap : Heap Func Arg}
    {node : Addr}
    {rest : List Addr}
    (remaining : Remaining heap (some node) rest) :
    ∃ record later,
      heap node = some record ∧
        rest = node :: later ∧
        Remaining (Function.update heap node none) record.next later := by
  have nodup := remaining.chain.nodup
  obtain ⟨next, later, shape, here, chain⟩ := remaining.chain.uncons
  obtain ⟨record, stored, isNext⟩ := Option.map_eq_some_iff.mp here
  subst isNext shape
  have fresh : node ∉ later := (List.nodup_cons.mp nodup).1
  refine ⟨record, later, stored, rfl, ?_, ?_⟩
  · refine chain.congr ?_
    intro other member
    have different : other ≠ node := by
      intro same
      subst same
      exact fresh member
    simp [links, Function.update_of_ne different]
  · intro other
    by_cases isNode : other = node
    · subst isNode
      simp [fresh]
    · have all := remaining.all other
      simpa [isNode] using all

end Nodes

/-- Every node has an owner while the queue lives, and none is left behind. -/
def Life.Sound
    {Thread Func Arg : Type} :
    Life Thread Func Arg → Prop
  | .used state =>
      ∃ nodes, Partition state nodes
  | .freeing heap _ start =>
      ∃ rest,
        Remaining heap start rest ∧
          Scheduler.freeNodes rest.length heap start =
            some (fun _ => none)
  | .destroyed heap queue =>
      (∀ node, heap node = none) ∧
        QueueInvariant heap queue []
  | .fault =>
      False

section Reachable

variable
    {Thread Func Arg : Type}
    [DecidableEq Thread]
    {capacity : Nat}
    {life : Life Thread Func Arg}

/-- A queue in use is a reachable queue. -/
theorem reachable_used
    (reachable :
      (lifeSystem Thread Func Arg capacity).Reachable life)
    {state : State Thread Func Arg}
    (used : life = .used state) :
    (system Thread Func Arg capacity).Reachable state := by
  refine System.Reachable.invariant
    (fun life =>
      ∀ state,
        life = .used state →
        (system Thread Func Arg capacity).Reachable state)
    ?_ ?_ reachable state used
  · intro first initial state used
    rw [initial] at used
    obtain rfl := Life.used.inj used
    exact .start rfl
  · intro before after _ reached step state used
    cases step with
    | use next =>
        obtain rfl := Life.used.inj used
        exact (reached _ rfl).step next
    | _ =>
        cases used

/-- In every reachable life every node is owned once and freed once. -/
theorem reachable_lifeSound
    (reachable :
      (lifeSystem Thread Func Arg capacity).Reachable life) :
    life.Sound := by
  refine System.Reachable.invariant Life.Sound ?_ ?_ reachable
  · intro first initial
    subst initial
    exact ⟨[], (Refines.initial capacity).partition⟩
  · intro before after beforeReachable sound step
    cases step with
    | use next =>
        have used := reachable_used (beforeReachable.step (.use next)) rfl
        obtain ⟨channel, nodes, _, refines⟩ := reachable_refines used
        exact ⟨nodes, refines.partition⟩
    | destroy quiet =>
        obtain ⟨nodes, partition⟩ := sound
        have remaining : Remaining _ _ nodes :=
          ⟨partition.invariant.chain, partition.quiet quiet⟩
        exact ⟨nodes, remaining, remaining.freeNodes⟩
    | free stored =>
        obtain ⟨rest, remaining, _⟩ := sound
        obtain ⟨record, later, here, _, next⟩ := remaining.free
        obtain rfl := Option.some.inj (here.symm.trans stored)
        exact ⟨later, next, next.freeNodes⟩
    | freeFault missing =>
        obtain ⟨rest, remaining, _⟩ := sound
        obtain ⟨record, later, here, _, _⟩ := remaining.free
        rw [missing] at here
        contradiction
    | finish =>
        obtain ⟨rest, remaining, _⟩ := sound
        have empty := remaining.chain.eq_nil
        subst empty
        refine ⟨?_, ?_⟩
        · intro node
          have missing := (remaining.all node).mp
          simpa [Option.eq_none_iff_forall_ne_some] using missing
        · exact
            { chain := rfl
              nodup := List.nodup_nil
              length := rfl
              tail := rfl
              head_iff_tail := Iff.rfl
              tail_iff_count := by simp [emptied] }

end Reachable

/-- A queue is destroyed with a task in it. -/
theorem reachable_lifeSound_destroyed :
    ∃ life : Life (Fin 2) Nat Nat,
      (lifeSystem (Fin 2) Nat Nat 1).Reachable life ∧
        (∃ heap queue, life = .destroyed heap queue) ∧
        life.Sound := by
  have start : (lifeSystem (Fin 2) Nat Nat 1).Reachable _ :=
    .start rfl
  have called := start.step
    (.use (.call 0 (.push (some 7) 8 .normal) rfl))
  have allocated := called.step
    (.use (.step 0 (.alloc 7 8 .normal 0 0 rfl rfl)))
  have signals :
      (notEmpty Nat Nat).Signals
        (Function.update
          (Function.update
            (Function.update (fun _ : Fin 2 => Pc.idle) 0
              (.pushStart 7 8 .normal))
            0 (.pushEnter 7 8 0))
          0 (.pushDone 0))
        ∅ := by
    refine ⟨by simp, ?_⟩
    decide
  have linked := allocated.step
    (.use (.step 0 (.pushLinked 7 8 0 _ _ ∅ (.enter rfl) signals)))
  have returned := linked.step (.use (.ret 0 rfl))
  have freeing := returned.step (.destroy (by decide))
  have freed := freeing.step (.free rfl)
  have destroyed := freed.step .finish
  exact ⟨_, destroyed, ⟨_, _, rfl⟩, reachable_lifeSound destroyed⟩

end SThread.Scheduler
