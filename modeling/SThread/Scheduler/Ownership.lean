import SThread.Scheduler.Sections

namespace SThread.Scheduler

/-!
# Who owns a task node

A node that is allocated is either in the chain of the queue or owned by
exactly one thread, and the locals of the threads agree with what the heap and
the history of the queue hold.
-/

/-- A node that is filled in and not linked. -/
def Prepared
    {Func Arg : Type}
    (heap : Heap Func Arg)
    (node : Addr)
    (func : Func)
    (arg : Arg) : Prop :=
  ∃ record,
    heap node = some record ∧
      record.func = func ∧
      record.arg = arg ∧
      record.next = none

/-- What the locals of one thread say about the queue and its history. -/
def Supported
    {Func Arg : Type}
    (heap : Heap Func Arg)
    (queue : TaskQueue)
    (linked : List (Func × Arg)) :
    Pc Func Arg → Prop
  | .pushEnter func arg node =>
      Prepared heap node func arg
  | .pushWait func arg node _ =>
      Prepared heap node func arg
  | .popTake _ node removal =>
      payload heap node = some removal.task ∧
        linked[removal.index]? = some removal.task
  | .popDone _ (some removal) =>
      linked[removal.index]? = some removal.task
  | .popDone .pop none =>
      Drained queue
  | .fault =>
      False
  | _ =>
      True

/-- The locals of a thread stay true when nothing they speak of changes. -/
theorem Supported.mono
    {Func Arg : Type}
    {heap heap' : Heap Func Arg}
    {queue queue' : TaskQueue}
    {linked : List (Func × Arg)}
    (extra : List (Func × Arg))
    {pc : Pc Func Arg}
    (supported : Supported heap queue linked pc)
    (same :
      ∀ node, pc.owned = some node → heap' node = heap node)
    (drained : Drained queue → Drained queue') :
    Supported heap' queue' (linked ++ extra) pc := by
  have history :
      ∀ (index : Nat) (task : Func × Arg),
        linked[index]? = some task →
        (linked ++ extra)[index]? = some task := by
    intro index task here
    obtain ⟨inRange, _⟩ := List.getElem?_eq_some_iff.mp here
    rw [List.getElem?_append_left inRange, here]
  cases pc with
  | pushEnter func arg node =>
      obtain ⟨record, stored, rest⟩ := supported
      exact ⟨record, (same node rfl).trans stored, rest⟩
  | pushWait func arg node wake =>
      obtain ⟨record, stored, rest⟩ := supported
      exact ⟨record, (same node rfl).trans stored, rest⟩
  | popTake kind node removal =>
      refine ⟨?_, history _ _ supported.2⟩
      rw [payload, same node rfl]
      exact supported.1
  | popDone kind result =>
      cases result with
      | some removal =>
          exact history _ _ supported
      | none =>
          cases kind with
          | pop =>
              exact drained supported
          | tryPop =>
              trivial
  | fault =>
      exact supported
  | _ =>
      trivial

/-- Locals that do not speak of the history. -/
theorem Supported.mono_heap
    {Func Arg : Type}
    {heap heap' : Heap Func Arg}
    {queue queue' : TaskQueue}
    {linked : List (Func × Arg)}
    {pc : Pc Func Arg}
    (supported : Supported heap queue linked pc)
    (same :
      ∀ node, pc.owned = some node → heap' node = heap node)
    (drained : Drained queue → Drained queue') :
    Supported heap' queue' linked pc := by
  have extended := supported.mono [] same drained
  rwa [List.append_nil] at extended

/-- The thread sleeps on neither condition variable. -/
def Awake
    {Func Arg : Type}
    (pc : Pc Func Arg) : Prop :=
  pc.asleepNotEmpty = false ∧ pc.asleepNotFull = false

/--
Every allocated node is in the chain or belongs to exactly one thread: the push
that has not linked it, or the removal that has not freed it.
-/
structure Ownership
    {Thread Func Arg : Type}
    (heap : Heap Func Arg)
    (pcs : Thread → Pc Func Arg)
    (nodes : List Addr) : Prop where
  apart :
    ∀ thread node,
      (pcs thread).owned = some node →
      node ∉ nodes
  allocated :
    ∀ thread node,
      (pcs thread).owned = some node →
      ∃ record, heap node = some record
  distinct :
    ∀ thread other node,
      (pcs thread).owned = some node →
      (pcs other).owned = some node →
      thread = other
  accounted :
    ∀ node record,
      heap node = some record →
      node ∈ nodes ∨
        ∃ thread, (pcs thread).owned = some node

namespace Ownership

variable
    {Thread Func Arg : Type}
    {heap : Heap Func Arg}
    {pcs : Thread → Pc Func Arg}
    {nodes : List Addr}

/-- Threads may move as long as their nodes stay with them. -/
theorem repoint
    (ownership : Ownership heap pcs nodes)
    {later : Thread → Pc Func Arg}
    (owns :
      ∀ thread, (later thread).owned = (pcs thread).owned) :
    Ownership heap later nodes where
  apart thread node owned :=
    ownership.apart thread node ((owns thread).symm.trans owned)
  allocated thread node owned :=
    ownership.allocated thread node ((owns thread).symm.trans owned)
  distinct thread other node owned otherOwned :=
    ownership.distinct thread other node
      ((owns thread).symm.trans owned)
      ((owns other).symm.trans otherOwned)
  accounted node record stored := by
    rcases ownership.accounted node record stored with
      inChain | ⟨thread, owned⟩
    · exact Or.inl inChain
    · exact Or.inr ⟨thread, (owns thread).trans owned⟩

/-- A thread that owns nothing else may take a node nobody owns. -/
theorem acquire
    [DecidableEq Thread]
    (ownership : Ownership heap pcs nodes)
    {heap' : Heap Func Arg}
    {nodes' : List Addr}
    {thread : Thread}
    {pc : Pc Func Arg}
    {node : Addr}
    {record : TaskNode Func Arg}
    (unowned : (pcs thread).owned = none)
    (taken : pc.owned = some node)
    (stored : heap' node = some record)
    (same : ∀ cell, cell ≠ node → heap' cell = heap cell)
    (unshared : ∀ other, (pcs other).owned ≠ some node)
    (outside : node ∉ nodes')
    (chain : ∀ cell, cell ≠ node → (cell ∈ nodes' ↔ cell ∈ nodes)) :
    Ownership heap' (Function.update pcs thread pc) nodes' := by
  have owners :
      ∀ other cell,
        (Function.update pcs thread pc other).owned = some cell →
        (other = thread ∧ cell = node) ∨
          (cell ≠ node ∧ (pcs other).owned = some cell) := by
    intro other cell owned
    by_cases actor : other = thread
    · subst actor
      rw [Function.update_self, taken] at owned
      exact Or.inl ⟨rfl, (Option.some.inj owned).symm⟩
    · rw [Function.update_of_ne actor] at owned
      refine Or.inr ⟨?_, owned⟩
      rintro rfl
      exact unshared other owned
  refine ⟨?_, ?_, ?_, ?_⟩
  · intro other cell owned
    rcases owners other cell owned with ⟨_, isNode⟩ | ⟨notNode, before⟩
    · rw [isNode]
      exact outside
    · rw [chain cell notNode]
      exact ownership.apart other cell before
  · intro other cell owned
    rcases owners other cell owned with ⟨_, isNode⟩ | ⟨notNode, before⟩
    · rw [isNode]
      exact ⟨record, stored⟩
    · rw [same cell notNode]
      exact ownership.allocated other cell before
  · intro first second cell firstOwns secondOwns
    rcases owners first cell firstOwns with
        ⟨firstActor, firstNode⟩ | ⟨firstOther, firstBefore⟩ <;>
      rcases owners second cell secondOwns with
        ⟨secondActor, secondNode⟩ | ⟨secondOther, secondBefore⟩
    · rw [firstActor, secondActor]
    · exact (secondOther firstNode).elim
    · exact (firstOther secondNode).elim
    · exact ownership.distinct first second cell
        firstBefore secondBefore
  · intro cell content here
    by_cases isNode : cell = node
    · refine Or.inr ⟨thread, ?_⟩
      rw [Function.update_self, taken, isNode]
    · rw [same cell isNode] at here
      rcases ownership.accounted cell content here with
        inChain | ⟨other, owned⟩
      · exact Or.inl ((chain cell isNode).mpr inChain)
      · refine Or.inr ⟨other, ?_⟩
        have notActor : other ≠ thread := by
          rintro rfl
          rw [unowned] at owned
          contradiction
        rw [Function.update_of_ne notActor]
        exact owned

/-- A thread may give its node away, to the chain or back to the allocator. -/
theorem release
    [DecidableEq Thread]
    (ownership : Ownership heap pcs nodes)
    {heap' : Heap Func Arg}
    {nodes' : List Addr}
    {thread : Thread}
    {pc : Pc Func Arg}
    {node : Addr}
    (owned : (pcs thread).owned = some node)
    (given : pc.owned = none)
    (kept :
      ∀ cell,
        cell ≠ node →
        ((∃ record, heap' cell = some record) ↔
          ∃ record, heap cell = some record))
    (placed :
      (∃ record, heap' node = some record) → node ∈ nodes')
    (chain : ∀ cell, cell ≠ node → (cell ∈ nodes' ↔ cell ∈ nodes)) :
    Ownership heap' (Function.update pcs thread pc) nodes' := by
  have owners :
      ∀ other cell,
        (Function.update pcs thread pc other).owned = some cell →
        cell ≠ node ∧ (pcs other).owned = some cell := by
    intro other cell otherOwned
    by_cases actor : other = thread
    · subst actor
      rw [Function.update_self, given] at otherOwned
      contradiction
    · rw [Function.update_of_ne actor] at otherOwned
      refine ⟨?_, otherOwned⟩
      rintro rfl
      exact actor
        (ownership.distinct other thread cell otherOwned owned)
  refine ⟨?_, ?_, ?_, ?_⟩
  · intro other cell otherOwned
    obtain ⟨notNode, before⟩ := owners other cell otherOwned
    rw [chain cell notNode]
    exact ownership.apart other cell before
  · intro other cell otherOwned
    obtain ⟨notNode, before⟩ := owners other cell otherOwned
    exact (kept cell notNode).mpr
      (ownership.allocated other cell before)
  · intro first second cell firstOwns secondOwns
    exact ownership.distinct first second cell
      (owners first cell firstOwns).2
      (owners second cell secondOwns).2
  · intro cell content here
    by_cases isNode : cell = node
    · subst isNode
      exact Or.inl (placed ⟨content, here⟩)
    · obtain ⟨before, stored⟩ := (kept cell isNode).mp ⟨content, here⟩
      rcases ownership.accounted cell before stored with
        inChain | ⟨other, otherOwned⟩
      · exact Or.inl ((chain cell isNode).mpr inChain)
      · refine Or.inr ⟨other, ?_⟩
        have notActor : other ≠ thread := by
          rintro rfl
          rw [owned] at otherOwned
          exact isNode (Option.some.inj otherOwned).symm
        rw [Function.update_of_ne notActor]
        exact otherOwned

end Ownership

end SThread.Scheduler
