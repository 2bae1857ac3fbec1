import SThread.Library.CInt
import SThread.Library.RingBuffer
import SThread.Sync.HandOffTokens

namespace SThread.Examples.BoundedBuffer

open SThread.Library
open SThread.Scheduler (Wake)
open SThread.Sync
open SThread.Sync.HandOff (Party credit)

/-!
# The bounded buffer

Any number of `producer_task` and `consumer_task` around one buffer, with the
semaphores `empty_slots` and `full_slots` and the mutex `buffer_lock`.  A
producer waits for an empty slot and posts a full one, a consumer the other way
round; in between each accesses the buffer inside the mutex.

A step is a step of one of the two semaphores, an operation on the mutex, or
one assignment of a task to the buffer, its index or the sum.  The numbers of
items are not negative and fit into an `int`, and so do the items; a sum is an
`int` that may overflow.  `produced` and `consumed` are ghost state, as is the
mark of the unread slots.
-/

/-- Who takes part, how many items each task handles, and the slots. -/
structure Program (Thread : Type) where
  role : Thread → Party
  items : Thread → Nat
  items_fit : ∀ thread, IntType.int.Represents (items thread)
  slots : UInt32
  slots_pos : 0 < slots.toNat

/-- `example_semaphore`: one producer, one consumer, 20 items and 5 slots. -/
def exampleSemaphore : Program Bool where
  role thread := if thread then .consumer else .producer
  items _ := 20
  items_fit _ := by decide
  slots := 5
  slots_pos := by decide

/-- Where a thread is in one round of its loop. -/
inductive Place where
  | loop
  | waiting
  | locking
  | access
  | bumping
  | unlocking
  | post
  | posting
  | adding
  deriving DecidableEq, Repr

namespace Place

/-- The thread is between its lock and its unlock. -/
def inside : Place → Bool
  | .access => true
  | .bumping => true
  | .unlocking => true
  | _ => false

/-- The thread has taken its token in this round. -/
def taken : Place → Bool
  | .loop => false
  | .waiting => false
  | _ => true

/-- The thread is done with the buffer in this round. -/
def accessed : Place → Bool
  | .unlocking => true
  | .post => true
  | .posting => true
  | .adding => true
  | _ => false

/-- The thread has posted in this round. -/
def posted : Place → Bool
  | .adding => true
  | _ => false

end Place

/-- The semaphores, the mutex, the buffer, and the threads. -/
structure State (Thread : Type) where
  sems : Party → Sync.State Thread
  lock : Option Thread
  ring : RingBuffer Nat
  place : Thread → Place
  rounds : Thread → Nat
  item : Thread → Nat
  sum : Thread → CInt .int
  produced : List (Thread × Nat)
  consumed : List (Thread × Nat)

/-- Right after the initialisation of the semaphores and of the mutex. -/
def initial
    {Thread : Type}
    (program : Program Thread) : State Thread where
  sems := fun owner => Sync.State.initial Thread (credit program.slots owner)
  lock := none
  ring := RingBuffer.initial 0
  place := fun _ => .loop
  rounds := fun _ => 0
  item := fun _ => 0
  sum := fun _ => 0
  produced := []
  consumed := []

section Steps

variable
    {Thread : Type}
    [DecidableEq Thread]

namespace State

/-- Replace one of the semaphores. -/
def setSem
    (state : State Thread)
    (owner : Party)
    (sem : Sync.State Thread) : State Thread :=
  { state with sems := Function.update state.sems owner sem }

/-- Move a thread in its loop. -/
def setPlace
    (state : State Thread)
    (thread : Thread)
    (place : Place) : State Thread :=
  { state with place := Function.update state.place thread place }

/-- A thread has finished one more round. -/
def finish
    (state : State Thread)
    (thread : Thread) : State Thread :=
  { state.setPlace thread .loop with
    rounds :=
      Function.update state.rounds thread (state.rounds thread + 1) }

/-- A thread goes on behind its call; only a consumer has something to add. -/
def goOn
    (program : Program Thread)
    (state : State Thread)
    (thread : Thread) : State Thread :=
  match state.place thread, program.role thread with
  | .waiting, _ => state.setPlace thread .locking
  | .posting, .producer => state.finish thread
  | .posting, .consumer => state.setPlace thread .adding
  | _, _ => state

end State

/-- What a thread does next. -/
inductive Act
    (program : Program Thread)
    (state : State Thread) :
    State Thread → Prop where
  | callWait
      (thread : Thread)
      (pc : Pc)
      (here : state.place thread = .loop)
      (more : state.rounds thread < program.items thread)
      (starts :
        Request.wait.start (state.sems (program.role thread)).sem =
          some pc) :
      Act program state
        ((state.setSem (program.role thread)
          ((state.sems (program.role thread)).setPc thread pc)).setPlace
            thread .waiting)
  | waitRefused
      (thread : Thread)
      (here : state.place thread = .loop)
      (more : state.rounds thread < program.items thread)
      (refused :
        Request.wait.start (state.sems (program.role thread)).sem =
          none) :
      Act program state (state.setPlace thread .locking)
  | lock
      (thread : Thread)
      (here : state.place thread = .locking)
      (free : state.lock = none) :
      Act program state
        { state.setPlace thread .access with lock := some thread }
  | store
      (thread : Thread)
      (producer : program.role thread = .producer)
      (here : state.place thread = .access) :
      Act program state
        { state.setPlace thread .bumping with
          ring := state.ring.store (state.rounds thread + 1) }
  | push
      (thread : Thread)
      (producer : program.role thread = .producer)
      (here : state.place thread = .bumping) :
      Act program state
        { state.setPlace thread .unlocking with
          ring := state.ring.push program.slots.toNat
          produced :=
            state.produced ++ [(thread, state.rounds thread + 1)] }
  | load
      (thread : Thread)
      (consumer : program.role thread = .consumer)
      (here : state.place thread = .access) :
      Act program state
        { state.setPlace thread .bumping with
          item := Function.update state.item thread state.ring.next }
  | advance
      (thread : Thread)
      (consumer : program.role thread = .consumer)
      (here : state.place thread = .bumping) :
      Act program state
        { state.setPlace thread .unlocking with
          ring := state.ring.advance program.slots.toNat
          consumed := state.consumed ++ [(thread, state.item thread)] }
  | unlock
      (thread : Thread)
      (here : state.place thread = .unlocking) :
      Act program state
        { state.setPlace thread .post with lock := none }
  | callPost
      (thread : Thread)
      (pc : Pc)
      (here : state.place thread = .post)
      (starts :
        Request.post.start
            (state.sems (program.role thread).other).sem =
          some pc) :
      Act program state
        ((state.setSem (program.role thread).other
          ((state.sems (program.role thread).other).setPc
            thread pc)).setPlace thread .posting)
  | postRefused
      (thread : Thread)
      (here : state.place thread = .post)
      (refused :
        Request.post.start
            (state.sems (program.role thread).other).sem =
          none) :
      Act program state
        ((state.setPlace thread .posting).goOn program thread)
  | inside
      (owner : Party)
      (thread : Thread)
      (sem : Sync.State Thread)
      (step : Step (state.sems owner) thread sem)
      (stays : sem.pc thread ≠ .idle) :
      Act program state (state.setSem owner sem)
  | returns
      (owner : Party)
      (thread : Thread)
      (sem : Sync.State Thread)
      (step : Step (state.sems owner) thread sem)
      (leaves : sem.pc thread = .idle) :
      Act program state ((state.setSem owner sem).goOn program thread)
  | add
      (thread : Thread)
      (here : state.place thread = .adding) :
      Act program state
        { state.finish thread with
          sum :=
            Function.update state.sum thread
              (state.sum thread + CInt.ofInt .int (state.item thread)) }

/-- One step of the tasks: a thread acts, or wakes up for no reason. -/
inductive Next
    (program : Program Thread)
    (state : State Thread) :
    State Thread → Prop where
  | act
      {later : State Thread}
      (act : Act program state later) :
      Next program state later
  | spurious
      (owner : Party)
      (thread : Thread)
      (here : (state.sems owner).pc thread = .waiting .asleep) :
      Next program state
        (state.setSem owner
          ((state.sems owner).setPc thread (.waiting .spurious)))

/-- All runs of the tasks. -/
def system
    (program : Program Thread) : System (State Thread) where
  init state :=
    state = initial program
  next :=
    Next program

end Steps

end SThread.Examples.BoundedBuffer
