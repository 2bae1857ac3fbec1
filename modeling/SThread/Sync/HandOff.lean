import SThread.Library.CInt
import SThread.Library.RingBuffer
import SThread.Sync.SemWakeup

namespace SThread.Sync.HandOff

open SThread.Library
open SThread.Scheduler (Wake)

/-!
# Handing items over with two semaphores

One producer and one consumer around a ring, as in the producer and consumer
threads of the tests and examples.  Each waits on a semaphore of its own and
posts the other's: the producer waits for space, the consumer for items.

A step is a step of one of the two semaphores, or the access of one thread to
the ring between its wait and its post.  Nothing but the two semaphores keeps
these accesses apart.  The number of items is an `int` in the code, so every
item is one, too; the sum of the consumer is an `int` that may overflow.
`reads` is ghost state.
-/

/-- The two threads; each of them names the semaphore that it waits on. -/
inductive Party where
  | producer
  | consumer
  deriving DecidableEq, Repr

/-- The thread that posts the semaphore of another one. -/
def Party.other : Party → Party
  | .producer => .consumer
  | .consumer => .producer

/-- Where a thread is in one round of its loop. -/
inductive Place where
  | loop
  | waiting
  | access
  | post
  | posting
  deriving DecidableEq, Repr

namespace Place

/-- The thread has taken its token, and not put one back. -/
def holds : Place → Bool
  | .access => true
  | .post => true
  | .posting => true
  | _ => false

/-- The thread has been at the ring in this round. -/
def accessed : Place → Bool
  | .post => true
  | .posting => true
  | _ => false

end Place

/--
Both threads with their finished rounds, both semaphores, the ring, the sum of
the consumer and the values that it has read.
-/
structure State where
  sems : Party → Sync.State Party
  place : Party → Place
  rounds : Party → Nat
  ring : RingBuffer Nat
  sum : CInt .int
  reads : List Nat

/-- The initial value of each semaphore. -/
def credit (slots : UInt32) : Party → UInt32
  | .producer => slots
  | .consumer => 0

/-- Right after the initialisation of both semaphores. -/
def initial (slots : UInt32) : State where
  sems := fun owner => Sync.State.initial Party (credit slots owner)
  place := fun _ => .loop
  rounds := fun _ => 0
  ring := RingBuffer.initial 0
  sum := 0
  reads := []

namespace State

/-- Replace one of the semaphores. -/
def setSem
    (state : State)
    (owner : Party)
    (sem : Sync.State Party) : State :=
  { state with sems := Function.update state.sems owner sem }

/-- Move a thread in its loop. -/
def setPlace
    (state : State)
    (party : Party)
    (place : Place) : State :=
  { state with place := Function.update state.place party place }

/-- A thread goes on behind its call; behind the post its round is finished. -/
def goOn
    (state : State)
    (party : Party) : State :=
  match state.place party with
  | .waiting => state.setPlace party .access
  | .posting =>
      { state.setPlace party .loop with
        rounds :=
          Function.update state.rounds party (state.rounds party + 1) }
  | _ => state

/-- The producer writes the number of its round. -/
def produce
    (slots : UInt32)
    (state : State) : State :=
  { state.setPlace .producer .post with
    ring :=
      state.ring.write slots.toNat (state.rounds .producer + 1) }

/-- The consumer reads and adds up. -/
def consume
    (slots : UInt32)
    (state : State) : State :=
  { state.setPlace .consumer .post with
    ring := state.ring.advance slots.toNat
    sum := state.sum + CInt.ofInt .int state.ring.next
    reads := state.reads ++ [state.ring.next] }

end State

/-- One step of the two threads, which hand over `count` items. -/
inductive Next
    (slots : UInt32)
    (count : Nat)
    (state : State) :
    State → Prop where
  | callWait
      (party : Party)
      (pc : Pc)
      (here : state.place party = .loop)
      (more : state.rounds party < count)
      (starts :
        Request.wait.start (state.sems party).sem = some pc) :
      Next slots count state
        ((state.setSem party ((state.sems party).setPc party pc)).setPlace
          party .waiting)
  | waitRefused
      (party : Party)
      (here : state.place party = .loop)
      (more : state.rounds party < count)
      (refused :
        Request.wait.start (state.sems party).sem = none) :
      Next slots count state (state.setPlace party .access)
  | produce
      (here : state.place .producer = .access) :
      Next slots count state (state.produce slots)
  | consume
      (here : state.place .consumer = .access) :
      Next slots count state (state.consume slots)
  | callPost
      (party : Party)
      (pc : Pc)
      (here : state.place party = .post)
      (starts :
        Request.post.start (state.sems party.other).sem = some pc) :
      Next slots count state
        ((state.setSem party.other
          ((state.sems party.other).setPc party pc)).setPlace
            party .posting)
  | postRefused
      (party : Party)
      (here : state.place party = .post)
      (refused :
        Request.post.start (state.sems party.other).sem = none) :
      Next slots count state
        ((state.setPlace party .posting).goOn party)
  | inside
      (owner party : Party)
      (sem : Sync.State Party)
      (step : Step (state.sems owner) party sem)
      (stays : sem.pc party ≠ .idle) :
      Next slots count state (state.setSem owner sem)
  | returns
      (owner party : Party)
      (sem : Sync.State Party)
      (step : Step (state.sems owner) party sem)
      (leaves : sem.pc party = .idle) :
      Next slots count state ((state.setSem owner sem).goOn party)
  | spurious
      (owner party : Party)
      (here : (state.sems owner).pc party = .waiting .asleep) :
      Next slots count state
        (state.setSem owner
          ((state.sems owner).setPc party (.waiting .spurious)))

/-- All runs that hand over `count` items through `slots` slots. -/
def system
    (slots : UInt32)
    (count : Nat) : System State where
  init state :=
    state = initial slots
  next :=
    Next slots count

/-- A thread has left its loop. -/
def Finished
    (count : Nat)
    (state : State)
    (party : Party) : Prop :=
  state.place party = .loop ∧ state.rounds party = count

end SThread.Sync.HandOff
