import SThread.Api.Errors
import SThread.Scheduler.System

namespace SThread.Sync

open SThread.Api (SthreadError)
open SThread.Library
open SThread.Scheduler (Wake)

/-!
# The semaphore

`sync_sem_t` and the threads that use it.  A critical section under `sem->lock`
is one step, together with the return behind it; a thread inside
`pthread_cond_wait` has released the lock and takes its next step when it has
the lock again.

The semaphore is initialised and not destroyed.  `history` is ghost state: what
the calls have returned so far, and the counter each of them has found.
-/

/-- The data fields of `sync_sem_t`. -/
structure SyncSem where
  count : UInt32
  maxCount : UInt32
  initialized : Bool
  deriving DecidableEq, Repr

/-- `sync_sem_init`, when its two initialisations succeed. -/
def syncSemInit (value : UInt32) : SyncSem where
  count := value
  maxCount := value
  initialized := true

/-- Take a token that is there. -/
def SyncSem.take (sem : SyncSem) : SyncSem :=
  { sem with count := sem.count - 1 }

/-- `sync_sem_wait` from the test of its loop on; `none` is a wait. -/
def semWaitTest (sem : SyncSem) : Option SyncSem :=
  if sem.count = 0 then
    none
  else
    some sem.take

/-- The critical section of `sync_sem_trywait`. -/
def syncSemTrywait (sem : SyncSem) : SthreadError × SyncSem :=
  if sem.count = 0 then
    (.busy, sem)
  else
    (.success, sem.take)

/-- The critical section of `sync_sem_post`, but for the signal. -/
def syncSemPost (sem : SyncSem) : SyncSem :=
  { sem with count := sem.count + 1 }

/-- What `sync_sem_getvalue` writes. -/
def syncSemGetvalue (sem : SyncSem) : Int :=
  sem.count.toInt32.toInt

/-- A call on the semaphore; `false` stands for a null output. -/
inductive Request where
  | wait
  | trywait
  | post
  | getvalue (output : Bool)
  deriving DecidableEq, Repr

/-- Where a thread is in the functions of the semaphore. -/
inductive Pc where
  | idle
  | waitEnter
  | waiting (wake : Wake)
  | trywaitEnter
  | postEnter
  | getvalueEnter
  deriving DecidableEq, Repr

/-- The argument checks at the head of each function. -/
def Request.start
    (sem : SyncSem) :
    Request → Option Pc
  | .wait => if sem.initialized then some .waitEnter else none
  | .trywait => if sem.initialized then some .trywaitEnter else none
  | .post => if sem.initialized then some .postEnter else none
  | .getvalue output =>
      if sem.initialized && output then some .getvalueEnter else none

namespace Pc

/-- Asleep on `sem->cond`. -/
def asleep : Pc → Bool
  | .waiting .asleep => true
  | _ => false

/-- Notified on `sem->cond`, not yet back in the lock. -/
def notified : Pc → Bool
  | .waiting .notified => true
  | _ => false

/-- A thread asleep on `sem->cond` once it is notified. -/
def wake : Pc → Pc
  | .waiting .asleep => .waiting .notified
  | pc => pc

/-- About to test the counter in `sync_sem_wait`. -/
def atWaitTest : Pc → Bool
  | .waitEnter => true
  | .waiting .notified => true
  | .waiting .spurious => true
  | _ => false

/-- The shape of a thread asleep in `sync_sem_wait`. -/
theorem asleep_iff
    {pc : Pc} :
    pc.asleep = true ↔ pc = .waiting .asleep := by
  constructor
  · intro sleeps
    cases pc with
    | waiting wake =>
        cases wake <;> simp [asleep] at sleeps ⊢
    | _ =>
        simp [asleep] at sleeps
  · rintro rfl
    rfl

end Pc

/-- The condition variable `sem->cond`. -/
def semCond : CondVar Pc where
  asleep := Pc.asleep
  notified := Pc.notified
  wake := Pc.wake
  wake_not_asleep := by
    intro pc asleep
    rw [Pc.asleep_iff] at asleep
    subst asleep
    rfl
  wake_notified := by
    intro pc asleep
    rw [Pc.asleep_iff] at asleep
    subst asleep
    rfl
  asleep_not_notified := by
    intro pc asleep
    rw [Pc.asleep_iff] at asleep
    subst asleep
    rfl

/-- What one call has returned and written, and the counter it has found. -/
structure Event (Thread : Type) where
  thread : Thread
  request : Request
  result : SthreadError
  written : Option Int
  found : UInt32
  deriving DecidableEq, Repr

/-- The semaphore, its threads, and the ghost history. -/
structure State (Thread : Type) where
  sem : SyncSem
  pc : Thread → Pc
  history : List (Event Thread)

namespace State

/-- A semaphore right after `sync_sem_init`. -/
def initial
    (Thread : Type)
    (value : UInt32) : State Thread where
  sem := syncSemInit value
  pc := fun _ => .idle
  history := []

variable
    {Thread : Type}
    [DecidableEq Thread]

/-- Move one thread. -/
def setPc
    (state : State Thread)
    (thread : Thread)
    (pc : Pc) : State Thread :=
  { state with pc := Function.update state.pc thread pc }

/-- Return from a call. -/
def ret
    (state : State Thread)
    (thread : Thread)
    (sem : SyncSem)
    (request : Request)
    (result : SthreadError)
    (written : Option Int) : State Thread where
  sem := sem
  pc := Function.update state.pc thread .idle
  history :=
    state.history ++
      [⟨thread, request, result, written, state.sem.count⟩]

/-- A return leaves the semaphore as the call has left it. -/
@[simp] theorem ret_sem
    (state : State Thread)
    (thread : Thread)
    (sem : SyncSem)
    (request : Request)
    (result : SthreadError)
    (written : Option Int) :
    (state.ret thread sem request result written).sem = sem := by
  simp [ret]

end State

section Steps

variable
    {Thread : Type}
    [DecidableEq Thread]

/-- One step of a thread that is inside a call. -/
inductive Step
    (state : State Thread)
    (thread : Thread) :
    State Thread → Prop where
  | waitSleeps
      (here : (state.pc thread).atWaitTest = true)
      (empty : semWaitTest state.sem = none) :
      Step state thread (state.setPc thread (.waiting .asleep))
  | waitTakes
      (sem : SyncSem)
      (here : (state.pc thread).atWaitTest = true)
      (takes : semWaitTest state.sem = some sem) :
      Step state thread (state.ret thread sem .wait .success none)
  | trywait
      (result : SthreadError)
      (sem : SyncSem)
      (here : state.pc thread = .trywaitEnter)
      (ends : syncSemTrywait state.sem = (result, sem)) :
      Step state thread (state.ret thread sem .trywait result none)
  | post
      (targets : Finset Thread)
      (here : state.pc thread = .postEnter)
      (signals :
        semCond.Signals
          (Function.update state.pc thread .idle) targets) :
      Step state thread {
        state.ret thread (syncSemPost state.sem) .post .success none with
          pc :=
            semCond.notify targets
              (Function.update state.pc thread .idle) }
  | getvalue
      (here : state.pc thread = .getvalueEnter) :
      Step state thread
        (state.ret thread state.sem (.getvalue true) .success
          (some (syncSemGetvalue state.sem)))

/-- One step of the system, in which a thread may make a call that is allowed. -/
inductive Next
    (allowed : State Thread → Thread → Request → Prop)
    (state : State Thread) :
    State Thread → Prop where
  | call
      (thread : Thread)
      (request : Request)
      (pc : Pc)
      (here : state.pc thread = .idle)
      (may : allowed state thread request)
      (starts : request.start state.sem = some pc) :
      Next allowed state (state.setPc thread pc)
  | invalid
      (thread : Thread)
      (request : Request)
      (here : state.pc thread = .idle)
      (may : allowed state thread request)
      (fails : request.start state.sem = none) :
      Next allowed state
        (state.ret thread state.sem request .invalid none)
  | step
      (thread : Thread)
      {later : State Thread}
      (step : Step state thread later) :
      Next allowed state later
  | spurious
      (thread : Thread)
      (here : state.pc thread = .waiting .asleep) :
      Next allowed state (state.setPc thread (.waiting .spurious))

end Steps

/-- All runs on a semaphore of the given value in which the calls are allowed. -/
def system
    {Thread : Type}
    [DecidableEq Thread]
    (value : UInt32)
    (allowed : State Thread → Thread → Request → Prop) :
    System (State Thread) where
  init state :=
    state = State.initial Thread value
  next :=
    Next allowed

/-- Any thread may call anything. -/
def anyCall
    {Thread : Type}
    (_ : State Thread)
    (_ : Thread)
    (_ : Request) : Prop :=
  True

end SThread.Sync
