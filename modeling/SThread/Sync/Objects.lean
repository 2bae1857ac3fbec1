import SThread.Sync.Semaphore

namespace SThread.Sync

open SThread.Api (SthreadError)

/-!
# Mutexes, condition variables and semaphores as objects

The functions of `sync.c` as seen by one object: how it is initialised, used and
destroyed.  What pthread does with a mutex or a condition variable is a
parameter, and so is the result of every initialisation and destruction.  A
pthread destroy that fails leaves its object alone.
-/

/-- What a pthread function returns: zero, or an error number. -/
inductive PthreadResult where
  | ok
  | enomem
  | einval
  | ebusy
  | etimedout
  | other (number : Nat)
  deriving DecidableEq, Repr

/-- `map_pthread_error`. -/
def mapPthreadError : PthreadResult → SthreadError
  | .ok => .success
  | .enomem => .nomem
  | .einval => .invalid
  | .ebusy => .busy
  | .etimedout => .timeout
  | .other _ => .system

/-- A pthread function on an object; `none` is a call that does not return. -/
abbrev PthreadCall (Inner : Type) := Inner → Option (PthreadResult × Inner)

/-- The pthread functions that the library uses. -/
structure Pthread (Thread Mutex Cond : Type) where
  newMutex : Mutex
  newCond : Cond
  mutexLock : Thread → PthreadCall Mutex
  mutexTrylock : Thread → PthreadCall Mutex
  mutexUnlock : Thread → PthreadCall Mutex
  condWait : Thread → PthreadCall Cond
  condTimedwait : Thread → Nat → PthreadCall Cond
  condSignal : PthreadCall Cond
  condBroadcast : PthreadCall Cond

/-- What a call answers: a code and perhaps a value, unless it does not return. -/
inductive Answer where
  | blocks
  | returns (result : SthreadError) (written : Option Int)
  deriving DecidableEq, Repr

/-- The call has returned an error. -/
def Answer.failed : Answer → Bool
  | .returns result _ => decide (result ≠ .success)
  | .blocks => false

/--
`sync_mutex_t` and `sync_cond_t`: a pthread object, `none` when it has been
destroyed, and the flag.
-/
structure SyncObject (Inner : Type) where
  inner : Option Inner
  initialized : Bool
  deriving DecidableEq, Repr

namespace SyncObject

variable
    {Inner : Type}

/-- An object in allocated memory, after the pthread initialisation of its inner. -/
def init
    (fresh : Inner)
    (result : PthreadResult) : SthreadError × SyncObject Inner :=
  match result with
  | .ok => (.success, ⟨some fresh, true⟩)
  | _ => (mapPthreadError result, ⟨none, false⟩)

/-- Let pthread destroy the inner object. -/
def destroy
    (result : PthreadResult)
    (object : SyncObject Inner) : SthreadError × SyncObject Inner :=
  if object.initialized = true then
    match result with
    | .ok => (.success, ⟨none, false⟩)
    | _ => (mapPthreadError result, object)
  else
    (.invalid, object)

/-- Let pthread use the inner object. -/
def use
    (call : PthreadCall Inner)
    (object : SyncObject Inner) : Answer × SyncObject Inner :=
  if object.initialized = true then
    match object.inner.bind call with
    | none => (.blocks, object)
    | some (result, inner) =>
        (.returns (mapPthreadError result) none,
          { object with inner := some inner })
  else
    (.returns .invalid none, object)

/-- A successful initialisation sets the flag. -/
theorem init_initialized
    {fresh : Inner}
    {result : PthreadResult}
    (succeeds : (init fresh result).1 = .success) :
    (init fresh result).2.initialized = true := by
  cases result <;> simp_all [init, mapPthreadError]

/-- Using an object leaves the flag alone. -/
theorem use_initialized
    (call : PthreadCall Inner)
    (object : SyncObject Inner) :
    (object.use call).2.initialized = object.initialized := by
  unfold use
  split
  · split <;> rfl
  · rfl

/-- An initialised object is destroyed when pthread destroys it. -/
theorem destroy_success
    {object : SyncObject Inner}
    (initialized : object.initialized = true)
    (result : PthreadResult) :
    (object.destroy result).1 = .success ↔ result = .ok := by
  cases result <;> simp [destroy, initialized, mapPthreadError]

end SyncObject

section Calls

variable
    {Thread Mutex Cond : Type}
    (pthread : Pthread Thread Mutex Cond)

/-- `sync_mutex_init`. -/
def syncMutexInit :
    PthreadResult → SthreadError × SyncObject Mutex :=
  SyncObject.init pthread.newMutex

/-- `sync_mutex_destroy`. -/
def syncMutexDestroy :
    PthreadResult → SyncObject Mutex → SthreadError × SyncObject Mutex :=
  SyncObject.destroy

/-- `sync_mutex_lock`. -/
def syncMutexLock (thread : Thread) :
    SyncObject Mutex → Answer × SyncObject Mutex :=
  SyncObject.use (pthread.mutexLock thread)

/-- `sync_mutex_trylock`. -/
def syncMutexTrylock (thread : Thread) :
    SyncObject Mutex → Answer × SyncObject Mutex :=
  SyncObject.use (pthread.mutexTrylock thread)

/-- `sync_mutex_unlock`. -/
def syncMutexUnlock (thread : Thread) :
    SyncObject Mutex → Answer × SyncObject Mutex :=
  SyncObject.use (pthread.mutexUnlock thread)

/-- `sync_cond_init`. -/
def syncCondInit :
    PthreadResult → SthreadError × SyncObject Cond :=
  SyncObject.init pthread.newCond

/-- `sync_cond_destroy`. -/
def syncCondDestroy :
    PthreadResult → SyncObject Cond → SthreadError × SyncObject Cond :=
  SyncObject.destroy

/-- `sync_cond_wait`; the flag says whether the mutex is a valid one. -/
def syncCondWait
    (thread : Thread)
    (validMutex : Bool)
    (cond : SyncObject Cond) : Answer × SyncObject Cond :=
  if validMutex = true then
    cond.use (pthread.condWait thread)
  else
    (.returns .invalid none, cond)

/-- `sync_cond_timedwait`. -/
def syncCondTimedwait
    (thread : Thread)
    (validMutex : Bool)
    (timeoutMs : Nat)
    (cond : SyncObject Cond) : Answer × SyncObject Cond :=
  if validMutex = true then
    cond.use (pthread.condTimedwait thread timeoutMs)
  else
    (.returns .invalid none, cond)

/-- `sync_cond_signal`. -/
def syncCondSignal :
    SyncObject Cond → Answer × SyncObject Cond :=
  SyncObject.use pthread.condSignal

/-- `sync_cond_broadcast`. -/
def syncCondBroadcast :
    SyncObject Cond → Answer × SyncObject Cond :=
  SyncObject.use pthread.condBroadcast

end Calls

/-- `sync_sem_t` with its two pthread objects, which have been destroyed or not. -/
structure SemObject where
  lock : Bool
  cond : Bool
  sem : SyncSem
  deriving DecidableEq, Repr

/-- The two results that an initialisation or a destruction of a semaphore sees. -/
structure SemResults where
  lock : PthreadResult
  cond : PthreadResult
  deriving DecidableEq, Repr

/-- `sync_sem_init` on a fresh block of memory. -/
def SemObject.init
    (value : UInt32)
    (results : SemResults) : SthreadError × SemObject :=
  match results.lock, results.cond with
  | .ok, .ok => (.success, ⟨true, true, syncSemInit value⟩)
  | .ok, failure => (mapPthreadError failure, ⟨false, false, ⟨0, 0, false⟩⟩)
  | failure, _ => (mapPthreadError failure, ⟨false, false, ⟨0, 0, false⟩⟩)

/-- `sync_sem_destroy`. -/
def syncSemDestroy
    (results : SemResults)
    (object : SemObject) : SthreadError × SemObject :=
  if object.sem.initialized = true then
    match results.cond with
    | .ok =>
        match results.lock with
        | .ok =>
            (.success, {
              lock := false
              cond := false
              sem := { object.sem with initialized := false } })
        | failure =>
            (mapPthreadError failure, { object with cond := false })
    | failure =>
        (mapPthreadError failure, object)
  else
    (.invalid, object)

/-- A call on the semaphore, as its critical section. -/
def SemObject.call
    (request : Request)
    (object : SemObject) : Answer × SemObject :=
  match request.start object.sem with
  | none => (.returns .invalid none, object)
  | some _ =>
      match request with
      | .wait =>
          match semWaitTest object.sem with
          | none => (.blocks, object)
          | some sem => (.returns .success none, { object with sem := sem })
      | .trywait =>
          (.returns (syncSemTrywait object.sem).1 none,
            { object with sem := (syncSemTrywait object.sem).2 })
      | .post =>
          (.returns .success none,
            { object with sem := syncSemPost object.sem })
      | .getvalue _ =>
          (.returns .success (some (syncSemGetvalue object.sem)), object)

/-- A successful initialisation sets the flag. -/
theorem SemObject.init_initialized
    {value : UInt32}
    {results : SemResults}
    (succeeds : (SemObject.init value results).1 = .success) :
    (SemObject.init value results).2.sem.initialized = true := by
  rcases results with ⟨lock, cond⟩
  cases lock <;> cases cond <;>
    simp_all [SemObject.init, mapPthreadError, syncSemInit]

/-- Using a semaphore leaves the flag alone. -/
theorem SemObject.call_initialized
    (request : Request)
    (object : SemObject) :
    (object.call request).2.sem.initialized = object.sem.initialized := by
  unfold SemObject.call
  split
  · rfl
  · cases request with
    | wait =>
        simp only [semWaitTest]
        split <;> rename_i test
        · rfl
        · split at test
          · contradiction
          · obtain rfl := Option.some.inj test
            rfl
    | trywait =>
        simp only [syncSemTrywait]
        split <;> rfl
    | post
    | getvalue output =>
        rfl

/-- An initialised semaphore is destroyed when pthread destroys both its parts. -/
theorem syncSemDestroy_success
    {object : SemObject}
    (initialized : object.sem.initialized = true)
    (results : SemResults) :
    (syncSemDestroy results object).1 = .success ↔
      results.cond = .ok ∧ results.lock = .ok := by
  rcases results with ⟨lock, cond⟩
  cases cond <;> cases lock <;>
    simp [syncSemDestroy, initialized, mapPthreadError]

end SThread.Sync
