import SThread.Library.Machine
import SThread.Sync.Objects

namespace SThread.Api

open SThread.Library
open SThread.Sync

/-!
# Public handles and failed destroys

`sthread_mutex_t`, `sthread_cond_t` and `sthread_sem_t` hold a pointer to a
block that their init function allocates and their destroy function frees.  The
handle itself is not null: a null handle is refused with
`STHREAD_ERROR_INVALID` and concerns no object.

The layer below keeps its object when pthread refuses to destroy it.  The
public destroy functions free the block and clear the pointer all the same.
-/

/-- A public handle; `none` is a null `internal`, anything else the block itself. -/
structure Handle (Object : Type) where
  internal : Option Object
  deriving DecidableEq, Repr

namespace Handle

variable
    {Object : Type}

/-- The init functions, from the result of `malloc` and of the layer below. -/
def init
    (allocated : Bool)
    (created : SthreadError × Object)
    (handle : Handle Object) : Answer × Handle Object :=
  if allocated = false then
    (.returns .nomem none, handle)
  else if created.1 ≠ .success then
    (.returns created.1 none, handle)
  else
    (.returns .success none, ⟨some created.2⟩)

/-- The destroy functions: the block is freed whatever the layer below returns. -/
def destroy
    (destroyObject : Object → SthreadError × Object)
    (handle : Handle Object) : Answer × Handle Object :=
  match handle.internal with
  | none =>
      (.returns .invalid none, handle)
  | some object =>
      (.returns (destroyObject object).1 none, ⟨none⟩)

/-- The other functions. -/
def call
    (callObject : Object → Answer × Object)
    (handle : Handle Object) : Answer × Handle Object :=
  match handle.internal with
  | none =>
      (.returns .invalid none, handle)
  | some object =>
      ((callObject object).1, ⟨some (callObject object).2⟩)

end Handle

section Functions

variable
    {Thread Mutex Cond : Type}
    (pthread : Pthread Thread Mutex Cond)

/-- `sthread_mutex_init`. -/
def sthreadMutexInit
    (allocated : Bool)
    (result : PthreadResult) :
    Handle (SyncObject Mutex) → Answer × Handle (SyncObject Mutex) :=
  Handle.init allocated (syncMutexInit pthread result)

/-- `sthread_mutex_destroy`. -/
def sthreadMutexDestroy
    (result : PthreadResult) :
    Handle (SyncObject Mutex) → Answer × Handle (SyncObject Mutex) :=
  Handle.destroy (syncMutexDestroy result)

/-- `sthread_mutex_lock`. -/
def sthreadMutexLock
    (thread : Thread) :
    Handle (SyncObject Mutex) → Answer × Handle (SyncObject Mutex) :=
  Handle.call (syncMutexLock pthread thread)

/-- `sthread_mutex_trylock`. -/
def sthreadMutexTrylock
    (thread : Thread) :
    Handle (SyncObject Mutex) → Answer × Handle (SyncObject Mutex) :=
  Handle.call (syncMutexTrylock pthread thread)

/-- `sthread_mutex_unlock`. -/
def sthreadMutexUnlock
    (thread : Thread) :
    Handle (SyncObject Mutex) → Answer × Handle (SyncObject Mutex) :=
  Handle.call (syncMutexUnlock pthread thread)

/-- `sthread_cond_init`. -/
def sthreadCondInit
    (allocated : Bool)
    (result : PthreadResult) :
    Handle (SyncObject Cond) → Answer × Handle (SyncObject Cond) :=
  Handle.init allocated (syncCondInit pthread result)

/-- `sthread_cond_destroy`. -/
def sthreadCondDestroy
    (result : PthreadResult) :
    Handle (SyncObject Cond) → Answer × Handle (SyncObject Cond) :=
  Handle.destroy (syncCondDestroy result)

/-- `sthread_cond_wait`. -/
def sthreadCondWait
    (thread : Thread)
    (validMutex : Bool) :
    Handle (SyncObject Cond) → Answer × Handle (SyncObject Cond) :=
  Handle.call (syncCondWait pthread thread validMutex)

/-- `sthread_cond_timedwait`. -/
def sthreadCondTimedwait
    (thread : Thread)
    (validMutex : Bool)
    (timeoutMs : Nat) :
    Handle (SyncObject Cond) → Answer × Handle (SyncObject Cond) :=
  Handle.call (syncCondTimedwait pthread thread validMutex timeoutMs)

/-- `sthread_cond_signal`. -/
def sthreadCondSignal :
    Handle (SyncObject Cond) → Answer × Handle (SyncObject Cond) :=
  Handle.call (syncCondSignal pthread)

/-- `sthread_cond_broadcast`. -/
def sthreadCondBroadcast :
    Handle (SyncObject Cond) → Answer × Handle (SyncObject Cond) :=
  Handle.call (syncCondBroadcast pthread)

/-- `sthread_sem_init`. -/
def sthreadSemInit
    (allocated : Bool)
    (value : UInt32)
    (results : SemResults) :
    Handle SemObject → Answer × Handle SemObject :=
  Handle.init allocated (SemObject.init value results)

/-- `sthread_sem_destroy`. -/
def sthreadSemDestroy
    (results : SemResults) :
    Handle SemObject → Answer × Handle SemObject :=
  Handle.destroy (syncSemDestroy results)

/--
`sthread_sem_wait`, `sthread_sem_trywait`, `sthread_sem_post` and
`sthread_sem_getvalue`.
-/
def sthreadSemCall
    (request : Request) :
    Handle SemObject → Answer × Handle SemObject :=
  Handle.call (SemObject.call request)

end Functions

/-- An operation on a handle, with the results of the pthread calls it may make. -/
inductive HandleOp (Creation Call Results : Type) where
  | init (allocated : Bool) (creation : Creation)
  | call (call : Call)
  | destroy (results : Results)
  deriving DecidableEq, Repr

/-- The calls on a mutex. -/
inductive MutexCall (Thread : Type) where
  | lock (thread : Thread)
  | trylock (thread : Thread)
  | unlock (thread : Thread)
  deriving DecidableEq, Repr

/-- The calls on a condition variable. -/
inductive CondCall (Thread : Type) where
  | wait (thread : Thread) (validMutex : Bool)
  | timedwait (thread : Thread) (validMutex : Bool) (timeoutMs : Nat)
  | signal
  | broadcast
  deriving DecidableEq, Repr

section Machines

variable
    {Thread Mutex Cond : Type}
    (pthread : Pthread Thread Mutex Cond)

/-- A mutex and the operations on it. -/
def mutexMachine :
    Machine (Handle (SyncObject Mutex))
      (HandleOp PthreadResult (MutexCall Thread) PthreadResult)
      Answer where
  perform
    | .init allocated result => sthreadMutexInit pthread allocated result
    | .call (.lock thread) => sthreadMutexLock pthread thread
    | .call (.trylock thread) => sthreadMutexTrylock pthread thread
    | .call (.unlock thread) => sthreadMutexUnlock pthread thread
    | .destroy result => sthreadMutexDestroy result

/-- A condition variable and the operations on it. -/
def condMachine :
    Machine (Handle (SyncObject Cond))
      (HandleOp PthreadResult (CondCall Thread) PthreadResult)
      Answer where
  perform
    | .init allocated result => sthreadCondInit pthread allocated result
    | .call (.wait thread validMutex) =>
        sthreadCondWait pthread thread validMutex
    | .call (.timedwait thread validMutex timeoutMs) =>
        sthreadCondTimedwait pthread thread validMutex timeoutMs
    | .call .signal => sthreadCondSignal pthread
    | .call .broadcast => sthreadCondBroadcast pthread
    | .destroy result => sthreadCondDestroy result

/-- A semaphore and the operations on it. -/
def semMachine :
    Machine (Handle SemObject)
      (HandleOp (UInt32 × SemResults) Request SemResults)
      Answer where
  perform
    | .init allocated (value, results) =>
        sthreadSemInit allocated value results
    | .call request => sthreadSemCall request
    | .destroy results => sthreadSemDestroy results

end Machines

section Harmless

variable
    {Object Creation Call Results : Type}

/--
A destroy call that fails leaves the object exactly as it was, and the history
without the call gives all other calls the same answers.
-/
def FailedDestroysHarmless
    (machine :
      Machine (Handle Object) (HandleOp Creation Call Results) Answer)
    (history : List (HandleOp Creation Call Results)) : Prop :=
  ∀ before results later,
    history = before ++ .destroy results :: later →
    (machine.perform (.destroy results)
      (machine.after ⟨none⟩ before)).1.failed = true →
    (machine.perform (.destroy results)
        (machine.after ⟨none⟩ before)).2 =
      machine.after ⟨none⟩ before ∧
      machine.answers ⟨none⟩ (before ++ later) =
        (machine.answers ⟨none⟩ history).eraseIdx before.length

/-- Every destroy call finds no object, or all its pthread calls succeed. -/
def DestroysSucceed
    (machine :
      Machine (Handle Object) (HandleOp Creation Call Results) Answer)
    (ok : Results → Prop)
    (history : List (HandleOp Creation Call Results)) : Prop :=
  ∀ before results later,
    history = before ++ .destroy results :: later →
    (machine.after ⟨none⟩ before).internal = none ∨ ok results

/-- The object of a handle, if there is one, has a property. -/
def Handle.Holds
    (alive : Object → Prop)
    (handle : Handle Object) : Prop :=
  ∀ object, handle.internal = some object → alive object

/-- A block that is handed out has been initialised. -/
theorem Handle.Holds.init
    {alive : Object → Prop}
    {handle : Handle Object}
    (holds : handle.Holds alive)
    (allocated : Bool)
    {created : SthreadError × Object}
    (fresh : created.1 = .success → alive created.2) :
    (handle.init allocated created).2.Holds alive := by
  unfold Handle.init
  split
  · exact holds
  · split
    · exact holds
    · rename_i succeeds
      rintro object same
      obtain rfl := Option.some.inj same
      exact fresh (not_not.mp succeeds)

/-- A call keeps what it keeps of the object. -/
theorem Handle.Holds.call
    {alive : Object → Prop}
    {handle : Handle Object}
    (holds : handle.Holds alive)
    {callObject : Object → Answer × Object}
    (kept : ∀ object, alive object → alive (callObject object).2) :
    (handle.call callObject).2.Holds alive := by
  unfold Handle.call
  split
  · exact holds
  · rename_i object here
    rintro other same
    obtain rfl := Option.some.inj same
    exact kept object (holds object here)

/-- A destroy leaves no object behind. -/
theorem Handle.destroy_internal
    (destroyObject : Object → SthreadError × Object)
    (handle : Handle Object) :
    (handle.destroy destroyObject).2.internal = none := by
  unfold Handle.destroy
  split
  · assumption
  · rfl

/-- There is nothing to keep after a destroy. -/
theorem Handle.holds_destroy
    (alive : Object → Prop)
    (destroyObject : Object → SthreadError × Object)
    (handle : Handle Object) :
    (handle.destroy destroyObject).2.Holds alive := by
  intro object same
  rw [handle.destroy_internal] at same
  contradiction

/-- What the three kinds of handles have in common. -/
structure DestroysAlways
    (machine :
      Machine (Handle Object) (HandleOp Creation Call Results) Answer)
    (alive : Object → Prop)
    (ok : Results → Prop) : Prop where
  kept :
    ∀ op handle,
      handle.Holds alive →
      (machine.perform op handle).2.Holds alive
  internal :
    ∀ results handle,
      (machine.perform (.destroy results) handle).2.internal = none
  succeeds :
    ∀ results object,
      alive object →
      ((machine.perform (.destroy results) ⟨some object⟩).1.failed =
          false ↔
        ok results)

/-- A failed destroy is harmless exactly when there was nothing to destroy. -/
theorem DestroysAlways.harmless_iff
    {machine :
      Machine (Handle Object) (HandleOp Creation Call Results) Answer}
    {alive : Object → Prop}
    {ok : Results → Prop}
    (always : DestroysAlways machine alive ok)
    (history : List (HandleOp Creation Call Results)) :
    FailedDestroysHarmless machine history ↔
      DestroysSucceed machine ok history := by
  constructor
  · intro harmless before results later split
    have holds :
        (machine.after ⟨none⟩ before).Holds alive :=
      machine.after_invariant (Handle.Holds alive) always.kept
        ⟨none⟩ before nofun
    cases here : (machine.after ⟨none⟩ before).internal with
    | none =>
        exact Or.inl rfl
    | some object =>
        apply Or.inr
        have shape : machine.after ⟨none⟩ before = ⟨some object⟩ := by
          rw [← here]
        rw [← always.succeeds results object (holds object here)]
        by_contra fails
        have failed :
            (machine.perform (.destroy results)
              (machine.after ⟨none⟩ before)).1.failed = true := by
          rw [shape]
          exact Bool.eq_true_of_not_eq_false fails
        have unchanged := (harmless before results later split failed).1
        have cleared :=
          always.internal results (machine.after ⟨none⟩ before)
        rw [unchanged, here] at cleared
        contradiction
  · intro succeed before results later split failed
    have holds :
        (machine.after ⟨none⟩ before).Holds alive :=
      machine.after_invariant (Handle.Holds alive) always.kept
        ⟨none⟩ before nofun
    have unchanged :
        (machine.perform (.destroy results)
            (machine.after ⟨none⟩ before)).2 =
          machine.after ⟨none⟩ before := by
      rcases succeed before results later split with nothing | isOk
      · have cleared :=
          always.internal results (machine.after ⟨none⟩ before)
        exact congrArg Handle.mk (cleared.trans nothing.symm)
      · cases here : (machine.after ⟨none⟩ before).internal with
        | none =>
            have cleared :=
              always.internal results (machine.after ⟨none⟩ before)
            exact congrArg Handle.mk (cleared.trans here.symm)
        | some object =>
            have shape : machine.after ⟨none⟩ before = ⟨some object⟩ := by
              rw [← here]
            have returns :=
              (always.succeeds results object (holds object here)).mpr isOk
            rw [shape, returns] at failed
            exact Bool.noConfusion failed
    subst split
    exact ⟨unchanged,
      machine.answers_remove ⟨none⟩ before later _ unchanged⟩

end Harmless

/-- A public destroy fails exactly when the layer below does. -/
theorem Handle.destroy_failed
    {Object : Type}
    (destroyObject : Object → SthreadError × Object)
    (object : Object) :
    ((Handle.mk (some object)).destroy destroyObject).1.failed = false ↔
      (destroyObject object).1 = .success := by
  simp [Handle.destroy, Answer.failed]

section Kinds

variable
    {Thread Mutex Cond : Type}
    (pthread : Pthread Thread Mutex Cond)

/-- Mutexes. -/
theorem mutexMachine_destroysAlways :
    DestroysAlways (mutexMachine pthread)
      (fun mutex => mutex.initialized = true)
      (fun result => result = .ok) where
  kept := by
    intro op handle holds
    cases op with
    | init allocated result =>
        exact holds.init allocated SyncObject.init_initialized
    | call call =>
        cases call <;>
          exact holds.call (fun mutex initialized =>
            (mutex.use_initialized _).trans initialized)
    | destroy result =>
        exact handle.holds_destroy _ _
  internal := by
    intro result handle
    exact handle.destroy_internal _
  succeeds := by
    intro result mutex initialized
    exact (Handle.destroy_failed _ mutex).trans
      (SyncObject.destroy_success initialized result)

/-- Condition variables. -/
theorem condMachine_destroysAlways :
    DestroysAlways (condMachine pthread)
      (fun cond => cond.initialized = true)
      (fun result => result = .ok) where
  kept := by
    intro op handle holds
    cases op with
    | init allocated result =>
        exact holds.init allocated SyncObject.init_initialized
    | call call =>
        cases call with
        | signal
        | broadcast =>
            exact holds.call (fun cond initialized =>
              (cond.use_initialized _).trans initialized)
        | wait thread validMutex =>
            refine holds.call ?_
            intro cond initialized
            unfold syncCondWait
            split
            · exact (cond.use_initialized _).trans initialized
            · exact initialized
        | timedwait thread validMutex timeoutMs =>
            refine holds.call ?_
            intro cond initialized
            unfold syncCondTimedwait
            split
            · exact (cond.use_initialized _).trans initialized
            · exact initialized
    | destroy result =>
        exact handle.holds_destroy _ _
  internal := by
    intro result handle
    exact handle.destroy_internal _
  succeeds := by
    intro result cond initialized
    exact (Handle.destroy_failed _ cond).trans
      (SyncObject.destroy_success initialized result)

end Kinds

/-- Semaphores. -/
theorem semMachine_destroysAlways :
    DestroysAlways semMachine
      (fun object => object.sem.initialized = true)
      (fun results => results.cond = .ok ∧ results.lock = .ok) where
  kept := by
    intro op handle holds
    cases op with
    | init allocated creation =>
        exact holds.init allocated SemObject.init_initialized
    | call request =>
        exact holds.call (fun object initialized =>
          (object.call_initialized request).trans initialized)
    | destroy results =>
        exact handle.holds_destroy _ _
  internal := by
    intro results handle
    exact handle.destroy_internal _
  succeeds := by
    intro results object initialized
    exact (Handle.destroy_failed _ object).trans
      (syncSemDestroy_success initialized results)

/--
For all three kinds of handles, failed destroys are harmless in exactly those
histories in which every destroy finds no object or destroys it.
-/
theorem failed_destroys_harmless_iff
    {Thread Mutex Cond : Type}
    (pthread : Pthread Thread Mutex Cond) :
    (∀ history,
      FailedDestroysHarmless (mutexMachine pthread) history ↔
        DestroysSucceed (mutexMachine pthread)
          (fun result => result = .ok) history) ∧
      (∀ history,
        FailedDestroysHarmless (condMachine pthread) history ↔
          DestroysSucceed (condMachine pthread)
            (fun result => result = .ok) history) ∧
      ∀ history,
        FailedDestroysHarmless semMachine history ↔
          DestroysSucceed semMachine
            (fun results => results.cond = .ok ∧ results.lock = .ok)
            history :=
  ⟨(mutexMachine_destroysAlways pthread).harmless_iff,
    (condMachine_destroysAlways pthread).harmless_iff,
    semMachine_destroysAlways.harmless_iff⟩

/-- Error-checking mutexes that know their owner, and nobody to signal. -/
def errorCheckPthread : Pthread Nat (Option Nat) Unit where
  newMutex := none
  newCond := ()
  mutexLock thread
    | none => some (.ok, some thread)
    | some owner =>
        if owner = thread then some (.other 35, some owner) else none
  mutexTrylock thread
    | none => some (.ok, some thread)
    | some owner => some (.ebusy, some owner)
  mutexUnlock thread
    | some owner =>
        if owner = thread then some (.ok, none)
        else some (.other 1, some owner)
    | none => some (.other 1, none)
  condWait _ _ := none
  condTimedwait _ _ _ := some (.etimedout, ())
  condSignal _ := some (.ok, ())
  condBroadcast _ := some (.ok, ())

/--
A thread holds a mutex, a destroy fails with `EBUSY`, and the thread cannot
unlock the mutex any more.
-/
theorem exists_harmful_destroy :
    (mutexMachine errorCheckPthread).answers ⟨none⟩
        [.init true .ok, .call (.lock 1),
          .destroy .ebusy, .call (.unlock 1)] =
      [.returns .success none, .returns .success none,
        .returns .busy none, .returns .invalid none] ∧
      (mutexMachine errorCheckPthread).answers ⟨none⟩
          [.init true .ok, .call (.lock 1), .call (.unlock 1)] =
        [.returns .success none, .returns .success none,
          .returns .success none] ∧
      ¬ FailedDestroysHarmless (mutexMachine errorCheckPthread)
        [.init true .ok, .call (.lock 1),
          .destroy .ebusy, .call (.unlock 1)] := by
  refine ⟨by decide, by decide, ?_⟩
  intro harmless
  have unchanged :=
    (harmless [.init true .ok, .call (.lock 1)] .ebusy
      [.call (.unlock 1)] rfl rfl).1
  exact absurd unchanged (by decide)

end SThread.Api
