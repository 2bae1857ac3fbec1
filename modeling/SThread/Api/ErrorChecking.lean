import SThread.Api.Handles
import SThread.Library.Transition

namespace SThread.Api

open SThread.Library
open SThread.Sync

/-!
# The public mutex as an error-checking mutex

`sync_mutex_init` asks for `PTHREAD_MUTEX_ERRORCHECK`.  Any number of threads
lock, try and unlock one initialised mutex.  A call takes effect when it
returns; a lock that has to wait is a pending call.

`map_pthread_error` knows no `EDEADLK`, so the code that the interface has for
a deadlock is never returned.
-/

/-- The types of a mutex. -/
inductive MutexType where
  | default
  | normal
  | recursive
  | errorcheck
  deriving DecidableEq, Repr

/-- `pthread_mutexattr_t`. -/
structure MutexAttr where
  type : MutexType
  deriving DecidableEq, Repr

/-- `pthread_mutexattr_init`. -/
def pthreadMutexattrInit : MutexAttr where
  type := .default

/-- `pthread_mutexattr_settype`. -/
def pthreadMutexattrSettype
    (attr : MutexAttr)
    (type : MutexType) : MutexAttr :=
  { attr with type := type }

/-- The attributes that `sync_mutex_init` passes to `pthread_mutex_init`. -/
def syncMutexAttr : MutexAttr :=
  pthreadMutexattrSettype pthreadMutexattrInit .errorcheck

/-- The thread that makes a call. -/
def MutexCall.thread
    {Thread : Type} :
    MutexCall Thread → Thread
  | .lock thread => thread
  | .trylock thread => thread
  | .unlock thread => thread

/-- What a call on a mutex has returned, and the handle before and after it. -/
structure CallEvent (Thread Mutex : Type) where
  call : MutexCall Thread
  result : SthreadError
  found : Handle (SyncObject Mutex)
  left : Handle (SyncObject Mutex)

/-- A mutex, the calls that have not returned, and the calls that have. -/
structure MutexState (Thread Mutex : Type) where
  handle : Handle (SyncObject Mutex)
  pending : Thread → Option (MutexCall Thread)
  history : List (CallEvent Thread Mutex)

section System

variable
    {Thread Mutex Cond : Type}
    [DecidableEq Thread]

/-- A thread makes a call, or a call returns. -/
inductive MutexNext
    (pthread : Pthread Thread Mutex Cond)
    (state : MutexState Thread Mutex) :
    MutexState Thread Mutex → Prop where
  | enter
      (call : MutexCall Thread)
      (here : state.pending call.thread = none) :
      MutexNext pthread state {
        state with
          pending :=
            Function.update state.pending call.thread (some call) }
  | leave
      (call : MutexCall Thread)
      (result : SthreadError)
      (written : Option Int)
      (handle : Handle (SyncObject Mutex))
      (here : state.pending call.thread = some call)
      (returns :
        (mutexMachine pthread).perform (.call call) state.handle =
          (.returns result written, handle)) :
      MutexNext pthread state {
        handle := handle
        pending := Function.update state.pending call.thread none
        history :=
          state.history ++ [⟨call, result, state.handle, handle⟩] }

/--
All histories on one initialised mutex, when `pthread` is how pthread treats the
mutexes of each type.
-/
def mutexSystem
    (pthread : MutexType → Pthread Thread Mutex Cond) :
    System (MutexState Thread Mutex) where
  init state :=
    state = {
      handle :=
        (sthreadMutexInit (pthread syncMutexAttr.type) true .ok ⟨none⟩).2
      pending := fun _ => none
      history := [] }
  next :=
    MutexNext (pthread syncMutexAttr.type)

end System

section Posix

variable
    {Thread Mutex Cond : Type}

/-- The pthread function behind a call. -/
def pthreadCall
    (pthread : Pthread Thread Mutex Cond) :
    MutexCall Thread → PthreadCall Mutex
  | .lock thread => pthread.mutexLock thread
  | .trylock thread => pthread.mutexTrylock thread
  | .unlock thread => pthread.mutexUnlock thread

/-- The semantics of `PTHREAD_MUTEX_ERRORCHECK`. -/
structure ErrorCheck
    (pthread : Pthread Thread Mutex Cond)
    (owner : Mutex → Option Thread)
    (edeadlk eperm : Nat) : Prop where
  fresh :
    owner pthread.newMutex = none
  lockFree :
    ∀ thread mutex,
      owner mutex = none →
      ∃ later,
        pthread.mutexLock thread mutex = some (.ok, later) ∧
          owner later = some thread
  lockOwn :
    ∀ thread mutex,
      owner mutex = some thread →
      pthread.mutexLock thread mutex = some (.other edeadlk, mutex)
  lockHeld :
    ∀ thread other mutex,
      owner mutex = some other →
      other ≠ thread →
      pthread.mutexLock thread mutex = none
  trylockFree :
    ∀ thread mutex,
      owner mutex = none →
      ∃ later,
        pthread.mutexTrylock thread mutex = some (.ok, later) ∧
          owner later = some thread
  trylockHeld :
    ∀ thread other mutex,
      owner mutex = some other →
      pthread.mutexTrylock thread mutex = some (.ebusy, mutex)
  unlockOwn :
    ∀ thread mutex,
      owner mutex = some thread →
      ∃ later,
        pthread.mutexUnlock thread mutex = some (.ok, later) ∧
          owner later = none
  unlockOther :
    ∀ thread mutex,
      owner mutex ≠ some thread →
      pthread.mutexUnlock thread mutex = some (.other eperm, mutex)

/-- What a pthread call that returns has done to a mutex. -/
inductive Effect
    (owner : Mutex → Option Thread)
    (edeadlk eperm : Nat)
    (mutex : Mutex) :
    MutexCall Thread → PthreadResult → Mutex → Prop where
  | locks
      (thread : Thread)
      (later : Mutex)
      (free : owner mutex = none)
      (taken : owner later = some thread) :
      Effect owner edeadlk eperm mutex (.lock thread) .ok later
  | relocks
      (thread : Thread)
      (own : owner mutex = some thread) :
      Effect owner edeadlk eperm mutex (.lock thread)
        (.other edeadlk) mutex
  | tries
      (thread : Thread)
      (later : Mutex)
      (free : owner mutex = none)
      (taken : owner later = some thread) :
      Effect owner edeadlk eperm mutex (.trylock thread) .ok later
  | busy
      (thread other : Thread)
      (held : owner mutex = some other) :
      Effect owner edeadlk eperm mutex (.trylock thread) .ebusy mutex
  | unlocks
      (thread : Thread)
      (later : Mutex)
      (own : owner mutex = some thread)
      (released : owner later = none) :
      Effect owner edeadlk eperm mutex (.unlock thread) .ok later
  | refused
      (thread : Thread)
      (foreign : owner mutex ≠ some thread) :
      Effect owner edeadlk eperm mutex (.unlock thread)
        (.other eperm) mutex

variable
    {pthread : Pthread Thread Mutex Cond}
    {owner : Mutex → Option Thread}
    {edeadlk eperm : Nat}

/-- The semantics leaves no other possibility. -/
theorem ErrorCheck.effect
    (posix : ErrorCheck pthread owner edeadlk eperm)
    {call : MutexCall Thread}
    {mutex later : Mutex}
    {result : PthreadResult}
    (returns : pthreadCall pthread call mutex = some (result, later)) :
    Effect owner edeadlk eperm mutex call result later := by
  cases call with
  | lock thread =>
      simp only [pthreadCall] at returns
      cases held : owner mutex with
      | none =>
          obtain ⟨taken, locks, own⟩ := posix.lockFree thread mutex held
          obtain ⟨rfl, rfl⟩ :=
            Prod.mk.inj (Option.some.inj (locks.symm.trans returns))
          exact .locks thread taken held own
      | some other =>
          by_cases own : other = thread
          · subst own
            have relocks := posix.lockOwn other mutex held
            obtain ⟨rfl, rfl⟩ :=
              Prod.mk.inj (Option.some.inj (relocks.symm.trans returns))
            exact .relocks other held
          · have waits := posix.lockHeld thread other mutex held own
            rw [waits] at returns
            contradiction
  | trylock thread =>
      simp only [pthreadCall] at returns
      cases held : owner mutex with
      | none =>
          obtain ⟨taken, tries, own⟩ :=
            posix.trylockFree thread mutex held
          obtain ⟨rfl, rfl⟩ :=
            Prod.mk.inj (Option.some.inj (tries.symm.trans returns))
          exact .tries thread taken held own
      | some other =>
          have busy := posix.trylockHeld thread other mutex held
          obtain ⟨rfl, rfl⟩ :=
            Prod.mk.inj (Option.some.inj (busy.symm.trans returns))
          exact .busy thread other held
  | unlock thread =>
      simp only [pthreadCall] at returns
      by_cases own : owner mutex = some thread
      · obtain ⟨released, unlocks, free⟩ :=
          posix.unlockOwn thread mutex own
        obtain ⟨rfl, rfl⟩ :=
          Prod.mk.inj (Option.some.inj (unlocks.symm.trans returns))
        exact .unlocks thread released own free
      · have refused := posix.unlockOther thread mutex own
        obtain ⟨rfl, rfl⟩ :=
          Prod.mk.inj (Option.some.inj (refused.symm.trans returns))
        exact .refused thread own

/-- A handle of an initialised mutex. -/
def liveMutex (mutex : Mutex) : Handle (SyncObject Mutex) :=
  ⟨some ⟨some mutex, true⟩⟩

/-- A call on an initialised mutex returns when its pthread call does. -/
theorem perform_liveMutex
    {call : MutexCall Thread}
    {mutex : Mutex}
    {result : SthreadError}
    {written : Option Int}
    {handle : Handle (SyncObject Mutex)}
    (returns :
      (mutexMachine pthread).perform (.call call) (liveMutex mutex) =
        (.returns result written, handle)) :
    ∃ answer later,
      pthreadCall pthread call mutex = some (answer, later) ∧
        result = mapPthreadError answer ∧
        handle = liveMutex later := by
  have unfolded :
      (mutexMachine pthread).perform (.call call) (liveMutex mutex) =
        Handle.call (SyncObject.use (pthreadCall pthread call))
          (liveMutex mutex) := by
    cases call <;> rfl
  rw [unfolded] at returns
  simp only [Handle.call, liveMutex, SyncObject.use, if_true,
    Option.bind_some] at returns
  cases answers : pthreadCall pthread call mutex with
  | none =>
      simp [answers] at returns
  | some outcome =>
      rcases outcome with ⟨answer, later⟩
      simp only [answers, Prod.mk.injEq, Answer.returns.injEq] at returns
      obtain ⟨⟨rfl, _⟩, rfl⟩ := returns
      exact ⟨answer, later, rfl, rfl, rfl⟩

end Posix

section History

variable
    {Thread Mutex : Type}

/-- The owner of the mutex behind a handle. -/
def handleOwner
    (owner : Mutex → Option Thread)
    (handle : Handle (SyncObject Mutex)) : Option Thread :=
  handle.internal.bind fun object => object.inner.bind owner

/-- The thread of the call already owns the mutex that it locks. -/
def CallEvent.Relocks
    (owner : Mutex → Option Thread)
    (event : CallEvent Thread Mutex) : Prop :=
  ∃ thread,
    event.call = .lock thread ∧
      handleOwner owner event.found = some thread

/-- The call returns what the interface documents, `relock` for a relock. -/
structure CallEvent.Documented
    (owner : Mutex → Option Thread)
    (relock : SthreadError)
    (event : CallEvent Thread Mutex) : Prop where
  relock :
    event.Relocks owner →
    event.result = relock ∧ event.left = event.found
  busy :
    ∀ thread,
      event.call = .trylock thread →
      handleOwner owner event.found ≠ none →
      event.result = .busy ∧ event.left = event.found
  foreign :
    ∀ thread,
      event.call = .unlock thread →
      handleOwner owner event.found ≠ some thread →
      event.result ≠ .success ∧ event.left = event.found
  success :
    event.result = .success ↔
      handleOwner owner event.left ≠ handleOwner owner event.found

variable
    [DecidableEq Thread]

/-- Which threads hold the mutex once a call has returned, as the callers see it. -/
def CallEvent.heldAfter
    (event : CallEvent Thread Mutex)
    (held : Thread → Bool) : Thread → Bool :=
  if event.result = .success then
    match event.call with
    | .lock thread => Function.update held thread true
    | .trylock thread => Function.update held thread true
    | .unlock thread => Function.update held thread false
  else
    held

/-- The threads that have locked the mutex and not unlocked it since. -/
def holders
    (history : List (CallEvent Thread Mutex)) : Thread → Bool :=
  history.foldl (fun held event => event.heldAfter held) fun _ => false

/-- One more call. -/
@[simp] theorem holders_snoc
    (history : List (CallEvent Thread Mutex))
    (event : CallEvent Thread Mutex) :
    holders (history ++ [event]) = event.heldAfter (holders history) := by
  simp [holders]

/--
At most one thread holds the mutex, that thread owns it, and every call has
returned what the interface documents.
-/
structure ErrorChecking
    (owner : Mutex → Option Thread)
    (relock : SthreadError)
    (state : MutexState Thread Mutex) : Prop where
  exclusive :
    ∀ first second,
      holders state.history first = true →
      holders state.history second = true →
      first = second
  owns :
    ∀ thread,
      holders state.history thread = true ↔
        handleOwner owner state.handle = some thread
  calls :
    ∀ event ∈ state.history, event.Documented owner relock

/-- What every step keeps: the mutex stays initialised and knows its holder. -/
structure MutexInvariant
    (owner : Mutex → Option Thread)
    (state : MutexState Thread Mutex) : Prop where
  live : ∃ mutex, state.handle = liveMutex mutex
  owns :
    ∀ thread,
      holders state.history thread = true ↔
        handleOwner owner state.handle = some thread
  calls :
    ∀ event ∈ state.history, event.Documented owner .system

variable
    {owner : Mutex → Option Thread}
    {edeadlk eperm : Nat}
    {call : MutexCall Thread}
    {mutex later : Mutex}
    {answer : PthreadResult}

omit [DecidableEq Thread] in
/-- What the code makes of a pthread call, with no code of its own for a relock. -/
theorem Effect.documented
    (effect : Effect owner edeadlk eperm mutex call answer later) :
    CallEvent.Documented owner .system
      ⟨call, mapPthreadError answer, liveMutex mutex, liveMutex later⟩ := by
  cases effect with
  | locks thread _ free taken
  | tries thread _ free taken =>
      constructor <;>
        simp [CallEvent.Relocks, handleOwner, liveMutex, mapPthreadError,
          free, taken]
  | relocks thread own =>
      constructor <;> simp [CallEvent.Relocks, mapPthreadError]
  | busy thread other held =>
      constructor <;> simp [CallEvent.Relocks, mapPthreadError]
  | unlocks thread _ own released =>
      constructor <;>
        simp [CallEvent.Relocks, handleOwner, liveMutex, mapPthreadError,
          own, released]
  | refused thread foreign =>
      constructor <;> simp [CallEvent.Relocks, mapPthreadError]

/-- The callers see the owner that pthread knows. -/
theorem Effect.owns
    (effect : Effect owner edeadlk eperm mutex call answer later)
    {held : Thread → Bool}
    (owns : ∀ thread, held thread = true ↔ owner mutex = some thread)
    (thread : Thread) :
    CallEvent.heldAfter
        ⟨call, mapPthreadError answer, liveMutex mutex, liveMutex later⟩
        held thread = true ↔
      owner later = some thread := by
  cases effect with
  | locks taker _ free taken
  | tries taker _ free taken =>
      have nobody : held thread = false := by
        rw [Bool.eq_false_iff, Ne, owns, free]
        simp
      by_cases same : thread = taker <;>
        simp [CallEvent.heldAfter, mapPthreadError, taken, same, nobody,
          eq_comm]
  | unlocks releaser _ own released =>
      have others : thread ≠ releaser → held thread = false := by
        intro different
        rw [Bool.eq_false_iff, Ne, owns, own]
        simpa [eq_comm] using different
      by_cases same : thread = releaser <;>
        simp_all [CallEvent.heldAfter, mapPthreadError]
  | relocks _ _
  | busy _ _ _
  | refused _ _ =>
      simp [CallEvent.heldAfter, mapPthreadError, owns]

end History

section Runs

variable
    {Thread Mutex Cond : Type}
    [DecidableEq Thread]
    {pthread : MutexType → Pthread Thread Mutex Cond}
    {owner : Mutex → Option Thread}
    {edeadlk eperm : Nat}
    {state later : MutexState Thread Mutex}

/-- A thread without a pending call may call and return at once. -/
theorem reachable_call
    (reachable : (mutexSystem pthread).Reachable state)
    (call : MutexCall Thread)
    (result : SthreadError)
    (written : Option Int)
    (handle : Handle (SyncObject Mutex))
    (idle : state.pending call.thread = none)
    (returns :
      (mutexMachine (pthread syncMutexAttr.type)).perform (.call call)
          state.handle =
        (.returns result written, handle)) :
    (mutexSystem pthread).Reachable {
      handle := handle
      pending := state.pending
      history := state.history ++ [⟨call, result, state.handle, handle⟩] } := by
  have entered := reachable.step (MutexNext.enter call idle)
  have left :=
    entered.step
      (MutexNext.leave call result written handle
        (Function.update_self call.thread _ _) returns)
  rw [Function.update_idem, ← idle, Function.update_eq_self] at left
  exact left

/-- The invariant holds after the initialisation. -/
theorem MutexInvariant.initial
    (posix :
      ErrorCheck (pthread .errorcheck) owner edeadlk eperm)
    (initial : (mutexSystem pthread).init state) :
    MutexInvariant owner state := by
  obtain rfl := initial
  have fresh := posix.fresh
  constructor
  · exact ⟨(pthread .errorcheck).newMutex, rfl⟩
  · intro thread
    simp [holders, handleOwner, sthreadMutexInit, Handle.init,
      syncMutexInit, SyncObject.init, syncMutexAttr,
      pthreadMutexattrSettype, fresh]
  · intro event member
    cases member

/-- Every step keeps the invariant. -/
theorem MutexInvariant.step
    (posix :
      ErrorCheck (pthread .errorcheck) owner edeadlk eperm)
    (invariant : MutexInvariant owner state)
    (step : (mutexSystem pthread).next state later) :
    MutexInvariant owner later := by
  cases step with
  | enter call here =>
      exact ⟨invariant.live, invariant.owns, invariant.calls⟩
  | leave call result written handle here returns =>
      obtain ⟨mutex, live⟩ := invariant.live
      rw [live] at returns
      obtain ⟨answer, left, calls, rfl, rfl⟩ := perform_liveMutex returns
      have effect := posix.effect calls
      have owns := invariant.owns
      rw [live] at owns
      constructor
      · exact ⟨left, rfl⟩
      · intro thread
        rw [holders_snoc, live]
        exact effect.owns owns thread
      · intro event member
        rcases List.mem_append.mp member with before | last
        · exact invariant.calls event before
        · obtain rfl := List.mem_singleton.mp last
          rw [live]
          exact effect.documented

/-- The invariant holds in every reachable state. -/
theorem mutexInvariant_of_reachable
    (posix :
      ErrorCheck (pthread .errorcheck) owner edeadlk eperm)
    (reachable : (mutexSystem pthread).Reachable state) :
    MutexInvariant owner state := by
  refine reachable.invariant (MutexInvariant owner) ?_ ?_
  · intro first initial
    exact .initial posix initial
  · intro before after _ invariant step
    exact invariant.step posix step

/-- All clauses hold on every run, with the code that the source has for a relock. -/
theorem MutexInvariant.errorChecking
    (invariant : MutexInvariant owner state) :
    ErrorChecking owner .system state where
  exclusive := by
    intro first second holdsFirst holdsSecond
    have ownsFirst := (invariant.owns first).mp holdsFirst
    have ownsSecond := (invariant.owns second).mp holdsSecond
    exact Option.some.inj (ownsFirst.symm.trans ownsSecond)
  owns := invariant.owns
  calls := invariant.calls

/--
Every history of lock, trylock and unlock calls is one of a mutex with the
documented codes exactly when no thread locks the mutex that it owns.
-/
theorem mutex_errorChecking_iff
    (posix :
      ErrorCheck (pthread .errorcheck) owner edeadlk eperm)
    (reachable : (mutexSystem pthread).Reachable state) :
    ErrorChecking owner .deadlock state ↔
      ∀ event ∈ state.history, ¬ event.Relocks owner := by
  have checked :=
    (mutexInvariant_of_reachable posix reachable).errorChecking
  constructor
  · intro documented event member relocks
    have promised := ((documented.calls event member).relock relocks).1
    have actual := ((checked.calls event member).relock relocks).1
    rw [actual] at promised
    contradiction
  · intro never
    refine ⟨checked.exclusive, checked.owns, ?_⟩
    intro event member
    have calls := checked.calls event member
    refine ⟨?_, calls.busy, calls.foreign, calls.success⟩
    intro relocks
    exact absurd relocks (never event member)

end Runs

/-- The error-checking mutexes have the semantics of their type. -/
theorem errorCheckPthread_errorCheck :
    ErrorCheck errorCheckPthread (fun mutex => mutex) 35 1 := by
  constructor
  · rfl
  · rintro thread mutex rfl
    exact ⟨some thread, rfl, rfl⟩
  · rintro thread mutex rfl
    simp [errorCheckPthread]
  · rintro thread other mutex rfl different
    simp [errorCheckPthread, different]
  · rintro thread mutex rfl
    exact ⟨some thread, rfl, rfl⟩
  · rintro thread other mutex rfl
    rfl
  · rintro thread mutex rfl
    exact ⟨none, by simp [errorCheckPthread], rfl⟩
  · intro thread mutex foreign
    cases mutex with
    | none =>
        rfl
    | some other =>
        have different : other ≠ thread := by
          rintro rfl
          exact foreign rfl
        simp [errorCheckPthread, different]

/-- A mutex that thread 1 has locked. -/
def lockedState : MutexState Nat (Option Nat) where
  handle := liveMutex (some 1)
  pending := fun _ => none
  history := [⟨.lock 1, .success, liveMutex none, liveMutex (some 1)⟩]

/-- Thread 1 locks the mutex. -/
theorem lockedState_reachable :
    (mutexSystem fun _ => errorCheckPthread).Reachable lockedState :=
  reachable_call (.start rfl) (.lock 1) .success none
    (liveMutex (some 1)) rfl rfl

/-- The lock was no relock, so all is documented. -/
theorem mutex_errorChecking_iff_locked :
    ErrorChecking (fun mutex => mutex) .deadlock lockedState := by
  refine
    (mutex_errorChecking_iff errorCheckPthread_errorCheck
      lockedState_reachable).mpr ?_
  intro event member relocks
  obtain rfl := List.mem_singleton.mp member
  obtain ⟨thread, _, owned⟩ := relocks
  contradiction

/-- The same thread locks the mutex again, and is told of a system error. -/
theorem exists_relock :
    ∃ state,
      (mutexSystem fun _ => errorCheckPthread).Reachable state ∧
        (state.history.map fun event => (event.call, event.result)) =
          [(.lock 1, .success), (.lock 1, .system)] ∧
        ¬ ErrorChecking (fun mutex => mutex) .deadlock state := by
  refine
    ⟨_,
      reachable_call lockedState_reachable (.lock 1) .system none
        (liveMutex (some 1)) rfl rfl,
      rfl, ?_⟩
  intro documented
  have relock :=
    (documented.calls
      ⟨.lock 1, .system, liveMutex (some 1), liveMutex (some 1)⟩
      (by simp [lockedState])).relock
  have promised := (relock ⟨1, rfl, rfl⟩).1
  contradiction

end SThread.Api
