import SThread.Platform.Clock
import SThread.Sync.Objects

namespace SThread.Sync

open SThread.Library
open SThread.Platform

/-!
# The deadline of a timed wait

`sync_cond_timedwait` turns its timeout into an absolute time and leaves the
rest to `pthread_cond_timedwait`.
-/

section

variable
    {Thread Mutex Cond : Type}

/-- A pthread whose timed wait takes the absolute time computed from a reading. -/
def Pthread.atReading
    (pthread : Pthread Thread Mutex Cond)
    (clock : Clock)
    (timedwait : Thread → Timespec → PthreadCall Cond) :
    Pthread Thread Mutex Cond :=
  { pthread with
    condTimedwait := fun thread timeoutMs =>
      timedwait thread (platformGetAbstime clock (UInt32.ofNat timeoutMs)) }

/-- `sync_cond_timedwait` when the real-time clock reads `clock`. -/
def syncCondTimedwaitAt
    (pthread : Pthread Thread Mutex Cond)
    (clock : Clock)
    (timedwait : Thread → Timespec → PthreadCall Cond)
    (thread : Thread)
    (validMutex : Bool)
    (timeoutMs : UInt32) :
    SyncObject Cond → Answer × SyncObject Cond :=
  syncCondTimedwait (pthread.atReading clock timedwait) thread validMutex
    timeoutMs.toNat

/-- With a valid mutex, pthread waits for the computed time. -/
theorem syncCondTimedwaitAt_valid
    (pthread : Pthread Thread Mutex Cond)
    (clock : Clock)
    (timedwait : Thread → Timespec → PthreadCall Cond)
    (thread : Thread)
    (timeoutMs : UInt32)
    (cond : SyncObject Cond) :
    syncCondTimedwaitAt pthread clock timedwait thread true timeoutMs cond =
      cond.use (timedwait thread (platformGetAbstime clock timeoutMs)) := by
  simp [syncCondTimedwaitAt, syncCondTimedwait, Pthread.atReading]

end

/--
The deadline that `sync_cond_timedwait` passes on is computed without overflow,
is normalised and is the reading plus the timeout exactly.  It does not depend
on the platform, and a longer timeout gives a later deadline.
-/
theorem deadline_exact
    {clock : Clock}
    (valid : clock.Valid)
    (timeoutMs : UInt32) :
    (platformGetAbstime clock timeoutMs).Denotes
        (clock.nanoseconds + timeoutMs.toNat * 10 ^ 6) ∧
      (∀ other : Clock,
        other.Valid →
        other.nanoseconds = clock.nanoseconds →
        platformGetAbstime other timeoutMs =
          platformGetAbstime clock timeoutMs) ∧
      (∀ longer : UInt32,
        timeoutMs < longer →
        (platformGetAbstime clock timeoutMs).Before
          (platformGetAbstime clock longer)) ∧
      ∀ (Thread Mutex Cond : Type)
        (pthread : Pthread Thread Mutex Cond)
        (timedwait : Thread → Timespec → PthreadCall Cond)
        (thread : Thread)
        (cond : SyncObject Cond),
        syncCondTimedwaitAt pthread clock timedwait thread true timeoutMs
            cond =
          cond.use
            (timedwait thread (platformGetAbstime clock timeoutMs)) := by
  have denotes := platformGetAbstime_denotes timeoutMs valid
  refine ⟨denotes, ?_, ?_, ?_⟩
  · intro other otherValid same
    have otherDenotes := platformGetAbstime_denotes timeoutMs otherValid
    rw [same] at otherDenotes
    exact otherDenotes.unique denotes
  · intro longer less
    have moreTime := UInt32.lt_iff_toNat_lt.mp less
    exact denotes.before (platformGetAbstime_denotes longer valid)
      (by omega)
  · intro Thread Mutex Cond pthread timedwait thread cond
    exact syncCondTimedwaitAt_valid pthread clock timedwait thread
      timeoutMs cond

/-- The last microsecond of a second on macOS. -/
def lastMicrosecond : Clock :=
  .macos ⟨.ofInt .long 1700000000, .ofInt .int 999999⟩

/-- It is a reading that leaves room. -/
theorem lastMicrosecond_valid : lastMicrosecond.Valid :=
  ⟨by decide, by decide, by decide, by decide, by decide⟩

/-- A timeout of 1999 milliseconds from there ends almost two seconds later. -/
theorem deadline_exact_lastMicrosecond :
    (platformGetAbstime lastMicrosecond 1999).Denotes
      1700000002998999000 :=
  (deadline_exact lastMicrosecond_valid 1999).1

end SThread.Sync
