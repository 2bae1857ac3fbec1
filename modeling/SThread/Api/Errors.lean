import SThread.Scheduler.TaskQueue

namespace SThread.Api

/-!
# Result codes and priorities of the public interface

The enumerations of `sthread.h`.  A public function that returns `int` only
ever returns one of the codes of `sthread_error_t`.
-/

/-- `sthread_error_t`. -/
inductive SthreadError where
  | success
  | nomem
  | invalid
  | busy
  | timeout
  | deadlock
  | shutdown
  | system
  deriving DecidableEq, Repr

/-- `sthread_priority_t`. -/
inductive SthreadPriority where
  | low
  | normal
  | high
  | critical
  deriving DecidableEq, Repr

/-- The cast of a public priority to `task_priority_t`. -/
def SthreadPriority.toTaskPriority :
    SthreadPriority → Scheduler.TaskPriority
  | .low => .low
  | .normal => .normal
  | .high => .high
  | .critical => .critical

/-- Every priority of a task can be asked for. -/
theorem SthreadPriority.toTaskPriority_surjective :
    Function.Surjective SthreadPriority.toTaskPriority := by
  intro priority
  cases priority with
  | low =>
      exact ⟨.low, rfl⟩
  | normal =>
      exact ⟨.normal, rfl⟩
  | high =>
      exact ⟨.high, rfl⟩
  | critical =>
      exact ⟨.critical, rfl⟩

end SThread.Api
