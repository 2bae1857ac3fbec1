import Mathlib.Data.Multiset.Range
import Mathlib.Data.ZMod.Basic
import SThread.ThreadPool.Accounts

namespace SThread.ThreadPool

open SThread.Library
open SThread.Scheduler

/-!
# The accounts of the pool

Six accounts follow a task from the call of `thread_pool_submit` to the
increment of `completed_tasks`; each says which threads hold what has left one
history and not yet entered the next.  The seventh is `active_tasks`, which
counts modulo `2 ^ 64`.
-/

/-- The number of the submission a task came from. -/
def taskId
    {Func Arg : Type}
    (task : Func × Job Arg) : Nat :=
  task.2.id

/-- The numbers of a list of tasks. -/
def taskIds
    {Func Arg : Type}
    (tasks : List (Func × Job Arg)) : Multiset Nat :=
  ↑(tasks.map taskId)

/-- The numbers of tasks in a row add up. -/
@[simp] theorem taskIds_append
    {Func Arg : Type}
    (first second : List (Func × Job Arg)) :
    taskIds (first ++ second) = taskIds first + taskIds second := by
  simp [taskIds]

/-- One task has one number. -/
@[simp] theorem taskIds_singleton
    {Func Arg : Type}
    (task : Func × Job Arg) :
    taskIds [task] = {taskId task} := by
  simp [taskIds]

/-- The task of a submission carries its number. -/
@[simp] theorem taskId_task
    {Func Arg : Type}
    (submission : Submission Func Arg) :
    taskId submission.task = submission.id := by
  simp [taskId, Submission.task]

/-- One more item at the end of a list. -/
@[simp] theorem coe_snoc
    {Item : Type}
    (items : List Item)
    (item : Item) :
    (↑(items ++ [item]) : Multiset Item) = ↑items + {item} :=
  (Multiset.coe_add items [item]).symm

/-- One more index. -/
@[simp] theorem range_snoc
    {Item : Type}
    (items : List Item)
    (item : Item) :
    Multiset.range (items ++ [item]).length =
      Multiset.range items.length + {items.length} := by
  rw [List.length_append, List.length_singleton, Multiset.range_succ,
    ← Multiset.singleton_add, add_comm]

namespace Caller

/-- The task whose code made a call. -/
def ids
    {Func Arg Local : Type} :
    Caller Func Arg Local → Multiset Nat
  | .client => 0
  | .task item _ => {taskId item}

end Caller

namespace Place

variable
    {Func Arg Local : Type}

/-- The submission of the thread is neither linked nor refused. -/
def undecided
    (place : Place Func Arg Local) : Multiset Nat :=
  match place.pc with
  | .submitting .checking submission _ => {submission.id}
  | .submitting .pushing submission _ =>
      if place.call.pushed = true then 0 else {submission.id}
  | _ => 0

/-- The submission of the thread is linked and not counted. -/
def uncounted
    (place : Place Func Arg Local) : Multiset Nat :=
  match place.pc with
  | .submitting .pushing submission _ =>
      if place.call.pushed = true then {submission.id} else 0
  | _ => 0

/-- The submission of the thread is counted and has not returned 0. -/
def unacknowledged
    (place : Place Func Arg Local) : Multiset Nat :=
  match place.pc with
  | .submitting (.done ret) submission _ =>
      if ret = 0 then {submission.id} else 0
  | _ => 0

/-- The thread has removed the task and not called its function. -/
def uncalled
    (place : Place Func Arg Local) : Multiset (Func × Job Arg) :=
  match place.pc with
  | .popping => ↑place.call.held
  | .activating task => {task}
  | .entering task => {task}
  | _ => 0

/-- The thread is inside the function of the task. -/
def executing
    (place : Place Func Arg Local) : Multiset Nat :=
  match place.pc with
  | .running task _ => {taskId task}
  | .submitting _ _ caller => caller.ids
  | .waiting _ _ caller => caller.ids
  | _ => 0

/-- The thread has returned from the function and not counted the task. -/
def uncompleted
    (place : Place Func Arg Local) : Multiset Nat :=
  match place.pc with
  | .deactivating task => {taskId task}
  | .completing task => {taskId task}
  | _ => 0

/-- The thread has incremented `active_tasks` and not decremented it. -/
def active
    (place : Place Func Arg Local) : Bool :=
  match place.pc with
  | .entering _ => true
  | .running _ _ => true
  | .deactivating _ => true
  | .submitting _ _ (.task _ _) => true
  | .waiting _ _ (.task _ _) => true
  | _ => false

end Place

section Accounts

variable
    (Func Arg Local : Type)

/-- A submission is undecided until it is linked or refused. -/
def submissionAccount :
    Account Func Arg Local (Multiset Nat) where
  credit record :=
    Multiset.range record.history.submissions.length
  debit record :=
    taskIds record.linked + ↑record.history.refused
  weight :=
    Place.undecided

/-- A linked task is uncounted until `submitted_tasks` is incremented. -/
def countingAccount :
    Account Func Arg Local (Multiset Nat) where
  credit record :=
    taskIds record.linked
  debit record :=
    ↑record.history.counted
  weight :=
    Place.uncounted

/-- A counted submission is unacknowledged until the call returns 0. -/
def acknowledgingAccount :
    Account Func Arg Local (Multiset Nat) where
  credit record :=
    ↑record.history.counted
  debit record :=
    ↑record.history.acknowledged
  weight :=
    Place.unacknowledged

/-- A removed task is uncalled until its function is called. -/
def callingAccount :
    Account Func Arg Local (Multiset (Func × Job Arg)) where
  credit record :=
    ↑record.removed
  debit record :=
    ↑record.history.called
  weight :=
    Place.uncalled

/-- A called task is executing until its function returns. -/
def executingAccount :
    Account Func Arg Local (Multiset Nat) where
  credit record :=
    taskIds record.history.called
  debit record :=
    ↑record.history.finished
  weight :=
    Place.executing

/-- A finished task is uncompleted until `completed_tasks` is incremented. -/
def completingAccount :
    Account Func Arg Local (Multiset Nat) where
  credit record :=
    ↑record.history.finished
  debit record :=
    ↑record.history.completed
  weight :=
    Place.uncompleted

/-- The machine word `active_tasks` as a residue. -/
def activeAccount :
    Account Func Arg Local (ZMod (2 ^ 64)) where
  credit record :=
    (record.activeTasks.toNat : ZMod (2 ^ 64))
  debit _ :=
    0
  weight place :=
    (place.active.toNat : ZMod (2 ^ 64))

end Accounts

section Sound

variable
    {Func Arg Local : Type}
    {behaviour : TaskBehaviour Func Arg Local}

/-- A submission enters with its call and leaves when linked or refused. -/
theorem submissionAccount_sound :
    (submissionAccount Func Arg Local).Sound behaviour where
  start :=
    rfl
  idle thread := by
    cases thread <;> rfl
  stable :=
    ⟨fun _ _ => rfl, fun _ _ _ _ _ => rfl, fun _ _ _ _ _ => rfl⟩
  worker := by
    intro Owner thread shared place shared' place' linked removed _ step
    cases step <;> exact .quiet rfl rfl rfl
  submit := by
    intro Owner shared place shared' place' linked removed step
    cases step with
    | callNull call caller arg priority may =>
        exact .quiet rfl rfl (by cases caller <;> rfl)
    | call call caller func arg priority may =>
        refine .receive {shared.history.submissions.length}
          (range_snoc _ _) rfl ?_
        cases caller <;> simp [submissionAccount, Place.undecided, Caller.place]
    | checkFailed call submission caller stopped =>
        refine .pay {submission.id} rfl ?_ rfl
        simp [submissionAccount, Shared.record, add_assoc]
    | checkPassed submission caller running =>
        exact .quiet rfl rfl rfl
    | pushFailed submission caller ret failed =>
        refine .pay {submission.id} rfl ?_ ?_
        · simp [submissionAccount, Shared.record, add_assoc]
        · simp [submissionAccount, Place.undecided,
            Scheduler.Pc.pushed, failed]
    | counted submission caller =>
        exact .quiet rfl rfl rfl
    | failed call submission caller ret failed
    | acknowledged call submission caller =>
        exact .quiet rfl rfl (by cases caller <;> rfl)
  queue := by
    intro Owner shared pc call call' before after linked removed move
    cases move with
    | push submission caller call call' unlinked unheld unheld' =>
        cases pushed : call'.pushed with
        | false =>
            refine .quiet rfl ?_ ?_ <;>
              simp [submissionAccount, Shared.record, Place.undecided,
                unlinked, pushed]
        | true =>
            refine .pay {submission.id} rfl ?_ ?_
            · simp [submissionAccount, Shared.record, add_comm]
            · simp [submissionAccount, Place.undecided, unlinked, pushed]
    | pop call call' removed held
    | shutdown =>
        exact .quiet rfl (by simp [submissionAccount, Shared.record]) rfl
  waiting _ _ caller _ := by
    cases caller <;> rfl
  resume _ caller _ := by
    cases caller <;> rfl
  broadcast _ :=
    rfl
  destroying _ _ _ _ :=
    rfl

/-- A linked task enters with its node and leaves when it is counted. -/
theorem countingAccount_sound :
    (countingAccount Func Arg Local).Sound behaviour where
  start :=
    rfl
  idle thread := by
    cases thread <;> rfl
  stable :=
    ⟨fun _ _ => rfl, fun _ _ _ _ _ => rfl, fun _ _ _ _ _ => rfl⟩
  worker := by
    intro Owner thread shared place shared' place' linked removed _ step
    cases step <;> exact .quiet rfl rfl rfl
  submit := by
    intro Owner shared place shared' place' linked removed step
    cases step with
    | counted submission caller =>
        refine .pay {submission.id} rfl ?_ rfl
        simp [countingAccount, Shared.record]
    | pushFailed submission caller ret failed =>
        refine .quiet rfl rfl ?_
        simp [countingAccount, Place.uncounted,
          Scheduler.Pc.pushed, failed]
    | checkFailed call submission caller stopped
    | checkPassed submission caller running =>
        exact .quiet rfl rfl rfl
    | callNull call caller arg priority may
    | call call caller func arg priority may
    | failed call submission caller ret failed
    | acknowledged call submission caller =>
        exact .quiet rfl rfl (by cases caller <;> rfl)
  queue := by
    intro Owner shared pc call call' before after linked removed move
    cases move with
    | push submission caller call call' unlinked unheld unheld' =>
        cases pushed : call'.pushed with
        | false =>
            refine .quiet ?_ rfl ?_ <;>
              simp [countingAccount, Shared.record, Place.uncounted,
                unlinked, pushed]
        | true =>
            refine .receive {submission.id} ?_ rfl ?_ <;>
              simp [countingAccount, Shared.record, Place.uncounted,
                unlinked, pushed]
    | pop call call' removed held
    | shutdown =>
        exact .quiet (by simp [countingAccount, Shared.record]) rfl rfl
  waiting _ _ caller _ := by
    cases caller <;> rfl
  resume _ caller _ := by
    cases caller <;> rfl
  broadcast _ :=
    rfl
  destroying _ _ _ _ :=
    rfl

/-- A counted submission leaves when its call returns 0. -/
theorem acknowledgingAccount_sound :
    (acknowledgingAccount Func Arg Local).Sound behaviour where
  start :=
    rfl
  idle thread := by
    cases thread <;> rfl
  stable :=
    ⟨fun _ _ => rfl, fun _ _ _ _ _ => rfl, fun _ _ _ _ _ => rfl⟩
  worker := by
    intro Owner thread shared place shared' place' linked removed _ step
    cases step <;> exact .quiet rfl rfl rfl
  submit := by
    intro Owner shared place shared' place' linked removed step
    cases step with
    | counted submission caller =>
        refine .receive {submission.id} ?_ rfl rfl
        simp [acknowledgingAccount, Shared.record]
    | acknowledged call submission caller =>
        refine .pay {submission.id} rfl ?_ ?_
        · simp [acknowledgingAccount, Shared.record]
        · cases caller <;> rfl
    | pushFailed submission caller ret failed =>
        refine .quiet rfl rfl ?_
        simp [acknowledgingAccount, Place.unacknowledged, failed]
    | failed call submission caller ret failed =>
        refine .quiet rfl rfl ?_
        cases caller <;>
          simp [acknowledgingAccount, Place.unacknowledged, failed,
            Caller.resume]
    | checkFailed call submission caller stopped
    | checkPassed submission caller running =>
        exact .quiet rfl rfl rfl
    | callNull call caller arg priority may
    | call call caller func arg priority may =>
        exact .quiet rfl rfl (by cases caller <;> rfl)
  queue := by
    intro Owner shared pc call call' before after linked removed move
    cases move <;> exact .quiet rfl rfl rfl
  waiting _ _ caller _ := by
    cases caller <;> rfl
  resume _ caller _ := by
    cases caller <;> rfl
  broadcast _ :=
    rfl
  destroying _ _ _ _ :=
    rfl

/-- A removed task stays with its worker until its function is called. -/
theorem callingAccount_sound :
    (callingAccount Func Arg Local).Sound behaviour where
  start :=
    rfl
  idle thread := by
    cases thread <;> rfl
  stable :=
    ⟨fun _ _ => rfl, fun _ _ _ _ _ => rfl, fun _ _ _ _ _ => rfl⟩
  worker := by
    intro Owner thread shared place shared' place' linked removed
      alive step
    cases step with
    | enter call task =>
        refine .pay {task} rfl ?_ ?_ <;>
          simp [callingAccount, Shared.record, Place.uncalled]
    | terminated removal stops =>
        exact (alive.elim (· stops) (· rfl)).elim
    | _ =>
        exact .quiet rfl rfl rfl
  submit := by
    intro Owner shared place shared' place' linked removed step
    cases step with
    | callNull call caller arg priority may
    | call call caller func arg priority may
    | failed call submission caller ret failed
    | acknowledged call submission caller =>
        exact .quiet rfl rfl (by cases caller <;> rfl)
    | _ =>
        exact .quiet rfl rfl rfl
  queue := by
    intro Owner shared pc call call' before after linked removed move
    cases move with
    | pop call call' removed held =>
        refine .receive ↑removed ?_ rfl ?_ <;>
          simp [callingAccount, Shared.record, Place.uncalled, held]
    | push submission caller call call' unlinked unheld unheld'
    | shutdown =>
        exact .quiet (by simp [callingAccount, Shared.record]) rfl rfl
  waiting _ _ caller _ := by
    cases caller <;> rfl
  resume _ caller _ := by
    cases caller <;> rfl
  broadcast _ :=
    rfl
  destroying _ _ _ _ :=
    rfl

/-- A called task stays with its worker until its function returns. -/
theorem executingAccount_sound :
    (executingAccount Func Arg Local).Sound behaviour where
  start :=
    rfl
  idle thread := by
    cases thread <;> rfl
  stable :=
    ⟨fun _ _ => rfl, fun _ _ _ _ _ => rfl, fun _ _ _ _ _ => rfl⟩
  worker := by
    intro Owner thread shared place shared' place' linked removed _ step
    cases step with
    | enter call task =>
        refine .receive {taskId task} ?_ rfl ?_ <;>
          simp [executingAccount, Shared.record, Place.executing]
    | finish call task here acts =>
        refine .pay {taskId task} rfl ?_ ?_ <;>
          simp [executingAccount, Shared.record, Place.executing, taskId]
    | _ =>
        exact .quiet rfl rfl rfl
  submit := by
    intro Owner shared place shared' place' linked removed step
    cases step with
    | callNull call caller arg priority may
    | call call caller func arg priority may
    | failed call submission caller ret failed
    | acknowledged call submission caller =>
        exact .quiet rfl rfl (by cases caller <;> rfl)
    | _ =>
        exact .quiet rfl rfl rfl
  queue := by
    intro Owner shared pc call call' before after linked removed move
    cases move <;> exact .quiet rfl rfl rfl
  waiting _ _ caller _ := by
    cases caller <;> rfl
  resume _ caller _ := by
    cases caller <;> rfl
  broadcast _ :=
    rfl
  destroying _ _ _ _ :=
    rfl

/-- A finished task leaves when `completed_tasks` is incremented. -/
theorem completingAccount_sound :
    (completingAccount Func Arg Local).Sound behaviour where
  start :=
    rfl
  idle thread := by
    cases thread <;> rfl
  stable :=
    ⟨fun _ _ => rfl, fun _ _ _ _ _ => rfl, fun _ _ _ _ _ => rfl⟩
  worker := by
    intro Owner thread shared place shared' place' linked removed _ step
    cases step with
    | finish call task here acts =>
        refine .receive {taskId task} ?_ rfl ?_ <;>
          simp [completingAccount, Shared.record, Place.uncompleted,
            taskId]
    | complete call task =>
        refine .pay {taskId task} rfl ?_ ?_ <;>
          simp [completingAccount, Shared.record, Place.uncompleted,
            taskId]
    | _ =>
        exact .quiet rfl rfl rfl
  submit := by
    intro Owner shared place shared' place' linked removed step
    cases step with
    | callNull call caller arg priority may
    | call call caller func arg priority may
    | failed call submission caller ret failed
    | acknowledged call submission caller =>
        exact .quiet rfl rfl (by cases caller <;> rfl)
    | _ =>
        exact .quiet rfl rfl rfl
  queue := by
    intro Owner shared pc call call' before after linked removed move
    cases move <;> exact .quiet rfl rfl rfl
  waiting _ _ caller _ := by
    cases caller <;> rfl
  resume _ caller _ := by
    cases caller <;> rfl
  broadcast _ :=
    rfl
  destroying _ _ _ _ :=
    rfl

/-- `atomic_fetch_add` counts one up. -/
theorem cast_add_one
    (counter : UInt64) :
    ((counter + 1).toNat : ZMod (2 ^ 64)) = counter.toNat + 1 := by
  rw [UInt64.toNat_add, ZMod.natCast_mod]
  simp

/-- `atomic_fetch_sub` counts one down. -/
theorem cast_sub_one
    (counter : UInt64) :
    (counter.toNat : ZMod (2 ^ 64)) = (counter - 1).toNat + 1 := by
  rw [← cast_add_one, UInt64.sub_add_cancel]

/-- Every worker adds one to `active_tasks` for the task it is in. -/
theorem activeAccount_sound :
    (activeAccount Func Arg Local).Sound behaviour where
  start :=
    rfl
  idle thread := by
    cases thread <;> rfl
  stable :=
    ⟨fun _ _ => rfl, fun _ _ _ _ _ => rfl, by
      intro call completed since caller wake
      cases caller <;> rfl⟩
  worker := by
    intro Owner thread shared place shared' place' linked removed _ step
    cases step with
    | activate call task =>
        refine .receive 1 (cast_add_one _) rfl ?_
        simp [activeAccount, Place.active]
    | deactivate call task =>
        refine .giveBack 1 (cast_sub_one _) rfl ?_
        simp [activeAccount, Place.active]
    | _ =>
        exact .quiet rfl rfl rfl
  submit := by
    intro Owner shared place shared' place' linked removed step
    cases step with
    | callNull call caller arg priority may
    | call call caller func arg priority may
    | failed call submission caller ret failed
    | acknowledged call submission caller =>
        exact .quiet rfl rfl (by cases caller <;> rfl)
    | checkFailed call submission caller stopped
    | checkPassed submission caller running
    | pushFailed submission caller ret failed
    | counted submission caller =>
        exact .quiet rfl rfl (by cases caller <;> rfl)
  queue := by
    intro Owner shared pc call call' before after linked removed move
    cases move <;> exact .quiet rfl rfl rfl
  waiting _ _ caller _ := by
    cases caller <;> rfl
  resume _ caller _ := by
    cases caller <;> rfl
  broadcast _ :=
    rfl
  destroying _ _ _ _ :=
    rfl

end Sound

end SThread.ThreadPool
