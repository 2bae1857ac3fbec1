import SThread.Api.Errors
import SThread.ThreadPool.ExactlyOnce

namespace SThread.Api

open SThread.Library
open SThread.Scheduler (TaskPriority)
open SThread.ThreadPool

/-!
# The result of a submission

`sthread_pool_submit` and `sthread_pool_submit_priority` translate the result
of `thread_pool_submit`.  The pool tests for a shutdown once, in its state
check, and the queue twice, when `task_queue_push` first takes `queue->lock`
and when it takes it again after a wait.

A submitter is told the truth when the state check refuses it.  A refusal by
the queue reaches `thread_pool_submit` as the -1 that also reports a failed
allocation, and the public functions turn it into `STHREAD_ERROR_SYSTEM`.

`Audited` adds to a pool what became of the current submission of each thread.
-/

/-- The translation of a result of `thread_pool_submit`. -/
def submitResult (ret : Int) : SthreadError :=
  if ret = -2 then
    .shutdown
  else if ret = 0 then
    .success
  else
    .system

/-- `sthread_pool_submit_priority`; `none` stands for `NULL`. -/
def sthreadPoolSubmitPriority
    {Pool Func Arg : Type}
    (threadPoolSubmit : Pool → Func → Arg → TaskPriority → Int)
    (pool : Option Pool)
    (func : Option Func)
    (arg : Arg)
    (priority : SthreadPriority) : SthreadError :=
  match pool, func with
  | some pool, some func =>
      submitResult
        (threadPoolSubmit pool func arg priority.toTaskPriority)
  | _, _ =>
      .invalid

/-- `sthread_pool_submit`. -/
def sthreadPoolSubmit
    {Pool Func Arg : Type}
    (threadPoolSubmit : Pool → Func → Arg → TaskPriority → Int)
    (pool : Option Pool)
    (func : Option Func)
    (arg : Arg) : SthreadError :=
  match pool, func with
  | some pool, some func =>
      submitResult (threadPoolSubmit pool func arg .normal)
  | _, _ =>
      .invalid

/-- What has become of a submission so far. -/
inductive Verdict where
  | pending
  | refusedByState
  | refusedByQueue
  deriving DecidableEq, Repr

/-- Some test found that the shutdown had begun. -/
def Verdict.Refused (verdict : Verdict) : Prop :=
  verdict = .refusedByState ∨ verdict = .refusedByQueue

/-- In `task_queue_push`, with the acquisition of `queue->lock` as next step. -/
def atQueueLock
    {Func Arg : Type} :
    Scheduler.Pc Func Arg → Bool
  | .pushEnter _ _ _ => true
  | .pushWait _ _ _ _ => true
  | _ => false

section Audit

variable
    {config : Config}
    {Client Func Arg Local : Type}

/-- The verdict after a step that a thread takes from this state. -/
def verdictAfter
    (state : State config Client Func Arg Local)
    (thread : Thread config.numThreads Client)
    (verdict : Verdict) : Verdict :=
  match state.pc thread with
  | .submitting .checking _ _ =>
      if state.shared.poolState = .running then
        .pending
      else
        .refusedByState
  | .submitting .pushing _ _ =>
      if atQueueLock (state.queue.pc thread) = true ∧
          state.queue.queue.shutdown = true then
        .refusedByQueue
      else
        verdict
  | _ => verdict

/-- A pool with a verdict on the latest submission of each thread. -/
structure Audited
    (config : Config)
    (Client Func Arg Local : Type) where
  state : State config Client Func Arg Local
  verdict : Thread config.numThreads Client → Verdict

/-- A submitter takes `queue->lock` only while the queue is not shut down. -/
def FindsQueueOpen
    (state : State config Client Func Arg Local)
    (thread : Thread config.numThreads Client) : Prop :=
  atQueueLock (state.queue.pc thread) = true →
    state.queue.queue.shutdown = false

/-- The steps of an audited pool, each from a state that meets a condition. -/
inductive Audited.Next
    [DecidableEq Client]
    (behaviour : TaskBehaviour Func Arg Local)
    (condition :
      State config Client Func Arg Local →
      Thread config.numThreads Client → Prop)
    (audited : Audited config Client Func Arg Local) :
    Audited config Client Func Arg Local → Prop where
  | step
      (thread : Thread config.numThreads Client)
      {later : State config Client Func Arg Local}
      (meets : condition audited.state thread)
      (allocated : ¬ audited.state.Freed)
      (step : Step behaviour audited.state thread later) :
      Next behaviour condition audited {
        state := later
        verdict :=
          Function.update audited.verdict thread
            (verdictAfter audited.state thread
              (audited.verdict thread)) }
  | queueSpurious
      (thread : Thread config.numThreads Client)
      {call : Scheduler.Pc Func (Job Arg)}
      (allocated : ¬ audited.state.Freed)
      (wakes :
        (audited.state.queue.pc thread).spurious = some call) :
      Next behaviour condition audited {
        audited with
          state := {
            audited.state with
              queue := audited.state.queue.setPc thread call } }
  | waitSpurious
      (thread : Thread config.numThreads Client)
      (completed : Nat)
      (since : List Nat)
      (caller : Caller Func Arg Local)
      (allocated : ¬ audited.state.Freed)
      (here :
        audited.state.pc thread =
          .waiting (.sleeping completed .asleep) since caller) :
      Next behaviour condition audited {
        audited with
          state := {
            audited.state with
              pc :=
                Function.update audited.state.pc thread
                  (.waiting (.sleeping completed .spurious)
                    since caller) } }

/-- The runs of an audited pool whose steps all meet a condition. -/
def auditedSystem
    (config : Config)
    (Client : Type)
    {Func Arg Local : Type}
    [DecidableEq Client]
    (behaviour : TaskBehaviour Func Arg Local)
    (condition :
      State config Client Func Arg Local →
      Thread config.numThreads Client → Prop) :
    System (Audited config Client Func Arg Local) where
  init audited :=
    audited =
      ⟨State.initial config Client Func Arg Local, fun _ => .pending⟩
  next :=
    Audited.Next behaviour condition

/-- A result tells what became of the submission. -/
structure Truthful
    (audited : Audited config Client Func Arg Local)
    (thread : Thread config.numThreads Client)
    (submission : Submission Func Arg)
    (result : SthreadError) : Prop where
  success :
    result = .success ↔ submission.task ∈ audited.state.queue.linked
  shutdown :
    result = .shutdown ↔ (audited.verdict thread).Refused

/--
Both public functions tell the truth about a finished call of
`thread_pool_submit`, whichever of them has made it.
-/
def TruthfulSubmit
    (audited : Audited config Client Func Arg Local)
    (thread : Thread config.numThreads Client)
    (submission : Submission Func Arg)
    (ret : Int) : Prop :=
  ∀ (Pool : Type) (pool : Pool)
    (threadPoolSubmit : Pool → Func → Arg → TaskPriority → Int),
    threadPoolSubmit pool submission.func submission.arg
        submission.priority = ret →
    (submission.priority = .normal →
      Truthful audited thread submission
        (sthreadPoolSubmit threadPoolSubmit
          (some pool) (some submission.func) submission.arg)) ∧
    ∀ priority : SthreadPriority,
      priority.toTaskPriority = submission.priority →
      Truthful audited thread submission
        (sthreadPoolSubmitPriority threadPoolSubmit
          (some pool) (some submission.func) submission.arg priority)

end Audit

/-- Success is the code 0. -/
theorem submitResult_success
    (ret : Int) :
    submitResult ret = .success ↔ ret = 0 := by
  unfold submitResult
  split <;> rename_i first
  · simp [first]
  · split <;> simp_all

/-- `STHREAD_ERROR_SHUTDOWN` is the code -2. -/
theorem submitResult_shutdown
    (ret : Int) :
    submitResult ret = .shutdown ↔ ret = -2 := by
  unfold submitResult
  split <;> rename_i first
  · simp [first]
  · split <;> simp_all

/-- The verdict agrees with where the thread is in `task_queue_push`. -/
def Verdict.FitsCall
    {Func Arg : Type} :
    Verdict → Scheduler.Pc Func Arg → Prop
  | .pending, .pushFree _ => False
  | .pending, .pushDone ret => ret = 0 ∨ ret = -1
  | .pending, _ => True
  | .refusedByQueue, .pushFree _ => True
  | .refusedByQueue, .pushDone ret => ret = -1
  | .refusedByQueue, call => call = .fault
  | .refusedByState, _ => False

/-- The verdict agrees with a result of `thread_pool_submit`. -/
def Verdict.FitsResult : Verdict → Int → Prop
  | .pending, ret => ret = 0 ∨ ret = -1
  | .refusedByQueue, ret => ret = -1
  | .refusedByState, ret => ret = -2

/-- The verdict agrees with where the thread is in `thread_pool_submit`. -/
def Verdict.Fits
    {Func Arg Local : Type}
    (verdict : Verdict)
    (place : Place Func Arg Local) : Prop :=
  match place.pc with
  | .submitting .pushing _ _ => verdict.FitsCall place.call
  | .submitting (.done ret) _ _ => verdict.FitsResult ret
  | _ => True

/-- Own code awaits no verdict. -/
theorem Verdict.fits_resume
    {Func Arg Local : Type}
    (verdict : Verdict)
    (behaviour : TaskBehaviour Func Arg Local)
    (ret : Int)
    (caller : Caller Func Arg Local)
    (call : Scheduler.Pc Func (Job Arg)) :
    verdict.Fits ⟨caller.resume behaviour ret, call⟩ := by
  cases caller <;> trivial

/-- No wake-up disturbs the verdict. -/
theorem Verdict.fits_stable
    {Func Arg Local : Type}
    (verdict : Verdict) :
    Place.Stable
      (fun place : Place Func Arg Local => verdict.Fits place) where
  notEmpty := by
    intro pc wake
    cases pc with
    | submitting stage submission caller =>
        cases stage <;> cases verdict <;>
          simp [Verdict.Fits, Verdict.FitsCall]
    | _ =>
        rfl
  notFull := by
    intro pc func arg node wake
    cases pc with
    | submitting stage submission caller =>
        cases stage <;> cases verdict <;>
          simp [Verdict.Fits, Verdict.FitsCall]
    | _ =>
        rfl
  waitCond := by
    intro call completed since caller wake
    rfl

/-- A thread in a section of `task_queue_push` has just taken the lock. -/
theorem PushSection.atQueueLock
    {Func Arg : Type}
    {heap : Scheduler.Heap Func Arg}
    {queue : Scheduler.TaskQueue}
    {pc : Scheduler.Pc Func Arg}
    {func : Func}
    {arg : Arg}
    {node : Scheduler.Addr}
    {exit : Scheduler.PushExit Func Arg}
    (locked : Scheduler.PushSection heap queue pc func arg node exit) :
    Api.atQueueLock pc = true := by
  cases locked <;> rfl

/-- A submitter that may still take the lock has not been refused. -/
theorem Verdict.FitsCall.eq_pending
    {Func Arg : Type}
    {verdict : Verdict}
    {call : Scheduler.Pc Func Arg}
    (fits : verdict.FitsCall call)
    (waits : atQueueLock call = true) :
    verdict = .pending := by
  cases call <;> cases verdict <;>
    simp_all [Verdict.FitsCall, atQueueLock]

/-- A step inside `task_queue_push` keeps the verdict in agreement. -/
theorem Verdict.FitsCall.step
    {Thread Func Arg : Type}
    [DecidableEq Thread]
    {state later : Scheduler.State Thread Func Arg}
    {thread : Thread}
    {verdict : Verdict}
    {task : Func × Arg}
    (step : Scheduler.Step state thread later)
    (inside : (state.pc thread).InPush task)
    (fits : verdict.FitsCall (state.pc thread)) :
    (if atQueueLock (state.pc thread) = true ∧
        state.queue.shutdown = true then
      Verdict.refusedByQueue
    else
      verdict).FitsCall (later.pc thread) := by
  cases step with
  | alloc func arg priority node submitTime here fresh =>
      rw [here] at fits
      cases verdict <;>
        simp_all [Verdict.FitsCall, atQueueLock]
  | allocFailed func arg priority here =>
      rw [here] at fits
      cases verdict <;>
        simp_all [Verdict.FitsCall, atQueueLock]
  | pushRefused func arg node locked =>
      have closed : state.queue.shutdown = true := locked.justified
      simp [PushSection.atQueueLock locked, closed, Verdict.FitsCall]
  | pushSleeps func arg node locked =>
      have opened : state.queue.shutdown = false := locked.justified.1
      have waits := PushSection.atQueueLock locked
      simp [opened, fits.eq_pending waits, Verdict.FitsCall]
  | pushLinked func arg node heap queue targets locked signals =>
      have opened : state.queue.shutdown = false := locked.justified.1
      have waits := PushSection.atQueueLock locked
      have done :
          (Scheduler.notEmpty Func Arg).notify targets
              (Function.update state.pc thread (.pushDone 0)) thread =
            .pushDone 0 := by
        rw [CondVar.notify_of_awake signals
          (by rw [Function.update_self]; rfl), Function.update_self]
      simp [opened, fits.eq_pending waits, done, Verdict.FitsCall]
  | pushFault func arg node locked =>
      have waits := PushSection.atQueueLock locked
      rw [fits.eq_pending waits]
      split <;> simp [Verdict.FitsCall]
  | pushFreed node record here stored =>
      rw [here] at fits
      cases verdict <;>
        simp_all [Verdict.FitsCall, atQueueLock]
  | pushFreeFault node here missing =>
      rw [here] at fits
      cases verdict <;>
        simp_all [Verdict.FitsCall, atQueueLock]
  | popEmpty kind locked
  | popSleeps kind locked
  | popUnlinked kind node record queue targets locked stored signals
  | popFault kind locked =>
      have pops := locked.popKind
      rw [Scheduler.Pc.popKind_of_inPush inside] at pops
      contradiction
  | popTaken kind node removal record here stored
  | popTakeFault kind node removal here missing
  | shutdown here =>
      rw [here] at inside
      exact inside.elim

/-- A finished call has left its trace in the history. -/
def Decided
    {Func Arg Local : Type}
    (history : History Func Arg) :
    Pc Func Arg Local → Prop
  | .submitting (.done ret) submission _ =>
      (ret = 0 → submission.id ∈ history.counted) ∧
        (ret ≠ 0 → submission.id ∈ history.refused)
  | _ => True

/-- A longer history decides no less. -/
theorem Decided.mono
    {Func Arg Local : Type}
    {before after : History Func Arg}
    {pc : Pc Func Arg Local}
    (decided : Decided before pc)
    (grows :
      before.counted <+: after.counted ∧
        before.refused <+: after.refused) :
    Decided after pc := by
  cases pc with
  | submitting stage submission caller =>
      cases stage with
      | done ret =>
          exact ⟨fun zero => grows.1.subset (decided.1 zero),
            fun nonzero => grows.2.subset (decided.2 nonzero)⟩
      | _ =>
          trivial
  | _ =>
      trivial

/-- Counted and refused submissions are only ever added. -/
theorem LocalStep.history_grows
    {Owner Func Arg Local : Type}
    {behaviour : TaskBehaviour Func Arg Local}
    {thread : Owner}
    {numThreads : Nat}
    {shared shared' : Shared Owner Func Arg}
    {place place' : Place Func Arg Local}
    (step :
      LocalStep behaviour thread numThreads
        shared place shared' place') :
    shared.history.counted <+: shared'.history.counted ∧
      shared.history.refused <+: shared'.history.refused := by
  cases step with
  | worker step
  | submit step
  | wait step
  | destroy step =>
      cases step <;> simp

section Runs

variable
    {config : Config}
    {Client Func Arg Local : Type}
    [DecidableEq Client]
    {behaviour : TaskBehaviour Func Arg Local}
    {condition :
      State config Client Func Arg Local →
      Thread config.numThreads Client → Prop}
    {audited : Audited config Client Func Arg Local}

/-- An audited run is a run of the pool. -/
theorem reachable_audited
    (reachable :
      (auditedSystem config Client behaviour condition).Reachable
        audited) :
    (system config Client behaviour).Reachable audited.state := by
  refine reachable.map Audited.state ?_ ?_
  · rintro first rfl
    rfl
  · intro before after next
    cases next with
    | step thread meets allocated step =>
        exact .step thread allocated step
    | queueSpurious thread allocated wakes =>
        exact .queueSpurious thread allocated wakes
    | waitSpurious thread completed since caller allocated here =>
        exact .waitSpurious thread completed since caller allocated here

/-- A condition on the steps only takes runs away. -/
theorem reachable_unconditioned
    (reachable :
      (auditedSystem config Client behaviour condition).Reachable
        audited) :
    (auditedSystem config Client behaviour
      (fun _ _ => True)).Reachable audited := by
  refine reachable.map id ?_ ?_
  · intro first initial
    exact initial
  · intro before after next
    cases next with
    | step thread meets allocated step =>
        exact .step thread trivial allocated step
    | queueSpurious thread allocated wakes =>
        exact .queueSpurious thread allocated wakes
    | waitSpurious thread completed since caller allocated here =>
        exact .waitSpurious thread completed since caller allocated here

omit [DecidableEq Client] in
/-- A step in the functions of the pool keeps the verdict in agreement. -/
theorem Verdict.Fits.own
    {state : State config Client Func Arg Local}
    {thread : Thread config.numThreads Client}
    {shared : Shared (Thread config.numThreads Client) Func Arg}
    {place : Place Func Arg Local}
    {verdict : Verdict}
    (step :
      LocalStep behaviour thread config.numThreads
        state.shared (state.place thread) shared place)
    (fits : verdict.Fits (state.place thread)) :
    (verdictAfter state thread verdict).Fits place := by
  generalize here : state.place thread = before at step fits
  have atPc : state.pc thread = before.pc := congrArg Place.pc here
  have atCall : state.queue.pc thread = before.call :=
    congrArg Place.call here
  cases step with
  | worker step =>
      cases step <;> trivial
  | submit step =>
      cases step with
      | callNull call caller arg priority may
      | failed call submission caller ret failed
      | acknowledged call submission caller =>
          exact Verdict.fits_resume _ _ _ caller _
      | call call caller func arg priority may =>
          trivial
      | checkFailed call submission caller stopped =>
          simp [verdictAfter, atPc, stopped, Verdict.Fits,
            Verdict.FitsResult]
      | checkPassed submission caller running =>
          simp [verdictAfter, atPc, running, Verdict.Fits,
            Verdict.FitsCall, Scheduler.Request.start]
      | pushFailed submission caller ret failed =>
          cases verdict <;>
            simp_all [verdictAfter, atQueueLock, Verdict.Fits,
              Verdict.FitsCall, Verdict.FitsResult]
      | counted submission caller =>
          cases verdict <;>
            simp_all [verdictAfter, atQueueLock, Verdict.Fits,
              Verdict.FitsCall, Verdict.FitsResult]
  | wait step =>
      cases step with
      | ret call since caller =>
          exact Verdict.fits_resume _ _ _ caller _
      | _ =>
          trivial
  | destroy step =>
      cases step <;> trivial

/-- The verdict of the thread that takes a step agrees with its new place. -/
theorem Verdict.Fits.step
    {state later : State config Client Func Arg Local}
    {thread : Thread config.numThreads Client}
    {verdict : Verdict}
    (step : Step behaviour state thread later)
    (core : Core state)
    (fits : verdict.Fits (state.place thread)) :
    (verdictAfter state thread verdict).Fits (later.place thread) := by
  cases step with
  | queue step =>
      have agrees := core.agrees thread
      have inside := step.inside.1
      cases here : state.pc thread with
      | submitting stage submission caller =>
          cases stage with
          | pushing =>
              simp only [Verdict.Fits, State.place, here] at fits
              simp only [Place.Agrees, State.place, here] at agrees
              simpa [Verdict.Fits, State.place, verdictAfter, here] using
                fits.step step agrees
          | _ =>
              simp [Place.Agrees, State.place, here] at agrees
              exact (inside agrees).elim
      | _ =>
          simp [Verdict.Fits, State.place, here]
  | own step =>
      simpa [State.place, State.put] using fits.own step
  | broadcast here =>
      simp [Verdict.Fits, State.place, broadcast_actor]
  | join next here inRange ended
  | destroyQueue heap here frees =>
      simp [Verdict.Fits, State.place]
  | destroyQueueFault here fails =>
      simp [Verdict.Fits, State.place, here]

/-- All verdicts agree with the places of their threads. -/
theorem reachable_fits
    (reachable :
      (auditedSystem config Client behaviour condition).Reachable
        audited)
    (thread : Thread config.numThreads Client) :
    (audited.verdict thread).Fits (audited.state.place thread) := by
  refine System.Reachable.invariant
    (fun audited =>
      ∀ thread,
        (audited.verdict thread).Fits (audited.state.place thread))
    ?_ ?_ reachable thread
  · intro first initial thread
    subst initial
    cases thread <;> trivial
  · intro before after beforeReachable fits next other
    cases next with
    | step thread meets allocated step =>
        by_cases actor : other = thread
        · subst actor
          have core := reachable_core (reachable_audited beforeReachable)
          simpa using (fits other).step step core
        · have same :=
            step.observe_other
              (before.verdict other).fits_stable actor
          simpa [actor] using same.mpr (fits other)
    | queueSpurious thread allocated wakes =>
        have same :=
          observe_queueSpurious
            (before.verdict other).fits_stable wakes other
        exact same.mpr (fits other)
    | waitSpurious thread completed since caller allocated here =>
        have same :=
          observe_waitSpurious
            (before.verdict other).fits_stable here other
        exact same.mpr (fits other)

omit [DecidableEq Client] in
/-- A finished call of `thread_pool_submit` was counted or refused. -/
theorem decided_kept :
    ThreadInvariant behaviour
      (fun (_ : Thread config.numThreads Client)
          (shared : Shared (Thread config.numThreads Client) Func Arg)
          (pc : Pc Func Arg Local) =>
        Decided shared.history pc) := by
  refine .of_submit ?_ ?_ ?_
  · intro thread shared pc outside
    cases pc <;> first | contradiction | trivial
  · intro thread other shared place shared' place' pc _ step _ decided
    exact decided.mono (LocalStep.history_grows step)
  · intro thread shared place shared' place' step decided
    cases step with
    | callNull call caller arg priority may
    | failed call submission caller ret failed
    | acknowledged call submission caller =>
        cases caller <;> trivial
    | call call caller func arg priority may
    | checkPassed submission caller running =>
        trivial
    | checkFailed call submission caller stopped =>
        simp [Decided]
    | pushFailed submission caller ret failed =>
        simp [Decided, failed]
    | counted submission caller =>
        simp [Decided]

/-- The accepted task with the number of a submission is the submitted one. -/
theorem linked_of_counted
    [Fintype Client]
    {state : State config Client Func Arg Local}
    (reachable : (system config Client behaviour).Reachable state)
    {submission : Submission Func Arg}
    (submitted : state.shared.history.Submitted submission.task)
    (counted : submission.id ∈ state.shared.history.counted) :
    submission.task ∈ state.queue.linked := by
  have balanced := countingAccount_sound.balanced reachable
  simp only [countingAccount, State.record, Shared.record] at balanced
  have isLinked : submission.id ∈ taskIds state.queue.linked := by
    rw [balanced]
    exact Multiset.mem_add.mpr (Or.inl counted)
  obtain ⟨task, linked, sameId⟩ := List.mem_map.mp isLinked
  have genuine := reachable_linked_submitted reachable task linked
  rcases task with ⟨func, id, arg⟩
  obtain rfl : id = submission.id := sameId
  have same := genuine.symm.trans submitted
  simp only [Option.some.injEq, Prod.mk.injEq] at same
  obtain ⟨rfl, rfl⟩ := same
  exact linked

/-- A finished call returns 0 exactly when its task has been linked. -/
theorem ret_zero_iff_linked
    [Fintype Client]
    {state : State config Client Func Arg Local}
    (reachable : (system config Client behaviour).Reachable state)
    {thread : Thread config.numThreads Client}
    {ret : Int}
    {submission : Submission Func Arg}
    {caller : Caller Func Arg Local}
    (here :
      state.pc thread = .submitting (.done ret) submission caller) :
    ret = 0 ↔ submission.task ∈ state.queue.linked := by
  have decided := decided_kept.reachable reachable thread
  have submitted := genuine_kept.reachable reachable thread
  rw [here] at decided submitted
  constructor
  · intro zero
    exact linked_of_counted reachable submitted (decided.1 zero)
  · intro linked
    by_contra nonzero
    have disjoint :=
      (Multiset.nodup_add.mp (reachable_decided_nodup reachable)).2.2
    have isLinked : submission.id ∈ taskIds state.queue.linked :=
      List.mem_map.mpr ⟨submission.task, linked, rfl⟩
    exact Multiset.disjoint_left.mp disjoint isLinked
      (decided.2 nonzero)

/-- The public result is truthful unless the queue has made the refusal. -/
theorem truthful_iff
    [Fintype Client]
    (reachable :
      (auditedSystem config Client behaviour condition).Reachable
        audited)
    {thread : Thread config.numThreads Client}
    {ret : Int}
    {submission : Submission Func Arg}
    {caller : Caller Func Arg Local}
    (here :
      audited.state.pc thread =
        .submitting (.done ret) submission caller) :
    Truthful audited thread submission (submitResult ret) ↔
      audited.verdict thread ≠ .refusedByQueue := by
  have linked :=
    ret_zero_iff_linked (reachable_audited reachable) here
  have fits := reachable_fits reachable thread
  simp only [Verdict.Fits, State.place, here] at fits
  constructor
  · rintro ⟨_, shutdown⟩ refused
    rw [refused] at fits shutdown
    have wrong := (submitResult_shutdown ret).mp
      (shutdown.mpr (Or.inr rfl))
    simp_all [Verdict.FitsResult]
  · intro notByQueue
    refine ⟨(submitResult_success ret).trans linked, ?_⟩
    rw [submitResult_shutdown]
    cases verdict : audited.verdict thread with
    | pending =>
        rw [verdict] at fits
        rcases fits with rfl | rfl <;> simp [Verdict.Refused]
    | refusedByState =>
        rw [verdict] at fits
        exact ⟨fun _ => Or.inl rfl, fun _ => fits⟩
    | refusedByQueue =>
        exact (notByQueue verdict).elim

/-- While submitters find the queue open, it refuses none of them. -/
theorem not_refusedByQueue
    (reachable :
      (auditedSystem config Client behaviour FindsQueueOpen).Reachable
        audited)
    (thread : Thread config.numThreads Client) :
    audited.verdict thread ≠ .refusedByQueue := by
  refine System.Reachable.invariant
    (fun audited =>
      ∀ thread, audited.verdict thread ≠ .refusedByQueue)
    ?_ ?_ reachable thread
  · intro first initial thread
    subst initial
    exact nofun
  · intro before after _ holds next other
    cases next with
    | step thread meets allocated step =>
        by_cases actor : other = thread
        · subst actor
          have kept := holds other
          simp only [Function.update_self, verdictAfter]
          split
          · split <;> simp
          · rw [if_neg]
            · exact kept
            · rintro ⟨waits, closed⟩
              simp [meets waits] at closed
          · exact kept
        · simpa [actor] using holds other
    | queueSpurious thread allocated wakes
    | waitSpurious thread completed since caller allocated here =>
        exact holds other

/-- Both public functions tell the truth unless the queue has refused. -/
theorem truthfulSubmit_iff
    [Fintype Client]
    (reachable :
      (auditedSystem config Client behaviour condition).Reachable
        audited)
    {thread : Thread config.numThreads Client}
    {ret : Int}
    {submission : Submission Func Arg}
    {caller : Caller Func Arg Local}
    (here :
      audited.state.pc thread =
        .submitting (.done ret) submission caller) :
    TruthfulSubmit audited thread submission ret ↔
      audited.verdict thread ≠ .refusedByQueue := by
  rw [← truthful_iff reachable here]
  constructor
  · intro truthful
    obtain ⟨priority, same⟩ :=
      SthreadPriority.toTaskPriority_surjective submission.priority
    have asked :=
      (truthful Unit () (fun _ _ _ _ => ret) rfl).2 priority same
    exact asked
  · rintro truthful Pool pool threadPoolSubmit returns
    constructor
    · intro normal
      rw [normal] at returns
      simpa [sthreadPoolSubmit, returns] using truthful
    · rintro priority same
      simpa [sthreadPoolSubmitPriority, same, returns] using truthful

/--
The public functions tell the truth in every run in which submitters find the
queue open, and in any other run about exactly the calls that the queue has not
refused.
-/
theorem submit_truthful_iff
    (config : Config)
    (Client : Type)
    [DecidableEq Client]
    [Fintype Client]
    (behaviour : TaskBehaviour Func Arg Local) :
    (∀ audited,
      (auditedSystem config Client behaviour
        FindsQueueOpen).Reachable audited →
      ∀ thread ret submission caller,
        audited.state.pc thread =
          .submitting (.done ret) submission caller →
        TruthfulSubmit audited thread submission ret) ∧
      ∀ audited,
        (auditedSystem config Client behaviour
          (fun _ _ => True)).Reachable audited →
        ∀ thread ret submission caller,
          audited.state.pc thread =
            .submitting (.done ret) submission caller →
          (TruthfulSubmit audited thread submission ret ↔
            audited.verdict thread ≠ .refusedByQueue) := by
  constructor
  · intro audited reachable thread ret submission caller here
    exact (truthfulSubmit_iff reachable here).mpr
      (not_refusedByQueue reachable thread)
  · intro audited reachable thread ret submission caller here
    exact truthfulSubmit_iff reachable here

end Runs

/-- A client's task is linked, and the client is told so. -/
theorem submit_truthful_linked :
    ∃ audited : Audited smallConfig Unit Nat Nat Unit,
      (auditedSystem smallConfig Unit idleTasks
          FindsQueueOpen).Reachable audited ∧
        audited.state.pc (.client ()) =
          .submitting (.done 0) ⟨0, 7, 8, .normal⟩ .client ∧
        audited.state.queue.linked = [(7, ⟨0, 8⟩)] ∧
        TruthfulSubmit audited (.client ()) ⟨0, 7, 8, .normal⟩ 0 ∧
        audited.verdict (.client ()) ≠ .refusedByQueue := by
  have start :
      (auditedSystem smallConfig Unit idleTasks
        FindsQueueOpen).Reachable _ :=
    .start rfl
  have called := start.step
    (.step (.client ()) (fun _ => rfl) (by decide)
      (.own (.submit (.call _ .client 7 8 .normal trivial))))
  have checked := called.step
    (.step (.client ()) (fun _ => rfl) (by decide)
      (.own (.submit (.checkPassed _ .client rfl))))
  have allocated := checked.step
    (.step (.client ()) (fun _ => rfl) (by decide)
      (.queue (.alloc 7 ⟨0, 8⟩ .normal 0 0 rfl rfl)))
  have linked := allocated.step
    (.step (.client ()) (fun _ => rfl) (by decide)
      (.queue (.pushLinked 7 ⟨0, 8⟩ 0 _ _ ∅ (.enter rfl)
        ⟨by simp, by decide⟩)))
  have counted := linked.step
    (.step (.client ()) (fun _ => rfl) (by decide)
      (.own (.submit (.counted _ .client))))
  have truthful := submit_truthful_iff smallConfig Unit idleTasks
  have told := truthful.1 _ counted (.client ()) 0 _ .client rfl
  exact ⟨_, counted, rfl, rfl, told,
    (truthful.2 _ (reachable_unconditioned counted)
      (.client ()) 0 _ .client rfl).mp told⟩

/--
A client passes the state check before `thread_pool_destroy` begins and finds
the queue shut down: it is told of a system error.
-/
theorem exists_submit_untruthful :
    ∃ audited : Audited smallConfig Unit Nat Nat Unit,
      (auditedSystem smallConfig Unit idleTasks
        (fun _ _ => True)).Reachable audited ∧
        audited.state.pc (.client ()) =
          .submitting (.done (-1)) ⟨0, 7, 8, .normal⟩ .client ∧
        audited.verdict (.client ()) = .refusedByQueue ∧
        ¬ TruthfulSubmit audited (.client ()) ⟨0, 7, 8, .normal⟩ (-1) := by
  have start :
      (auditedSystem smallConfig Unit idleTasks
        (fun _ _ => True)).Reachable _ :=
    .start rfl
  have called := start.step
    (.step (.client ()) trivial (by decide)
      (.own (.submit (.call _ .client 7 8 .normal trivial))))
  have checked := called.step
    (.step (.client ()) trivial (by decide)
      (.own (.submit (.checkPassed _ .client rfl))))
  have allocated := checked.step
    (.step (.client ()) trivial (by decide)
      (.queue (.alloc 7 ⟨0, 8⟩ .normal 0 0 rfl rfl)))
  -- The destroyer shuts the queue down while the client holds its node.
  have begun := allocated.step
    (.step .destroyer trivial (by decide) (.own (.destroy (.begin rfl))))
  have closed := begun.step
    (.step .destroyer trivial (by decide) (.queue (.shutdown rfl)))
  have refused := closed.step
    (.step (.client ()) trivial (by decide)
      (.queue (.pushRefused 7 ⟨0, 8⟩ 0 (.enter rfl))))
  have freed := refused.step
    (.step (.client ()) trivial (by decide)
      (.queue (.pushFreed 0 _ rfl rfl)))
  have failed := freed.step
    (.step (.client ()) trivial (by decide)
      (.own (.submit (.pushFailed _ .client (-1) (by decide)))))
  refine ⟨_, failed, rfl, rfl, ?_⟩
  rw [truthfulSubmit_iff failed rfl]
  exact fun truthful => truthful rfl

end SThread.Api
