import SThread.ThreadPool.WaitReturn

namespace SThread.ThreadPool

open SThread.Library
open SThread.Scheduler

/-!
# Quiescence after `thread_pool_wait`

One client submits tasks that submit nothing themselves.  While it waits nobody
is inside `thread_pool_submit`, so `submitted_tasks` stands still and covers
every linked task.  When the wait returns the two counters are equal, and until
the next submission they stay equal: the queue is empty, no worker holds a
task, and a further wait does not sleep.
-/

section Definitions

variable
    {config : Config}
    {Client Func Arg Local : Type}

/-- `thread_pool_pending`, which is `task_queue_size` of the queue. -/
def State.threadPoolPending
    (state : State config Client Func Arg Local) : Nat :=
  taskQueueSize state.queue.queue

/-- `thread_pool_active`. -/
def State.threadPoolActive
    (state : State config Client Func Arg Local) : UInt64 :=
  state.shared.activeTasks

/-- `thread_pool_completed`. -/
def State.threadPoolCompleted
    (state : State config Client Func Arg Local) : Nat :=
  state.shared.completedTasks

/-- No task calls `thread_pool_submit`. -/
def TaskBehaviour.SubmitsNothing
    (behaviour : TaskBehaviour Func Arg Local) : Prop :=
  ∀ place func arg priority,
    ¬ behaviour.acts place (.submit func arg priority)

/-- A step that begins no submission. -/
def NoSubmission
    (state later : State config Client Func Arg Local) : Prop :=
  later.shared.history.submissions = state.shared.history.submissions

end Definitions

namespace Pc

variable
    {Func Arg Local : Type}

/-- The thread is not inside `thread_pool_submit` on behalf of a task. -/
def SubmitsAsClient : Pc Func Arg Local → Prop
  | .submitting _ _ caller => caller = .client
  | _ => True

/-- What the only submitter knows of the counters while it waits. -/
def CaughtUp
    (submittedTasks completedTasks : Nat) :
    Pc Func Arg Local → Prop
  | .waiting (.testing completed submitted) _ _ =>
      (∀ loaded, completed = some loaded → loaded ≤ completedTasks) ∧
        ∀ loaded, submitted = some loaded → submittedTasks ≤ loaded
  | .waiting (.unlocking _ _) _ _ => submittedTasks ≤ completedTasks
  | .waiting .done _ _ => submittedTasks ≤ completedTasks
  | _ => True

/-- A waiter that will not fall asleep. -/
def Unhurried
    (submittedTasks : Nat) :
    Pc Func Arg Local → Prop
  | .waiting (.testing completed submitted) _ _ =>
      (∀ loaded, completed = some loaded → submittedTasks ≤ loaded) ∧
        ∀ loaded, submitted = some loaded → loaded ≤ submittedTasks
  | .waiting (.sleeping _ _) _ _ => False
  | _ => True

/-- How many steps of its own a waiter is away from returning. -/
def waitRank : Pc Func Arg Local → Nat
  | .waiting .locking _ _ => 6
  | .waiting (.testing completed submitted) _ _ =>
      3 + completed.isNone.toNat + submitted.isNone.toNat
  | .waiting (.sleeping _ _) _ _ => 7
  | .waiting (.unlocking _ _) _ _ => 2
  | .waiting .done _ _ => 1
  | _ => 0

/-- More completions do not disturb the only submitter. -/
theorem CaughtUp.mono
    {submittedTasks before after : Nat}
    {pc : Pc Func Arg Local}
    (caughtUp : pc.CaughtUp submittedTasks before)
    (grows : before ≤ after) :
    pc.CaughtUp submittedTasks after := by
  cases pc with
  | waiting stage since caller =>
      cases stage with
      | testing completed submitted =>
          exact ⟨fun loaded isLoaded =>
            (caughtUp.1 loaded isLoaded).trans grows, caughtUp.2⟩
      | unlocking completed submitted
      | done =>
          exact Nat.le_trans caughtUp grows
      | _ =>
          trivial
  | _ =>
      trivial

end Pc

namespace Place

variable
    {Func Arg Local : Type}

/-- Outside `thread_pool_submit` no submission is linked or counted. -/
theorem settled_of_not_submits
    {place : Place Func Arg Local}
    (outside : place.pc.submits = false) :
    place.uncounted = 0 ∧
      place.unacknowledged = 0 ∧
      place.counting = false := by
  obtain ⟨pc, call⟩ := place
  cases pc with
  | submitting stage submission caller =>
      exact Bool.noConfusion outside
  | _ =>
      exact ⟨rfl, rfl, rfl⟩

/-- A thread that holds no task is in none of the accounts of held tasks. -/
theorem empty_of_not_holding
    {place : Place Func Arg Local}
    (free : place.holding = false) :
    place.uncalled = 0 ∧ place.executing = 0 := by
  have card := place.card_holding
  rw [free, Bool.toNat_false] at card
  constructor <;> rw [← Multiset.card_eq_zero] <;> omega

end Place

namespace LocalStep

variable
    {Owner Func Arg Local : Type}
    {behaviour : TaskBehaviour Func Arg Local}
    {thread : Owner}
    {numThreads : Nat}
    {shared shared' : Shared Owner Func Arg}
    {place place' : Place Func Arg Local}

/-- Only `thread_pool_submit` changes `submitted_tasks`. -/
theorem submittedTasks_eq
    (step :
      LocalStep behaviour thread numThreads
        shared place shared' place')
    (outside : place.pc.submits = false) :
    shared'.submittedTasks = shared.submittedTasks := by
  cases step with
  | worker step =>
      cases step <;> rfl
  | submit step =>
      cases step with
      | counted submission caller =>
          exact Bool.noConfusion outside
      | _ =>
          rfl
  | wait step =>
      cases step <;> rfl
  | destroy step =>
      cases step <;> rfl

/-- `completed_tasks` only grows. -/
theorem completedTasks_le
    (step :
      LocalStep behaviour thread numThreads
        shared place shared' place') :
    shared.completedTasks ≤ shared'.completedTasks := by
  rcases step.completedTasks with same | ⟨more, _⟩
  · exact same.ge
  · exact more.ge.trans' (Nat.le_succ _)

/-- Without submitting tasks only clients get inside `thread_pool_submit`. -/
theorem submitsAsClient
    (step :
      LocalStep behaviour thread numThreads
        shared place shared' place')
    (submitsNothing : behaviour.SubmitsNothing)
    (before : place.pc.SubmitsAsClient) :
    place'.pc.SubmitsAsClient := by
  refine step.of_submit ?_ ?_
  · intro pc outside
    cases pc <;> first | contradiction | trivial
  · intro step
    cases step with
    | callNull call caller arg priority may
    | failed call submission caller ret failed
    | acknowledged call submission caller =>
        cases caller <;> trivial
    | call call caller func arg priority may =>
        cases caller with
        | client =>
            rfl
        | task item place =>
            exact (submitsNothing _ _ _ _ may).elim
    | _ =>
        exact before

/-- When the only submitter passes its test the counters are equal. -/
theorem caughtUp
    (step :
      LocalStep behaviour thread numThreads
        shared place shared' place')
    (before :
      place.pc.CaughtUp shared.submittedTasks shared.completedTasks) :
    place'.pc.CaughtUp shared'.submittedTasks shared'.completedTasks := by
  refine step.of_wait ?_ ?_
  · intro pc outside
    cases pc <;> first | contradiction | trivial
  · intro step
    cases step with
    | lock call since caller free
    | wake call completed wake since caller awake free =>
        exact ⟨nofun, nofun⟩
    | loadCompleted call submitted since caller =>
        refine ⟨?_, before.2⟩
        intro loaded isLoaded
        exact (Option.some.inj isLoaded).ge
    | loadSubmitted call completed since caller =>
        refine ⟨before.1, ?_⟩
        intro loaded isLoaded
        exact (Option.some.inj isLoaded).le
    | pass call completed submitted since caller reached =>
        exact (before.2 _ rfl).trans
          ((Nat.le_of_not_lt reached).trans (before.1 _ rfl))
    | unlock call completed submitted since caller =>
        exact before
    | ret call since caller =>
        cases caller <;> trivial
    | _ =>
        trivial

/-- A submission that is not recorded was not begun. -/
theorem not_submits
    (step :
      LocalStep behaviour thread numThreads
        shared place shared' place')
    (outside : place.pc.submits = false)
    (nothing :
      shared'.history.submissions = shared.history.submissions) :
    place'.pc.submits = false := by
  refine step.of_submit (fun _ => id) ?_
  intro step
  cases step with
  | callNull call caller arg priority may =>
      cases caller <;> rfl
  | call call caller func arg priority may =>
      simp at nothing
  | _ =>
      exact Bool.noConfusion outside

/-- A waiter does not fall asleep beside equal counters. -/
theorem unhurried
    (step :
      LocalStep behaviour thread numThreads
        shared place shared' place')
    (reached : shared.submittedTasks ≤ shared.completedTasks)
    (outside : place.pc.submits = false)
    (before : place.pc.Unhurried shared.submittedTasks) :
    place'.pc.Unhurried shared'.submittedTasks := by
  refine step.of_wait ?_ ?_
  · intro pc outside
    cases pc <;> first | contradiction | trivial
  · intro step
    cases step with
    | lock call since caller free =>
        exact ⟨nofun, nofun⟩
    | wake call completed wake since caller awake free =>
        exact before.elim
    | loadCompleted call submitted since caller =>
        refine ⟨?_, before.2⟩
        intro loaded isLoaded
        exact reached.trans (Option.some.inj isLoaded).le
    | loadSubmitted call completed since caller =>
        refine ⟨before.1, ?_⟩
        intro loaded isLoaded
        exact (Option.some.inj isLoaded).ge
    | sleep call completed submitted since caller behind =>
        have late := (before.2 _ rfl).trans (before.1 _ rfl)
        exact absurd behind (Nat.not_lt_of_le late)
    | ret call since caller =>
        cases caller <;> trivial
    | _ =>
        trivial

/-- A waiter that does not sleep gets closer to returning. -/
theorem waitRank
    (step :
      LocalStep behaviour thread numThreads
        shared place shared' place')
    (unhurried : place.pc.Unhurried shared.submittedTasks)
    (inside : 0 < place.pc.waitRank) :
    place'.pc.waitRank < place.pc.waitRank := by
  cases step with
  | worker step =>
      cases step <;> simp [Pc.waitRank] at inside
  | submit step =>
      cases step with
      | callNull call caller arg priority may
      | call call caller func arg priority may =>
          cases caller <;> simp [Pc.waitRank, Caller.place] at inside
      | _ =>
          simp [Pc.waitRank] at inside
  | wait step =>
      cases step with
      | call call caller may =>
          cases caller <;> simp [Pc.waitRank, Caller.place] at inside
      | sleep call completed submitted since caller behind =>
          have late := (unhurried.2 _ rfl).trans (unhurried.1 _ rfl)
          exact absurd behind (Nat.not_lt_of_le late)
      | wake call completed wake since caller awake free =>
          exact unhurried.elim
      | ret call since caller =>
          cases caller <;> simp [Pc.waitRank, Caller.resume]
      | _ =>
          simp [Pc.waitRank]
  | destroy step =>
      cases step <;> simp [Pc.waitRank] at inside

end LocalStep

section

variable
    {config : Config}
    {Func Arg Local : Type}
    {behaviour : TaskBehaviour Func Arg Local}
    {state later : State config Unit Func Arg Local}

/-- Whoever plays the part of a client is the only client. -/
theorem Thread.client_of_role
    {numThreads : Nat}
    {thread : Thread numThreads Unit}
    (role : thread.role = .client) :
    thread = .client () := by
  cases thread with
  | client name =>
      rfl
  | _ =>
      exact Role.noConfusion role

/-- While the only client waits the counters of its submissions stand still. -/
theorem caughtUp_kept
    (submitsNothing : behaviour.SubmitsNothing) :
    ThreadInvariant behaviour
      (fun (thread : Thread config.numThreads Unit)
          (shared : Shared (Thread config.numThreads Unit) Func Arg)
          (pc : Pc Func Arg Local) =>
        pc.role = thread.role ∧
          pc.SubmitsAsClient ∧
          (thread = .client () →
            pc.CaughtUp shared.submittedTasks shared.completedTasks)) where
  other := by
    intro thread other shared place shared' place' pc different step
      own holds
    refine ⟨holds.1, holds.2.1, ?_⟩
    intro client
    have outside : place.pc.submits = false := by
      rw [Bool.eq_false_iff]
      intro submits
      apply different
      rw [client]
      refine (Thread.client_of_role ?_).symm
      rw [← own.1]
      have asClient := own.2.1
      cases here : place.pc with
      | submitting stage submission caller =>
          rw [here] at asClient
          obtain rfl := asClient
          rfl
      | _ =>
          simp [here, Pc.submits] at submits
    rw [step.submittedTasks_eq outside]
    exact (holds.2.2 client).mono step.completedTasks_le
  wake := by
    intro thread shared completed since caller wake holds
    exact ⟨holds.1, trivial, fun _ => trivial⟩
  broadcast := by
    intro thread shared holds
    exact ⟨holds.1, trivial, fun _ => trivial⟩
  destroying := by
    intro thread shared stage stage' holds
    exact ⟨holds.1, trivial, fun _ => trivial⟩
  start := by
    intro thread
    cases thread <;> exact ⟨rfl, trivial, fun _ => trivial⟩
  own := by
    intro thread shared place shared' place' step holds
    exact ⟨step.role.trans holds.1,
      step.submitsAsClient submitsNothing holds.2.1,
      fun client => step.caughtUp (holds.2.2 client)⟩

/-- Nobody submits, and everything counted is completed. -/
structure Quiet
    (state : State config Unit Func Arg Local) : Prop where
  outside :
    ∀ thread, (state.pc thread).submits = false
  reached :
    state.shared.submittedTasks ≤ state.shared.completedTasks
  unhurried :
    (state.pc (.client ())).Unhurried state.shared.submittedTasks

/-- A pool is quiet when the wait of its only client returns. -/
theorem reachable_quiet
    (submitsNothing : behaviour.SubmitsNothing)
    (reachable :
      (system config Unit behaviour).Reachable state)
    {since : List Nat}
    {caller : Caller Func Arg Local}
    (returns :
      state.pc (.client ()) = .waiting .done since caller) :
    Quiet state := by
  have kept := (caughtUp_kept submitsNothing).reachable reachable
  refine ⟨?_, ?_, ?_⟩
  · intro thread
    obtain ⟨role, asClient, _⟩ := kept thread
    cases here : state.pc thread with
    | submitting stage submission caller =>
        rw [here] at role asClient
        obtain rfl := asClient
        obtain rfl := Thread.client_of_role role.symm
        rw [returns] at here
        contradiction
    | _ =>
        rfl
  · have caughtUp := (kept (.client ())).2.2 rfl
    rw [returns] at caughtUp
    exact caughtUp
  · rw [returns]
    trivial

/-- It stays quiet until the next submission. -/
theorem Quiet.next
    (quiet : Quiet state)
    (next : Next behaviour state later)
    (nothing : NoSubmission state later) :
    Quiet later := by
  have undisturbed :
      Undisturbed behaviour
        (fun (thread : Thread config.numThreads Unit) shared
            (pc : Pc Func Arg Local) =>
          pc.submits = false ∧
            shared.submittedTasks ≤ shared.completedTasks ∧
            (thread = .client () →
              pc.Unhurried shared.submittedTasks)) := {
    other := by
      intro thread other shared place shared' place' pc _ step own holds
      rw [step.submittedTasks_eq own.1]
      exact ⟨holds.1, holds.2.1.trans step.completedTasks_le, holds.2.2⟩
    wake := by
      intro thread shared completed since caller wake holds
      exact ⟨rfl, holds.2.1, fun client => (holds.2.2 client).elim⟩
    broadcast := by
      intro thread shared holds
      exact ⟨rfl, holds.2.1, fun _ => trivial⟩
    destroying := by
      intro thread shared stage stage' holds
      exact ⟨rfl, holds.2.1, fun _ => trivial⟩ }
  have together := undisturbed.next
    (by
      intro actor shared' place' isLater step
      have outside := quiet.outside actor
      have same :
          shared'.history.submissions =
            state.shared.history.submissions := by
        rw [NoSubmission, isLater] at nothing
        exact nothing
      refine ⟨step.not_submits outside same, ?_, ?_⟩
      · rw [step.submittedTasks_eq outside]
        exact quiet.reached.trans step.completedTasks_le
      · intro client
        subst client
        exact step.unhurried quiet.reached outside quiet.unhurried)
    next
    (fun thread =>
      ⟨quiet.outside thread, quiet.reached, fun client => by
        rw [client]
        exact quiet.unhurried⟩)
  exact ⟨fun thread => (together thread).1,
    (together .destroyer).2.1,
    (together (.client ())).2.2 rfl⟩

/-- And along every run without submissions. -/
theorem Quiet.run
    (quiet : Quiet state)
    (run :
      ((system config Unit behaviour).restrict NoSubmission).Run
        state later) :
    Quiet later := by
  induction run with
  | refl =>
      exact quiet
  | tail _ step inductionHypothesis =>
      exact inductionHypothesis.next step.1 step.2

/-- In a quiet pool every linked task is counted and acknowledged. -/
theorem Quiet.acknowledged
    (quiet : Quiet state)
    (reachable :
      (system config Unit behaviour).Reachable state) :
    taskIds state.queue.linked =
        ↑state.shared.history.acknowledged ∧
      state.queue.linked.length = state.shared.submittedTasks := by
  have counted := countingAccount_sound.balanced reachable
  have acknowledged := acknowledgingAccount_sound.balanced reachable
  have noneUncounted : tally Place.uncounted state.place = 0 :=
    Finset.sum_eq_zero (fun thread _ =>
      (Place.settled_of_not_submits (quiet.outside thread)).1)
  have noneUnacknowledged : tally Place.unacknowledged state.place = 0 :=
    Finset.sum_eq_zero (fun thread _ =>
      (Place.settled_of_not_submits (quiet.outside thread)).2.1)
  have noneCounting : population Place.counting state.place = 0 :=
    population_eq_zero.mpr (fun thread =>
      (Place.settled_of_not_submits (quiet.outside thread)).2.2)
  simp only [countingAccount, noneUncounted, State.record,
    Shared.record, add_zero] at counted
  simp only [acknowledgingAccount, noneUnacknowledged, State.record,
    Shared.record, add_zero] at acknowledged
  refine ⟨counted.trans acknowledged, ?_⟩
  rw [reachable_linked_length reachable, noneCounting, add_zero]

/-- In a quiet pool the queue is empty and nobody holds a task. -/
theorem Quiet.idle
    (quiet : Quiet state)
    (reachable :
      (system config Unit behaviour).Reachable state) :
    state.queue.queue.count = 0 ∧
      state.shared.completedTasks = state.shared.submittedTasks ∧
      ∀ thread, (state.place thread).holding = false := by
  have core := reachable_core reachable
  have lengths := core.length_linked
  have removed := reachable_removed_length reachable
  have linked := (quiet.acknowledged reachable).2
  have reached := quiet.reached
  refine ⟨by omega, by omega, ?_⟩
  exact population_eq_zero.mp (by omega)

/-- In a quiet pool every acknowledged task has been called. -/
theorem Quiet.called
    (quiet : Quiet state)
    (reachable :
      (system config Unit behaviour).Reachable state) :
    taskIds state.shared.history.called =
      ↑state.shared.history.acknowledged := by
  have core := reachable_core reachable
  obtain ⟨empty, _, free⟩ := quiet.idle reachable
  have balanced := callingAccount_sound.balanced reachable
  have noneUncalled : tally Place.uncalled state.place = 0 :=
    Finset.sum_eq_zero (fun thread _ =>
      (Place.empty_of_not_holding (free thread)).1)
  simp only [callingAccount, noneUncalled, State.record,
    Shared.record, add_zero] at balanced
  calc
    taskIds state.shared.history.called =
        taskIds state.queue.removed :=
      congrArg (Multiset.map taskId) balanced.symm
    _ = taskIds state.queue.linked := by
      rw [core.removed_of_empty empty]
    _ = ↑state.shared.history.acknowledged :=
      (quiet.acknowledged reachable).1

/-- In a quiet pool no worker is inside a task. -/
theorem Quiet.inactive
    (quiet : Quiet state)
    (reachable :
      (system config Unit behaviour).Reachable state) :
    state.shared.activeTasks = 0 := by
  obtain ⟨_, _, free⟩ := quiet.idle reachable
  have nobody :
      population Place.active
        (fun index => state.place (.worker index)) = 0 := by
    refine population_eq_zero.mpr ?_
    intro index
    rw [Bool.eq_false_iff]
    intro active
    have holds := Place.holding_of_active active
    rw [free] at holds
    exact Bool.noConfusion holds
  rw [← UInt64.toNat_inj, reachable_active reachable, nobody]
  rfl

/-- In a quiet pool only the client and announcing workers hold `wait_lock`. -/
theorem Quiet.holder
    (quiet : Quiet state)
    (reachable :
      (system config Unit behaviour).Reachable state)
    {thread : Thread config.numThreads Unit}
    (holds : state.shared.waitLock = some thread) :
    thread = .client () ∨
      ∃ index,
        thread = .worker index ∧
          (state.pc thread = .broadcasting ∨
            state.pc thread = .unlocking) := by
  have inside := (holdsWait_kept.reachable reachable thread).mpr holds
  have role := (reachable_core reachable).role thread
  have free := (quiet.idle reachable).2.2 thread
  cases thread with
  | client name =>
      exact Or.inl rfl
  | destroyer =>
      cases here : state.pc .destroyer <;>
        simp [here, Pc.role, Thread.role, Pc.holdsWait] at role inside
      exact (Caller.role_ne_destroyer _ role).elim
  | worker index =>
      refine Or.inr ⟨index, rfl, ?_⟩
      cases here : state.pc (.worker index) with
      | broadcasting =>
          exact Or.inl rfl
      | unlocking =>
          exact Or.inr rfl
      | waiting stage since caller =>
          rw [here] at role
          cases caller with
          | client =>
              exact Role.noConfusion role
          | task item place =>
              simp [State.place, here, Place.holding] at free
      | _ =>
          simp [here, Pc.holdsWait] at inside

/-- A waiter that will not sleep can go on when the lock is free or its own. -/
theorem Step.exists_of_waiting
    {thread : Thread config.numThreads Unit}
    {stage : WaitStage}
    {since : List Nat}
    {caller : Caller Func Arg Local}
    (here : state.pc thread = .waiting stage since caller)
    (unhurried :
      (state.pc thread).Unhurried state.shared.submittedTasks)
    (free :
      stage = .locking → state.shared.waitLock = none) :
    ∃ next, Step behaviour state thread next := by
  have place :
      state.place thread =
        ⟨.waiting stage since caller, state.queue.pc thread⟩ := by
    rw [State.place, here]
  rw [here] at unhurried
  have enabled :
      ∃ shared' place',
        WaitStep behaviour thread state.shared
          ⟨.waiting stage since caller, state.queue.pc thread⟩
          shared' place' := by
    cases stage with
    | locking =>
        exact ⟨_, _, .lock _ since caller (free rfl)⟩
    | testing completed submitted =>
        cases completed with
        | none =>
            exact ⟨_, _, .loadCompleted _ submitted since caller⟩
        | some completed =>
            cases submitted with
            | none =>
                exact ⟨_, _, .loadSubmitted _ _ since caller⟩
            | some submitted =>
                have late :=
                  (unhurried.2 _ rfl).trans (unhurried.1 _ rfl)
                exact ⟨_, _, .pass _ completed submitted since caller
                  (Nat.not_lt_of_le late)⟩
    | sleeping completed wake =>
        exact unhurried.elim
    | unlocking completed submitted =>
        exact ⟨_, _, .unlock _ completed submitted since caller⟩
    | done =>
        exact ⟨_, _, .ret _ since caller⟩
  obtain ⟨shared', place', step⟩ := enabled
  exact Step.of_place place (.wait step)

/-- What the only client finds after its wait and before its next submission. -/
structure Quiescent
    (behaviour : TaskBehaviour Func Arg Local)
    (state : State config Unit Func Arg Local) : Prop where
  emptied :
    state.queue.queue.count = 0
  pending :
    state.threadPoolPending = 0
  inactive :
    state.shared.activeTasks = 0
  active :
    state.threadPoolActive = 0
  completed :
    state.threadPoolCompleted =
      state.shared.history.acknowledged.length
  calledOnce :
    (state.shared.history.called.map taskId).Nodup ∧
      (state.shared.history.called.map taskId).Perm
        state.shared.history.acknowledged
  awake :
    ∀ completed wake since caller,
      state.pc (.client ()) ≠
        .waiting (.sleeping completed wake) since caller
  proceeds :
    0 < (state.pc (.client ())).waitRank →
      (∃ next, Step behaviour state (.client ()) next) ∨
        ∃ index,
          state.shared.waitLock = some (.worker index) ∧
            (state.pc (.worker index) = .broadcasting ∨
              state.pc (.worker index) = .unlocking) ∧
            ∃ next, Step behaviour state (.worker index) next
  returns :
    ∀ next,
      Step behaviour state (.client ()) next →
      0 < (state.pc (.client ())).waitRank →
      (next.pc (.client ())).waitRank <
        (state.pc (.client ())).waitRank

/-- In a quiet pool the client's wait goes on, or a worker gives it the lock. -/
theorem Quiet.proceeds
    (quiet : Quiet state)
    (reachable :
      (system config Unit behaviour).Reachable state)
    (inside : 0 < (state.pc (.client ())).waitRank) :
    (∃ next, Step behaviour state (.client ()) next) ∨
      ∃ index,
        state.shared.waitLock = some (.worker index) ∧
          (state.pc (.worker index) = .broadcasting ∨
            state.pc (.worker index) = .unlocking) ∧
          ∃ next, Step behaviour state (.worker index) next := by
  cases here : state.pc (.client ()) with
  | waiting stage since caller =>
      cases holder : state.shared.waitLock with
      | none =>
          exact Or.inl (Step.exists_of_waiting here quiet.unhurried
            (fun _ => holder))
      | some thread =>
          rcases quiet.holder reachable holder with rfl |
            ⟨index, rfl, announced⟩
          · -- The client holds the lock, so it is not waiting for it.
            refine Or.inl (Step.exists_of_waiting here quiet.unhurried ?_)
            intro locking
            have holds :=
              (holdsWait_kept.reachable reachable _).mpr holder
            simp [here, locking, Pc.holdsWait] at holds
          · exact Or.inr ⟨index, rfl, announced,
              Step.exists_of_announced announced⟩
  | _ =>
      simp [here, Pc.waitRank] at inside

/-- In a quiet pool every step of the client's wait gets it closer to its end. -/
theorem Quiet.returns
    (quiet : Quiet state)
    (reachable :
      (system config Unit behaviour).Reachable state)
    (step : Step behaviour state (.client ()) later)
    (inside : 0 < (state.pc (.client ())).waitRank) :
    (later.pc (.client ())).waitRank <
      (state.pc (.client ())).waitRank := by
  have agrees := (reachable_core reachable).agrees (.client ())
  cases step with
  | queue step =>
      cases here : state.pc (.client ()) with
      | waiting stage since caller =>
          have idle : state.queue.pc (.client ()) = .idle := by
            simpa [Place.Agrees, State.place, here] using agrees
          exact (step.inside.1 idle).elim
      | _ =>
          simp [here, Pc.waitRank] at inside
  | own step =>
      have closer := step.waitRank quiet.unhurried inside
      simpa [State.put, State.place] using closer
  | broadcast here
  | join next here inRange ended
  | destroyQueue heap here frees
  | destroyQueueFault here fails =>
      simp [here, Pc.waitRank] at inside

/--
Each time the wait of the only client has returned, and until its next
submission, the pool is quiescent.
-/
theorem wait_quiescent
    (submitsNothing : behaviour.SubmitsNothing)
    (reachable :
      (system config Unit behaviour).Reachable state)
    {since : List Nat}
    {caller : Caller Func Arg Local}
    (returned :
      state.pc (.client ()) = .waiting .done since caller)
    (run :
      ((system config Unit behaviour).restrict NoSubmission).Run
        state later) :
    Quiescent behaviour later := by
  have quiet := (reachable_quiet submitsNothing reachable returned).run run
  have laterReachable := reachable.run (System.Run.of_restrict run)
  obtain ⟨empty, equal, _⟩ := quiet.idle laterReachable
  obtain ⟨acknowledged, linked⟩ := quiet.acknowledged laterReachable
  have called := quiet.called laterReachable
  refine
    { emptied := empty
      pending := empty
      inactive := quiet.inactive laterReachable
      active := quiet.inactive laterReachable
      completed := ?_
      calledOnce :=
        ⟨reachable_called_nodup laterReachable,
          Multiset.coe_eq_coe.mp called⟩
      awake := ?_
      proceeds := quiet.proceeds laterReachable
      returns := fun next => quiet.returns laterReachable }
  · have sizes := congrArg Multiset.card acknowledged
    rw [taskIds, Multiset.coe_card, Multiset.coe_card,
      List.length_map, linked] at sizes
    exact equal.trans sizes
  · intro completed wake since caller asleep
    have unhurried := quiet.unhurried
    rw [asleep] at unhurried
    exact unhurried

end

/-- A pool whose client has waited for its one task. -/
theorem wait_quiescent_once :
    ∃ state : State smallConfig Unit Nat Nat Unit,
      (system smallConfig Unit idleTasks).Reachable state ∧
        state.pc (.client ()) = .waiting .done [0] .client ∧
        Quiescent idleTasks state := by
  obtain ⟨state, reachable, returned⟩ := exists_fair_return
  exact ⟨state, reachable.of_restrict, returned,
    wait_quiescent (fun _ _ _ _ => nofun) reachable.of_restrict
      returned .refl⟩

end SThread.ThreadPool
