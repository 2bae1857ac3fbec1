import SThread.Scheduler.Wakeup
import SThread.ThreadPool.Settling

namespace SThread.ThreadPool

open SThread.Library
open SThread.Scheduler

/-!
# Every call returns

A pool is never stuck halfway: when no worker and no client inside a call can
take a step, every client has returned, the queue is empty, and every task
whose submission returned 0 has been carried out.  Together with the fact that
such steps run out this says that every call of `thread_pool_submit` and
`thread_pool_wait` returns, whatever the scheduler does, and likewise that
`thread_pool_destroy` gets to its end once it has been called.
-/

section

variable
    {config : Config}
    {Client Func Arg Local : Type}
    [DecidableEq Client]
    {behaviour : TaskBehaviour Func Arg Local}
    {state : State config Client Func Arg Local}

/-- A thread that waits in the queue for room is inside `thread_pool_submit`. -/
theorem Core.submitting_of_pushWait
    (core : Core state)
    {thread : Thread config.numThreads Client}
    {func : Func}
    {arg : Job Arg}
    {node : Addr}
    {wake : Wake}
    (call : state.queue.pc thread = .pushWait func arg node wake) :
    ∃ submission caller,
      state.pc thread = .submitting .pushing submission caller := by
  have agrees := core.agrees thread
  cases here : state.pc thread with
  | submitting stage submission caller =>
      cases stage with
      | pushing =>
          exact ⟨submission, caller, rfl⟩
      | _ =>
          simp [Place.Agrees, State.place, here, call] at agrees
  | destroying stage =>
      cases stage <;>
        simp [Place.Agrees, State.place, here, call] at agrees
  | _ =>
      simp [Place.Agrees, State.place, here, call,
        Scheduler.Pc.inPop] at agrees

/-- A thread that waits in the queue for a task is popping. -/
theorem Core.popping_of_asleep
    (core : Core state)
    {thread : Thread config.numThreads Client}
    {wake : Wake}
    (call : state.queue.pc thread = .popWait wake) :
    state.pc thread = .popping := by
  have agrees := core.agrees thread
  cases here : state.pc thread with
  | popping =>
      rfl
  | submitting stage submission caller =>
      cases stage <;>
        simp [Place.Agrees, State.place, here, call,
          Scheduler.Pc.InPush] at agrees
  | destroying stage =>
      cases stage <;>
        simp [Place.Agrees, State.place, here, call] at agrees
  | _ =>
      simp [Place.Agrees, State.place, here, call] at agrees

/-- While the queue is open a worker that cannot go on waits for a task. -/
theorem Core.worker_asleep
    (core : Core state)
    (opened : state.queue.queue.shutdown = false)
    (unlocked : state.shared.waitLock = none)
    {index : Fin config.numThreads}
    (asClient : (state.pc (.worker index)).SubmitsAsClient)
    (onCourse : (state.pc (.worker index)).OnCourse behaviour)
    (stuck :
      ∀ later, ¬ Step behaviour state (.worker index) later) :
    state.queue.pc (.worker index) = .popWait .asleep := by
  have role := core.role (.worker index)
  rw [← Scheduler.Pc.asleepNotEmpty_iff]
  by_contra awake
  have notFull :
      (state.queue.pc (.worker index)).asleepNotFull = false := by
    rw [Bool.eq_false_iff]
    intro asleep
    obtain ⟨func, arg, node, call⟩ :=
      Scheduler.Pc.asleepNotFull_iff.mp asleep
    obtain ⟨submission, caller, here⟩ := core.submitting_of_pushWait call
    rw [here] at asClient role
    obtain rfl := asClient
    exact Role.noConfusion role
  have inLoop : state.pc (.worker index) ≠ .exited := by
    intro exited
    have drained := core.drained index exited
    rw [drained.1] at opened
    exact Bool.noConfusion opened
  obtain ⟨later, step⟩ :=
    core.worker_enabled ⟨Bool.eq_false_iff.mpr awake, notFull⟩
      onCourse inLoop (fun _ => unlocked)
  exact stuck later step

/-- Whoever holds `wait_lock` can go on. -/
theorem Core.holder_enabled
    (core : Core state)
    {thread : Thread config.numThreads Client}
    (onCourse : (state.pc thread).OnCourse behaviour)
    (holds : (state.pc thread).holdsWait = true) :
    ∃ later, Step behaviour state thread later := by
  have role := core.role thread
  cases thread with
  | worker index =>
      refine Step.exists_of_announced ?_
      cases here : state.pc (.worker index) with
      | broadcasting =>
          exact Or.inl rfl
      | unlocking =>
          exact Or.inr rfl
      | waiting stage since caller =>
          rw [here] at onCourse role
          obtain rfl := onCourse
          exact Role.noConfusion role
      | _ =>
          rw [here] at holds
          exact Bool.noConfusion holds
  | client name =>
      exact client_enabled role holds
  | destroyer =>
      obtain ⟨stage, here⟩ := core.stage
      rw [here] at holds
      exact Bool.noConfusion holds

/-- It is neither the destroyer nor outside all calls. -/
theorem Core.holder_busy
    (core : Core state)
    {thread : Thread config.numThreads Client}
    (holds : (state.pc thread).holdsWait = true) :
    thread ≠ .destroyer ∧ state.pc thread ≠ .idle := by
  constructor
  · rintro rfl
    obtain ⟨stage, here⟩ := core.stage
    rw [here] at holds
    exact Bool.noConfusion holds
  · intro idle
    rw [idle] at holds
    exact Bool.noConfusion holds

/-- Where nobody can go on nobody holds `wait_lock`. -/
theorem Core.unlocked_of_stuck
    (core : Core state)
    (locks :
      ∀ thread,
        (state.pc thread).holdsWait = true ↔
          state.shared.waitLock = some thread)
    (onCourse : ∀ thread, (state.pc thread).OnCourse behaviour)
    (stuck :
      ∀ thread later,
        thread ≠ .destroyer →
        state.pc thread ≠ .idle →
        ¬ Step behaviour state thread later) :
    state.shared.waitLock = none := by
  by_contra locked
  obtain ⟨thread, holder⟩ := Option.ne_none_iff_exists'.mp locked
  have holds := (locks thread).mpr holder
  obtain ⟨notDestroyer, busy⟩ := core.holder_busy holds
  obtain ⟨later, step⟩ := core.holder_enabled (onCourse thread) holds
  exact stuck thread later notDestroyer busy step

/-- A client in `thread_pool_wait` that is not asleep can go on. -/
theorem waiting_enabled
    {thread : Thread config.numThreads Client}
    {stage : WaitStage}
    {since : List Nat}
    {caller : Caller Func Arg Local}
    (client : (state.pc thread).role = .client)
    (here : state.pc thread = .waiting stage since caller)
    (unlocked : state.shared.waitLock = none)
    (awake : (state.pc thread).asleepWait = false) :
    ∃ later, Step behaviour state thread later := by
  have place :
      state.place thread =
        ⟨.waiting stage since caller, state.queue.pc thread⟩ := by
    rw [State.place, here]
  cases stage with
  | locking =>
      exact Step.of_place place (.wait (.lock _ since caller unlocked))
  | testing completed submitted
  | unlocking completed submitted =>
      exact client_enabled client (by rw [here]; rfl)
  | sleeping completed wake =>
      refine Step.of_place place
        (.wait (.wake _ completed wake since caller ?_ unlocked))
      rintro rfl
      rw [here] at awake
      exact Bool.noConfusion awake
  | done =>
      exact Step.of_place place (.wait (.ret _ since caller))

/-- The pool has nothing to do: all calls have returned, all tasks are done. -/
structure AtRest
    (state : State config Client Func Arg Local) : Prop where
  returned :
    ∀ name, state.pc (.client name) = .idle
  asleep :
    ∀ index, state.queue.pc (.worker index) = .popWait .asleep
  empty :
    state.queue.queue.count = 0
  caughtUp :
    state.shared.completedTasks = state.shared.submittedTasks
  carriedOut :
    state.shared.history.finished.Perm
      state.shared.history.acknowledged

/-- Where every worker waits for a task nobody holds one. -/
theorem Core.not_holding
    (core : Core state)
    (asleep :
      ∀ index, state.queue.pc (.worker index) = .popWait .asleep)
    (thread : Thread config.numThreads Client) :
    (state.place thread).holding = false := by
  have role := core.role thread
  cases thread with
  | worker index =>
      simp [State.place, core.popping_of_asleep (asleep index),
        asleep index, Place.holding, Scheduler.Pc.held]
  | client name =>
      cases here : state.pc (.client name) with
      | submitting stage submission caller
      | waiting stage since caller =>
          rw [here] at role
          cases caller with
          | client =>
              simp [State.place, here, Place.holding]
          | task item there =>
              exact Role.noConfusion role
      | idle =>
          simp [State.place, here, Place.holding]
      | _ =>
          rw [here] at role
          exact Role.noConfusion role
  | destroyer =>
      obtain ⟨stage, here⟩ := core.stage
      simp [State.place, here, Place.holding]

/-- Where every worker waits for a task the queue is empty. -/
theorem Core.empty_of_asleep
    [Fintype Client]
    (core : Core state)
    (asleep :
      ∀ index, state.queue.pc (.worker index) = .popWait .asleep) :
    state.queue.queue.count = 0 := by
  have covered := (reachable_wakeInvariant core.queue).notEmpty
  have someone :
      0 < population (notEmpty Func (Job Arg)).asleep state.queue.pc :=
    population_pos.mpr ⟨.worker 0, by rw [asleep 0]; rfl⟩
  have nobody :
      population (notEmpty Func (Job Arg)).notified state.queue.pc = 0 := by
    refine population_eq_zero.mpr ?_
    intro thread
    rw [Bool.eq_false_iff]
    intro notified
    cases call : state.queue.pc thread with
    | popWait wake =>
        have popping := core.popping_of_asleep call
        have role := core.role thread
        rw [popping] at role
        cases thread with
        | worker index =>
            rw [asleep index] at notified
            exact Bool.noConfusion notified
        | _ =>
            exact Role.noConfusion role
    | _ =>
        rw [call] at notified
        exact Bool.noConfusion notified
  have available := covered someone
  omega

/-- Whoever waits for room in an empty queue has somebody who goes on first. -/
theorem Core.notified_of_asleep
    [Fintype Client]
    (core : Core state)
    (empty : state.queue.queue.count = 0)
    {thread : Thread config.numThreads Client}
    (asleep : (state.queue.pc thread).asleepNotFull = true) :
    ∃ other func arg node,
      state.queue.pc other = .pushWait func arg node .notified := by
  have covered := (reachable_wakeInvariant core.queue).notFull
  have available :=
    covered (population_pos.mpr ⟨thread, asleep⟩)
  rw [empty, Nat.sub_zero] at available
  obtain ⟨other, notified⟩ :=
    population_pos.mp
      (Nat.lt_of_lt_of_le config.queueCapacity_pos available)
  cases call : state.queue.pc other with
  | pushWait func arg node wake =>
      rw [call] at notified
      cases wake with
      | notified =>
          exact ⟨other, func, arg, node, call⟩
      | _ =>
          exact Bool.noConfusion notified
  | _ =>
      rw [call] at notified
      exact Bool.noConfusion notified

/-- Where nobody can go on and the queue is empty nobody is submitting. -/
theorem Core.not_submits_of_stuck
    [Fintype Client]
    (core : Core state)
    (empty : state.queue.queue.count = 0)
    (stuck :
      ∀ thread later,
        thread ≠ .destroyer →
        state.pc thread ≠ .idle →
        ¬ Step behaviour state thread later)
    (thread : Thread config.numThreads Client) :
    (state.pc thread).submits = false := by
  have able :
      ∀ other stage submission caller,
        state.pc other = .submitting stage submission caller →
        ¬ Scheduler.Awake (state.queue.pc other) := by
    intro other stage submission caller here awake
    obtain ⟨later, step⟩ := core.submitting_enabled behaviour awake here
    refine stuck other later ?_ (by rw [here]; rintro ⟨⟩) step
    rintro rfl
    obtain ⟨stage, destroying⟩ := core.stage
    rw [here] at destroying
    contradiction
  cases here : state.pc thread with
  | submitting stage submission caller =>
      exfalso
      refine able thread stage submission caller here ⟨?_, ?_⟩
      · rw [Bool.eq_false_iff]
        intro asleep
        have popping :=
          core.popping_of_asleep
            (Scheduler.Pc.asleepNotEmpty_iff.mp asleep)
        rw [here] at popping
        contradiction
      · rw [Bool.eq_false_iff]
        intro asleep
        obtain ⟨other, func, arg, node, call⟩ :=
          core.notified_of_asleep empty asleep
        obtain ⟨submission, caller, pushing⟩ :=
          core.submitting_of_pushWait call
        refine able other .pushing submission caller pushing ?_
        rw [call]
        exact ⟨rfl, rfl⟩
  | _ =>
      rfl

/-- A client sleeps in `thread_pool_wait` only while somebody has work to do. -/
theorem reachable_behind
    [Fintype Client]
    (reachable :
      (system config Client behaviour).Reachable state)
    (asleep :
      ∀ index, state.queue.pc (.worker index) = .popWait .asleep)
    (caughtUp :
      state.shared.submittedTasks ≤ state.shared.completedTasks)
    (thread : Thread config.numThreads Client) :
    (state.pc thread).asleepWait = false := by
  have core := reachable_core reachable
  rw [Bool.eq_false_iff]
  intro waits
  obtain ⟨completed, since, caller, here⟩ := Pc.asleepWait_iff.mp waits
  have behind := behind_kept.reachable reachable thread
  rw [here] at behind
  obtain ⟨worker, announces⟩ :=
    reachable_announced reachable thread completed
      (by rw [here]; rfl)
      (Nat.lt_of_lt_of_le behind caughtUp)
  have role := core.role worker
  rw [Pc.role_of_announcing announces] at role
  cases worker with
  | worker index =>
      rw [core.popping_of_asleep (asleep index)] at announces
      exact Bool.noConfusion announces
  | _ =>
      exact Role.noConfusion role

/-- With no task on its way every acknowledged one has been carried out. -/
theorem reachable_carriedOut
    [Fintype Client]
    (reachable :
      (system config Client behaviour).Reachable state)
    (empty : state.queue.queue.count = 0)
    (free : ∀ thread, (state.place thread).holding = false)
    (outside : ∀ thread, (state.pc thread).submits = false) :
    state.shared.history.finished.Perm
      state.shared.history.acknowledged := by
  have counted := countingAccount_sound.balanced reachable
  have acknowledged := acknowledgingAccount_sound.balanced reachable
  have called := callingAccount_sound.balanced reachable
  have executed := executingAccount_sound.balanced reachable
  have noneUncounted : tally Place.uncounted state.place = 0 :=
    Finset.sum_eq_zero (fun thread _ =>
      (Place.settled_of_not_submits (outside thread)).1)
  have noneUnacknowledged : tally Place.unacknowledged state.place = 0 :=
    Finset.sum_eq_zero (fun thread _ =>
      (Place.settled_of_not_submits (outside thread)).2.1)
  have noneUncalled : tally Place.uncalled state.place = 0 :=
    Finset.sum_eq_zero (fun thread _ =>
      (Place.empty_of_not_holding (free thread)).1)
  have noneExecuting : tally Place.executing state.place = 0 :=
    Finset.sum_eq_zero (fun thread _ =>
      (Place.empty_of_not_holding (free thread)).2)
  simp only [countingAccount, acknowledgingAccount, callingAccount,
    executingAccount, noneUncounted, noneUnacknowledged, noneUncalled,
    noneExecuting, add_zero, State.record, Shared.record]
    at counted acknowledged called executed
  refine Multiset.coe_eq_coe.mp ?_
  calc
    (↑state.shared.history.finished : Multiset Nat) =
        taskIds state.shared.history.called :=
      executed.symm
    _ = taskIds state.queue.removed :=
      congrArg (Multiset.map taskId) called.symm
    _ = taskIds state.queue.linked := by
      rw [(reachable_core reachable).removed_of_empty empty]
    _ = ↑state.shared.history.counted :=
      counted
    _ = ↑state.shared.history.acknowledged :=
      acknowledged

/-- A stuck pool is at rest as long as nobody has begun to destroy it. -/
theorem reachable_atRest
    [Fintype Client]
    (terminates :
      ∀ func arg, behaviour.Terminates (behaviour.enter func arg))
    (submitsNothing : behaviour.SubmitsNothing)
    (reachable :
      (system config Client behaviour).Reachable state)
    (alive : state.pc .destroyer = .destroying .start)
    (stuck :
      ∀ thread later,
        thread ≠ .destroyer →
        state.pc thread ≠ .idle →
        ¬ Step behaviour state thread later) :
    AtRest state := by
  have core := reachable_core reachable
  have onCourse := (onCourse_kept terminates).reachable reachable
  have asClient := (submitsAsClient_kept submitsNothing).reachable reachable
  have unlocked :=
    core.unlocked_of_stuck (holdsWait_kept.reachable reachable)
      onCourse stuck
  have opened : state.queue.queue.shutdown = false := by
    rw [Bool.eq_false_iff]
    intro closed
    exact core.closed closed (core.phase _ alive)
  have asleep :
      ∀ index, state.queue.pc (.worker index) = .popWait .asleep := by
    intro index
    refine core.worker_asleep opened unlocked (asClient _) (onCourse _) ?_
    intro later
    refine stuck _ later (by rintro ⟨⟩) ?_
    intro idle
    have role := core.role (.worker index)
    rw [idle] at role
    exact Role.noConfusion role
  have empty := core.empty_of_asleep asleep
  have free := core.not_holding asleep
  have outside := core.not_submits_of_stuck empty stuck
  have caughtUp :
      state.shared.completedTasks = state.shared.submittedTasks := by
    have lengths := core.length_linked
    have removed := reachable_removed_length reachable
    have linked := reachable_linked_length reachable
    rw [population_eq_zero.mpr free] at removed
    rw [population_eq_zero.mpr (fun thread =>
      (Place.settled_of_not_submits (outside thread)).2.2)] at linked
    omega
  refine ⟨?_, asleep, empty, caughtUp,
    reachable_carriedOut reachable empty free outside⟩
  intro name
  have role := core.role (.client name)
  cases here : state.pc (.client name) with
  | idle =>
      rfl
  | submitting stage submission caller =>
      have submits := outside (.client name)
      rw [here] at submits
      exact Bool.noConfusion submits
  | waiting stage since caller =>
      obtain ⟨later, step⟩ :
          ∃ later, Step behaviour state (.client name) later :=
        waiting_enabled role here unlocked
          (reachable_behind reachable asleep caughtUp.ge _)
      exact (stuck _ later (by rintro ⟨⟩)
        (by rw [here]; rintro ⟨⟩) step).elim
  | _ =>
      rw [here] at role
      exact Role.noConfusion role

/-- With the destroyer among those who go on a pool is stuck only once it is freed. -/
theorem reachable_freed
    (terminates :
      ∀ func arg, behaviour.Terminates (behaviour.enter func arg))
    (reachable :
      (system config Client behaviour).Reachable state)
    (stuck : ∀ later, ¬ Proceeds behaviour state later) :
    state.Freed := by
  by_contra allocated
  have core := reachable_core reachable
  obtain ⟨stage, here⟩ := core.stage
  have joinable :
      ∀ next (inRange : next < config.numThreads),
        stage = .joining next →
        state.pc (.worker ⟨next, inRange⟩) = .exited := by
    rintro next inRange rfl
    by_contra inLoop
    obtain ⟨_, closed, _⟩ := core.phase _ here
    -- A client that holds `wait_lock` can go on, and so can some worker.
    have free :
        ∀ name, (state.pc (.client name)).holdsWait = false := by
      intro name
      rw [Bool.eq_false_iff]
      intro holds
      obtain ⟨later, step⟩ := client_enabled (core.role _) holds
      refine stuck later ⟨.client name, ?_, step⟩
      intro idle
      rw [idle] at holds
      exact Bool.noConfusion holds
    obtain ⟨index, later, step⟩ :=
      core.some_worker_enabled closed
        ((onCourse_kept terminates).reachable reachable)
        (holdsWait_kept.reachable reachable) free inLoop
    refine stuck later ⟨.worker index, ?_, step⟩
    intro idle
    have role := core.role (.worker index)
    rw [idle] at role
    exact Role.noConfusion role
  obtain ⟨later, step⟩ :=
    core.destroyer_enabled behaviour here
      (by rintro rfl; exact allocated here) joinable
  exact stuck later ⟨.destroyer, by rw [here]; rintro ⟨⟩, step⟩

/-- What becomes of a pool whose tasks terminate and submit nothing. -/
structure Responsive
    (behaviour : TaskBehaviour Func Arg Local)
    (state : State config Client Func Arg Local) : Prop where
  runsOut :
    ∀ run : Nat → State config Client Func Arg Local,
      run 0 = state →
      (∀ time, Next behaviour (run time) (run (time + 1))) →
      ∀ settled,
        ∃ time,
          settled ≤ time ∧
            ¬ Proceeds behaviour (run time) (run (time + 1))
  rests :
    state.pc .destroyer = .destroying .start →
    (∀ thread later,
      thread ≠ .destroyer →
      state.pc thread ≠ .idle →
      ¬ Step behaviour state thread later) →
    AtRest state
  frees :
    (∀ later, ¬ Proceeds behaviour state later) →
    state.Freed

/--
Every call returns: apart from new calls and spurious wake-ups a run has only
finitely many steps, and where they end all calls have returned and all accepted
tasks are carried out, or, if somebody destroys the pool, it has been freed.
-/
theorem calls_return
    [Fintype Client]
    (terminates :
      ∀ func arg, behaviour.Terminates (behaviour.enter func arg))
    (submitsNothing : behaviour.SubmitsNothing)
    (reachable :
      (system config Client behaviour).Reachable state) :
    Responsive behaviour state where
  runsOut := by
    intro run first steps
    refine reachable_disturbed terminates submitsNothing ?_ steps
    rw [first]
    exact reachable
  rests :=
    reachable_atRest terminates submitsNothing reachable
  frees :=
    reachable_freed terminates reachable

end

/-- Tasks that return at once submit nothing. -/
theorem idleTasks_submitsNothing :
    idleTasks.SubmitsNothing := by
  intro place func arg priority submits
  contradiction

/-- A pool in which one client is submitting while another one waits. -/
theorem calls_return_two :
    ∃ state : State smallConfig Bool Nat Nat Unit,
      (system smallConfig Bool idleTasks).Reachable state ∧
        state.pc (.client false) =
          .submitting .checking ⟨0, 7, 8, .normal⟩ .client ∧
        state.pc (.client true) = .waiting .locking [] .client ∧
        Responsive idleTasks state := by
  have start : (system smallConfig Bool idleTasks).Reachable _ :=
    .start rfl
  have called := start.step
    (.step (.client false) (by decide)
      (.own (.submit (.call _ .client 7 8 .normal trivial))))
  have waits := called.step
    (.step (.client true) (by decide)
      (.own (.wait (.call _ .client trivial))))
  exact ⟨_, waits, rfl, rfl, calls_return idleTasks_terminates
    idleTasks_submitsNothing waits⟩

end SThread.ThreadPool
