import SThread.Scheduler.Backpressure
import SThread.ThreadPool.Places

namespace SThread.ThreadPool

open SThread.Library
open SThread.Scheduler

/-!
# Tasks that submit to their own pool

A full queue blocks whoever submits, and the workers are no exception: when
their tasks submit, all of them can fall asleep on `not_full` with nobody left
to remove a task.

This takes a full queue and a submission by every worker's task, and nothing
else does it.
-/

section

variable
    {config : Config}
    {Client Func Arg Local : Type}

/-- A running pool with a task in its queue and all workers asleep on `not_full`. -/
structure Wedged
    (state : State config Client Func Arg Local) : Prop where
  running :
    state.shared.poolState = .running
  queued :
    0 < state.queue.queue.count
  asleep :
    ∀ index, (state.queue.pc (.worker index)).asleepNotFull = true

/-- A worker sleeps on `not_full` in a submission its task has made. -/
def SubmitsFromTask
    (behaviour : TaskBehaviour Func Arg Local)
    (pc : Pc Func Arg Local) : Prop :=
  ∃ submission task place,
    pc = .submitting .pushing submission (.task task place) ∧
      behaviour.acts place
        (.submit (some submission.func)
          submission.arg submission.priority)

/-- What a pool looks like when it is wedged. -/
structure Backpressure
    [DecidableEq Client]
    (behaviour : TaskBehaviour Func Arg Local)
    (state : State config Client Func Arg Local) : Prop where
  full :
    state.queue.queue.count = config.queueCapacity
  submits :
    ∀ index, SubmitsFromTask behaviour (state.pc (.worker index))
  stuck :
    ∀ index later, ¬ Step behaviour state (.worker index) later
  lasting :
    ∀ name later,
      Step behaviour state (.client name) later →
      Wedged later

end

/-- A submission is made where the code of its caller says so. -/
def Pc.Asked
    {Func Arg Local : Type}
    (behaviour : TaskBehaviour Func Arg Local) :
    Pc Func Arg Local → Prop
  | .submitting _ submission caller =>
      caller.May behaviour
        (.submit (some submission.func)
          submission.arg submission.priority)
  | _ => True

/-- A call does not put its thread to sleep at once. -/
theorem CallMove.asleepNotFull
    {Func Arg : Type}
    {before after : Scheduler.Pc Func Arg}
    (move : CallMove before after)
    (asleep : after.asleepNotFull = true) :
    after = before := by
  cases move with
  | stay =>
      rfl
  | start request =>
      cases request with
      | push func arg priority =>
          cases func <;> exact Bool.noConfusion asleep
      | pop kind outputs =>
          cases outputs <;> exact Bool.noConfusion asleep
      | shutdown =>
          exact Bool.noConfusion asleep
  | ret call returned =>
      exact Bool.noConfusion asleep

/-- Only a submitter sleeps on `not_full`. -/
theorem Place.Agrees.submitting_of_asleep
    {Func Arg Local : Type}
    {place : Place Func Arg Local}
    (agrees : place.Agrees)
    (asleep : place.call.asleepNotFull = true) :
    ∃ submission caller,
      place.pc = .submitting .pushing submission caller := by
  rcases place with ⟨pc, call⟩
  obtain ⟨func, arg, node, rfl⟩ :=
    Scheduler.Pc.asleepNotFull_iff.mp asleep
  cases pc with
  | submitting stage submission caller =>
      cases stage with
      | pushing =>
          exact ⟨submission, caller, rfl⟩
      | _ =>
          contradiction
  | destroying stage =>
      cases stage <;> simp [Place.Agrees] at agrees
  | _ =>
      simp [Place.Agrees, Scheduler.Pc.inPop] at agrees

/-- Only a worker removes tasks from the queue. -/
theorem Place.Agrees.role_of_removing
    {Func Arg Local : Type}
    {place : Place Func Arg Local}
    (agrees : place.Agrees)
    (removing : place.call.popKind ≠ none) :
    place.pc.role = .worker := by
  rcases place with ⟨pc, call⟩
  cases pc with
  | popping =>
      rfl
  | submitting stage submission caller =>
      cases stage with
      | pushing =>
          exact (removing (Scheduler.Pc.popKind_of_inPush agrees)).elim
      | _ =>
          simp only [Place.Agrees] at agrees
          subst agrees
          exact (removing rfl).elim
  | destroying stage =>
      cases stage with
      | shuttingDown =>
          rcases agrees with rfl | rfl <;> exact (removing rfl).elim
      | _ =>
          simp only [Place.Agrees] at agrees
          subst agrees
          exact (removing rfl).elim
  | _ =>
      simp only [Place.Agrees] at agrees
      subst agrees
      exact (removing rfl).elim

/-- Only the destroyer shuts the queue down. -/
theorem Place.Agrees.role_of_closing
    {Func Arg Local : Type}
    {place : Place Func Arg Local}
    (agrees : place.Agrees)
    (closing : place.call = .shutdownEnter) :
    place.pc.role = .destroyer := by
  rcases place with ⟨pc, call⟩
  subst closing
  cases pc with
  | destroying stage =>
      rfl
  | submitting stage submission caller =>
      cases stage <;>
        simp [Place.Agrees, Scheduler.Pc.InPush] at agrees
  | _ =>
      simp [Place.Agrees, Scheduler.Pc.inPop] at agrees

/-- No step outside the queue is taken by a thread that waits in it for room. -/
theorem LocalStep.not_pushing
    {Owner Func Arg Local : Type}
    {behaviour : TaskBehaviour Func Arg Local}
    {thread : Owner}
    {numThreads : Nat}
    {shared shared' : Shared Owner Func Arg}
    {place place' : Place Func Arg Local}
    {submission : Submission Func Arg}
    {caller : Caller Func Arg Local}
    (step :
      LocalStep behaviour thread numThreads
        shared place shared' place')
    (here : place.pc = .submitting .pushing submission caller) :
    place.call.asleepNotFull ≠ true := by
  cases step with
  | worker step
  | destroy step =>
      cases step <;> contradiction
  | submit step =>
      cases step with
      | callNull call caller arg priority may
      | call call caller func arg priority may =>
          cases caller <;>
            contradiction
      | pushFailed submission caller ret failed
      | counted submission caller =>
          exact Bool.noConfusion
      | _ =>
          simp at here
  | wait step =>
      cases step with
      | call call caller may =>
          cases caller <;>
            contradiction
      | _ =>
          simp at here

section

variable
    {config : Config}
    {Client Func Arg Local : Type}
    [DecidableEq Client]
    {behaviour : TaskBehaviour Func Arg Local}
    {state later : State config Client Func Arg Local}
    {thread : Thread config.numThreads Client}

omit [DecidableEq Client] in
/-- A task that submits does what its code says. -/
theorem asked_kept :
    ThreadInvariant behaviour
      (fun (_ : Thread config.numThreads Client)
          (_ : Shared (Thread config.numThreads Client) Func Arg)
          (pc : Pc Func Arg Local) =>
        pc.Asked behaviour) := by
  refine .of_submit ?_ ?_ ?_
  · intro thread shared pc outside
    cases pc <;> first | contradiction | trivial
  · intros
    assumption
  · intro thread shared place shared' place' step asked
    cases step with
    | callNull call caller arg priority may
    | failed call submission caller ret failed
    | acknowledged call submission caller =>
        cases caller <;> trivial
    | call call caller func arg priority may =>
        exact may
    | _ =>
        exact asked

/-- The threads that remove tasks are the workers. -/
theorem Core.worker_of_removing
    (core : Core state)
    (removing : (state.queue.pc thread).popKind ≠ none) :
    ∃ index, thread = .worker index := by
  have role := (core.agrees thread).role_of_removing removing
  have same : thread.role = .worker := (core.role thread).symm.trans role
  cases thread with
  | worker index =>
      exact ⟨index, rfl⟩
  | client name
  | destroyer =>
      exact Role.noConfusion same

/-- All workers are asleep on `not_full` only beside a full queue. -/
def FullWhenAsleep
    (state : State config Client Func Arg Local) : Prop :=
  (∀ thread,
    (∃ index, thread = Thread.worker index) →
    (state.queue.pc thread).asleepNotFull = true) →
  state.queue.queue.capacity ≤ state.queue.queue.count

/-- Moving a thread without putting it to sleep preserves this. -/
theorem FullWhenAsleep.setPc
    (full : FullWhenAsleep state)
    (call : Scheduler.Pc Func (Job Arg))
    (sleeps :
      call.asleepNotFull = true → call = state.queue.pc thread)
    (same : later.queue = state.queue.setPc thread call) :
    FullWhenAsleep later := by
  intro asleep
  rw [same] at asleep ⊢
  apply full
  intro other isWorker
  have still := asleep other isWorker
  by_cases actor : other = thread
  · subst actor
    simp only [Scheduler.State.setPc_pc, Function.update_self] at still
    rw [← sleeps still]
    exact still
  · simpa [actor] using still

/-- Every step preserves this. -/
theorem Step.fullWhenAsleep
    (step : Step behaviour state thread later)
    (core : Core state)
    (full : FullWhenAsleep state) :
    FullWhenAsleep later := by
  cases step with
  | queue step =>
      exact step.full_of_asleep core.worker_of_removing full
  | own step =>
      exact full.setPc _ step.callMove.asleepNotFull rfl
  | broadcast here
  | join next here inRange ended =>
      exact full
  | destroyQueue heap here frees =>
      obtain rfl := core.destroyer_of here
      have same := (core.destroyQueue here).2
      unfold FullWhenAsleep
      simp only [same]
      exact full
  | destroyQueueFault here fails =>
      exact full.setPc .fault nofun rfl

/-- It holds in every reachable pool. -/
theorem reachable_fullWhenAsleep
    (reachable :
      (system config Client behaviour).Reachable state) :
    FullWhenAsleep state := by
  refine System.Reachable.invariant FullWhenAsleep ?_ ?_ reachable
  · intro first initial
    subst initial
    intro asleep
    have none := asleep (.worker 0) ⟨0, rfl⟩
    exact Bool.noConfusion none
  · intro before after beforeReachable full next
    cases next with
    | step thread allocated step =>
        exact step.fullWhenAsleep (reachable_core beforeReachable) full
    | queueSpurious thread allocated wakes =>
        refine full.setPc _ ?_ rfl
        intro asleep
        rcases Scheduler.Pc.spurious_cases wakes with
          ⟨func, arg, node, _, rfl⟩ | ⟨_, rfl⟩ <;>
          exact Bool.noConfusion asleep
    | waitSpurious thread completed since caller allocated here =>
        exact full

/-- A worker asleep in `task_queue_push` takes no step. -/
theorem Step.not_asleep
    (step : Step behaviour state thread later)
    (core : Core state) :
    (state.queue.pc thread).asleepNotFull = false := by
  by_contra awake
  have asleep : (state.place thread).call.asleepNotFull = true := by
    exact Bool.eq_true_of_not_eq_false awake
  obtain ⟨submission, caller, here⟩ :=
    (core.agrees thread).submitting_of_asleep asleep
  cases step with
  | queue step =>
      exact awake step.not_asleepNotFull
  | own step =>
      exact step.not_pushing here asleep
  | broadcast elsewhere
  | join next elsewhere inRange ended
  | destroyQueue heap elsewhere frees
  | destroyQueueFault elsewhere fails =>
      have both := elsewhere.symm.trans here
      contradiction

/-- A step of a client does not end the wedge. -/
theorem Wedged.client
    {name : Client}
    (wedged : Wedged state)
    (core : Core state)
    (step : Step behaviour state (.client name) later) :
    Wedged later := by
  have role := core.role (.client name)
  cases step with
  | queue step =>
      have notRemoving :
          (state.queue.pc (.client name)).popKind = none := by
        by_contra removing
        obtain ⟨index, isWorker⟩ := core.worker_of_removing removing
        contradiction
      have notClosing :
          state.queue.pc (.client name) ≠ .shutdownEnter := by
        intro closing
        have closes := (core.agrees (.client name)).role_of_closing closing
        exact Role.noConfusion (role.symm.trans closes)
      refine ⟨wedged.running, ?_, ?_⟩
      · exact wedged.queued.trans_le (step.not_shorter notRemoving).2
      · intro index
        have notActor :
            Thread.worker index ≠ Thread.client name :=
          by rintro ⟨⟩
        have stays :=
          step.asleepNotFull_stays notRemoving notClosing notActor
        exact stays.trans (wedged.asleep index)
  | own step =>
      refine ⟨?_, wedged.queued, ?_⟩
      · have same := step.poolState_eq (by rw [State.place, role]; rintro ⟨⟩)
        exact same.trans wedged.running
      · intro index
        simpa [State.put] using wedged.asleep index
  | broadcast here =>
      exact ⟨wedged.running, wedged.queued, wedged.asleep⟩
  | join next here inRange ended
  | destroyQueue heap here frees
  | destroyQueueFault here fails =>
      have isDestroyer := core.destroyer_of here
      contradiction

/-- A pool is wedged only by a full queue that blocks the tasks of all workers. -/
theorem reachable_backpressure
    (reachable :
      (system config Client behaviour).Reachable state)
    (wedged : Wedged state) :
    Backpressure behaviour state := by
  have core := reachable_core reachable
  have capacity := reachable_capacity core.queue
  refine ⟨?_, ?_, ?_, ?_⟩
  · have full := reachable_fullWhenAsleep reachable
    have fits :=
      reachable_bounded core.queue config.queueCapacity_pos
    have atLeast : state.queue.queue.capacity ≤ state.queue.queue.count := by
      apply full
      rintro _ ⟨index, rfl⟩
      exact wedged.asleep index
    omega
  · intro index
    obtain ⟨submission, caller, here⟩ :=
      (core.agrees (.worker index)).submitting_of_asleep
        (wedged.asleep index)
    have role := core.role (.worker index)
    have asked := asked_kept.reachable reachable (.worker index)
    simp only [State.place] at here
    rw [here] at role asked ⊢
    cases caller with
    | client =>
        exact Role.noConfusion role
    | task task place =>
        exact ⟨submission, task, place, rfl, asked⟩
  · intro index later step
    have awake := step.not_asleep core
    rw [wedged.asleep index] at awake
    exact Bool.noConfusion awake
  · intro name later step
    exact wedged.client core step

end

/-- Tasks that submit any number of tasks to their own pool. -/
def submittingTasks : TaskBehaviour Nat Nat Unit where
  enter _ _ := ()
  acts _ action :=
    action = .finish ∨
      ∃ func arg priority, action = .submit (some func) arg priority
  resume _ _ := ()

/-- The only worker runs a task that fills the queue and submits once more. -/
theorem submittingTasks_wedge :
    ∃ state : State smallConfig Unit Nat Nat Unit,
      (system smallConfig Unit submittingTasks).Reachable state ∧
        Wedged state := by
  have start : (system smallConfig Unit submittingTasks).Reachable _ :=
    .start rfl
  -- The client links the first task.
  have called := start.step
    (.step (.client ()) (by decide)
      (.own (.submit (.call _ .client 7 8 .normal trivial))))
  have checked := called.step
    (.step (.client ()) (by decide)
      (.own (.submit (.checkPassed _ .client rfl))))
  have allocated := checked.step
    (.step (.client ()) (by decide)
      (.queue (.alloc 7 ⟨0, 8⟩ .normal 0 0 rfl rfl)))
  have linked := allocated.step
    (.step (.client ()) (by decide)
      (.queue (.pushLinked 7 ⟨0, 8⟩ 0 _ _ ∅ (.enter rfl)
        ⟨by simp, by decide⟩)))
  -- The worker takes it and starts to run it.
  have popping := linked.step
    (.step (.worker 0) (by decide) (.own (.worker .pop)))
  have unlinked := popping.step
    (.step (.worker 0) (by decide)
      (.queue (.popUnlinked .pop 0 _ _ ∅ (.enter rfl) rfl
        ⟨by simp, by decide⟩)))
  have taken := unlinked.step
    (.step (.worker 0) (by decide)
      (.queue (.popTaken .pop 0 _ _ rfl rfl)))
  have activating := taken.step
    (.step (.worker 0) (by decide)
      (.own (.worker (.taken _ (by decide)))))
  have entering := activating.step
    (.step (.worker 0) (by decide) (.own (.worker (.activate _ _))))
  have running := entering.step
    (.step (.worker 0) (by decide) (.own (.worker (.enter _ _))))
  -- The task submits a second task, which fills the queue.
  have submits := running.step
    (.step (.worker 0) (by decide)
      (.own (.submit (.call _ (.task (7, ⟨0, 8⟩) ()) 7 9 .normal
        (Or.inr ⟨7, 9, .normal, rfl⟩)))))
  have passed := submits.step
    (.step (.worker 0) (by decide)
      (.own (.submit (.checkPassed _ (.task (7, ⟨0, 8⟩) ()) rfl))))
  have stored := passed.step
    (.step (.worker 0) (by decide)
      (.queue (.alloc 7 ⟨1, 9⟩ .normal 0 0 rfl rfl)))
  have fills := stored.step
    (.step (.worker 0) (by decide)
      (.queue (.pushLinked 7 ⟨1, 9⟩ 0 _ _ ∅ (.enter rfl)
        ⟨by simp, by decide⟩)))
  have counted := fills.step
    (.step (.worker 0) (by decide)
      (.own (.submit (.counted _ (.task (7, ⟨0, 8⟩) ())))))
  have returned := counted.step
    (.step (.worker 0) (by decide)
      (.own (.submit (.acknowledged _ _ (.task (7, ⟨0, 8⟩) ())))))
  -- It submits a third one and falls asleep.
  have again := returned.step
    (.step (.worker 0) (by decide)
      (.own (.submit (.call _ (.task (7, ⟨0, 8⟩) ()) 7 10 .normal
        (Or.inr ⟨7, 10, .normal, rfl⟩)))))
  have passedAgain := again.step
    (.step (.worker 0) (by decide)
      (.own (.submit (.checkPassed _ (.task (7, ⟨0, 8⟩) ()) rfl))))
  have storedAgain := passedAgain.step
    (.step (.worker 0) (by decide)
      (.queue (.alloc 7 ⟨2, 10⟩ .normal 1 0 rfl rfl)))
  have sleeps := storedAgain.step
    (.step (.worker 0) (by decide)
      (.queue (.pushSleeps 7 ⟨2, 10⟩ 1 (.enter rfl))))
  refine ⟨_, sleeps, rfl, Nat.one_pos, ?_⟩
  intro index
  have only : index = 0 := Subsingleton.elim (α := Fin 1) index 0
  rw [only]
  rfl

/-- A pool whose only worker is blocked by its own task. -/
theorem reachable_backpressure_full :
    ∃ state : State smallConfig Unit Nat Nat Unit,
      (system smallConfig Unit submittingTasks).Reachable state ∧
        Wedged state ∧
        Backpressure submittingTasks state := by
  obtain ⟨state, reachable, wedged⟩ := submittingTasks_wedge
  exact ⟨state, reachable, wedged,
    reachable_backpressure reachable wedged⟩

/-- Not every pool whose tasks only submit is free of wedges. -/
theorem exists_wedged :
    ¬ ∀ (config : Config) (behaviour : TaskBehaviour Nat Nat Unit)
        (state : State config Unit Nat Nat Unit),
      (∀ place, ¬ behaviour.acts place .wait) →
      (system config Unit behaviour).Reachable state →
      ¬ Wedged state := by
  intro never
  obtain ⟨state, reachable, wedged⟩ := submittingTasks_wedge
  refine never smallConfig submittingTasks state ?_ reachable wedged
  rintro place (finishes | ⟨func, arg, priority, submits⟩)
  · contradiction
  · contradiction

end SThread.ThreadPool
