import SThread.ThreadPool.Quiescence
import SThread.ThreadPool.TaskRuns
import SThread.ThreadPool.Turns

namespace SThread.ThreadPool

open SThread.Library
open SThread.Scheduler

/-!
# Fork and join

A client submits independent tasks and waits.  When `thread_pool_wait` has
returned the memory is the one a serial execution of the acknowledged tasks
leaves, in whatever order, and it stays so until the next submission.  When the
join loop of `thread_pool_destroy` is over the same holds of all accepted
tasks, whoever submitted them.
-/

/-- The task of a submission. -/
def History.task
    {Func Arg : Type}
    (history : History Func Arg)
    (id : Nat) : Option (Func × Job Arg) :=
  history.submissions[id]?.map fun submission =>
    (submission.1, ⟨id, submission.2⟩)

/-- A submitted task is the task of its number. -/
theorem History.Submitted.task
    {Func Arg : Type}
    {history : History Func Arg}
    {task : Func × Job Arg}
    (submitted : history.Submitted task) :
    history.task (taskId task) = some task := by
  unfold History.task
  rw [submitted]
  rfl

/-- The calls of a pool and the submissions it has acknowledged so far. -/
def History.Continues
    {Func Arg : Type}
    (after before : History Func Arg) : Prop :=
  before.called <+: after.called ∧
    before.acknowledged <+: after.acknowledged

/-- A step adds to them at most. -/
theorem LocalStep.continues
    {Owner Func Arg Local : Type}
    {behaviour : TaskBehaviour Func Arg Local}
    {thread : Owner}
    {numThreads : Nat}
    {shared shared' : Shared Owner Func Arg}
    {place place' : Place Func Arg Local}
    (step :
      LocalStep behaviour thread numThreads
        shared place shared' place') :
    shared'.history.Continues shared.history := by
  have same : shared.history.Continues shared.history :=
    ⟨List.prefix_refl _, List.prefix_refl _⟩
  cases step with
  | worker step =>
      cases step with
      | enter call task =>
          exact ⟨List.prefix_append _ _, List.prefix_refl _⟩
      | _ =>
          exact same
  | submit step =>
      cases step with
      | acknowledged call submission caller =>
          exact ⟨List.prefix_refl _, List.prefix_append _ _⟩
      | _ =>
          exact same
  | wait step =>
      cases step <;> exact same
  | destroy step =>
      cases step <;> exact same

section

variable
    {config : Config}
    {Client Func Arg Local Memory : Type}
    [DecidableEq Client]
    {behaviour : TaskBehaviour Func Arg Local}
    {state later : State config Client Func Arg Local}

/-- And so does a whole run. -/
theorem run_continues
    (run : (system config Client behaviour).Run state later) :
    later.shared.history.Continues state.shared.history := by
  induction run with
  | refl =>
      exact ⟨List.prefix_refl _, List.prefix_refl _⟩
  | tail run next inductionHypothesis =>
      refine ⟨inductionHypothesis.1.trans ?_,
        inductionHypothesis.2.trans ?_⟩ <;>
      · cases next with
        | step thread allocated step =>
            cases step with
            | own step =>
                first
                | exact step.continues.1
                | exact step.continues.2
            | _ =>
                exact List.prefix_refl _
        | queueSpurious thread allocated wakes
        | waitSpurious thread completed since caller allocated here =>
            exact List.prefix_refl _

/-- Every called task carries the function and argument of its submission. -/
theorem reachable_called_submitted
    [Fintype Client]
    (reachable :
      (system config Client behaviour).Reachable state)
    {task : Func × Job Arg}
    (called : task ∈ state.shared.history.called) :
    state.shared.history.Submitted task :=
  reachable_linked_submitted reachable task
    (Multiset.subset_of_le (reachable_called_le_linked reachable) called)

/-- Called tasks are the tasks of their numbers. -/
theorem filterMap_task_called
    [Fintype Client]
    (reachable :
      (system config Client behaviour).Reachable state)
    {tasks : List (Func × Job Arg)}
    (called : tasks ⊆ state.shared.history.called) :
    (tasks.map taskId).filterMap state.shared.history.task = tasks := by
  rw [List.filterMap_map, List.filterMap_eq_map_iff_forall_eq_some.mpr]
  · exact List.map_id tasks
  · intro task member
    exact (reachable_called_submitted reachable (called member)).task

/-- Where nobody is inside a task all called tasks have returned. -/
theorem reachable_all_finished
    [Fintype Client]
    (reachable :
      (system config Client behaviour).Reachable state)
    (outside :
      ∀ thread, (state.pc thread).tasked = none)
    {task : Func × Job Arg}
    (called : task ∈ state.shared.history.called) :
    taskId task ∈ state.shared.history.finished := by
  have balanced := executingAccount_sound.balanced reachable
  have nobody : tally Place.executing state.place = 0 :=
    Finset.sum_eq_zero (fun thread _ =>
      Place.executing_of_not_tasked (outside thread))
  simp only [executingAccount, nobody, add_zero, State.record,
    Shared.record] at balanced
  rw [← Multiset.mem_coe, ← balanced]
  exact List.mem_map_of_mem called

/-- Whoever holds no task is inside none. -/
theorem Place.not_tasked_of_not_holding
    {place : Place Func Arg Local}
    (free : place.holding = false) :
    place.pc.tasked = none := by
  obtain ⟨pc, call⟩ := place
  cases pc with
  | running task there =>
      simp [Place.holding] at free
  | submitting stage submission caller
  | waiting stage since caller =>
      cases caller with
      | client =>
          rfl
      | task task there =>
          simp [Place.holding] at free
  | _ =>
      rfl

variable
    {code : TaskCode Func Arg Local Memory}
    {memory : Memory}

/-- Where nobody is inside a task the memory explains itself. -/
theorem Explains.start
    [Fintype Client]
    [Inhabited Local]
    (reachable :
      (system config Client code.behaviour).Reachable state)
    (outside :
      ∀ thread, (state.pc thread).tasked = none)
    (memory : Memory) :
    Explains code state.shared.history.called [] (fun _ => default)
      memory ⟨state, memory⟩ where
  called :=
    (List.append_nil _).symm
  oldFinished := by
    intro task member
    exact reachable_all_finished reachable outside member
  here := by
    intro thread task place inside
    rw [outside thread] at inside
    contradiction
  returned := by
    intro task member
    exact absurd member List.not_mem_nil
  partly :=
    .nil memory

/-- Once everybody has left the tasks they have run one after the other. -/
theorem Explains.serially
    [Fintype Client]
    {old new : List (Func × Job Arg)}
    {places : Nat → Local}
    {execution : Execution config Client Func Arg Local Memory}
    (explains : Explains code old new places memory execution)
    (reachable :
      (system config Client code.behaviour).Reachable execution.pool)
    (outside :
      ∀ thread, (execution.pool.pc thread).tasked = none) :
    Program.Serially (new.map code.program) memory execution.memory := by
  have serially := explains.partly.serially (by
    intro item member
    obtain ⟨task, isNew, rfl⟩ := List.mem_map.mp member
    refine explains.returned task isNew
      (reachable_all_finished reachable outside ?_)
    rw [explains.called]
    exact List.mem_append_right _ isNew)
  rwa [TaskCode.courses, List.map_map] at serially

/-- Tasks that are independent of each other are called in an orderly way. -/
theorem Explains.orderly
    [Fintype Client]
    {old new : List (Func × Job Arg)}
    {places : Nat → Local}
    {execution : Execution config Client Func Arg Local Memory}
    (explains : Explains code old new places memory execution)
    (reachable :
      (system config Client code.behaviour).Reachable execution.pool)
    (independent :
      (new.map code.program).Pairwise Program.Independent) :
    execution.Orderly code := by
  intro thread task place before after inside called other isAfter
  have unfinished := reachable_unfinished reachable inside
  rw [explains.called, List.append_eq_append_iff] at called
  rcases called with
    ⟨between, _, newIs⟩ | ⟨between, oldIs, restIs⟩
  · rw [newIs, List.map_append, List.pairwise_append] at independent
    have pairs := independent.2.1
    rw [List.map_cons, List.pairwise_cons] at pairs
    exact (pairs.1 _ (List.mem_map_of_mem isAfter)).1
  · cases between with
    | nil =>
        rw [List.nil_append] at restIs
        rw [← restIs, List.map_cons, List.pairwise_cons] at independent
        exact (independent.1 _ (List.mem_map_of_mem isAfter)).1
    | cons head rest =>
        rw [List.cons_append, List.cons.injEq] at restIs
        obtain ⟨rfl, _⟩ := restIs
        refine absurd (explains.oldFinished task ?_) unfinished
        rw [oldIs]
        exact List.mem_append_right _ List.mem_cons_self

/-- A run of independent tasks between two moments when nobody is inside one. -/
theorem executions_serially
    [Fintype Client]
    [Inhabited Local]
    {execution later : Execution config Client Func Arg Local Memory}
    (reachable :
      (system config Client code.behaviour).Reachable execution.pool)
    (outside :
      ∀ thread, (execution.pool.pc thread).tasked = none)
    (run : (executions config Client code memory).Run execution later)
    (outside' :
      ∀ thread, (later.pool.pc thread).tasked = none)
    {new : List (Func × Job Arg)}
    (called :
      later.pool.shared.history.called =
        execution.pool.shared.history.called ++ new)
    (independent :
      (new.map code.program).Pairwise Program.Independent) :
    Program.Serially (new.map code.program)
      execution.memory later.memory := by
  have start := Explains.start reachable outside execution.memory
  obtain ⟨new', places', known⟩ := start.run reachable run (by
    intro middle new' places' middleReachable rest known
    refine known.orderly middleReachable ?_
    have grows := (run_continues (Execution.pool_run rest)).1
    rw [known.called, called, List.prefix_append_right_inj] at grows
    exact independent.sublist (grows.map _).sublist)
  have laterReachable := reachable.run (Execution.pool_run run)
  have same : new' = new :=
    List.append_cancel_left (known.called.symm.trans called)
  rw [← same]
  exact known.serially laterReachable outside'

/-- Only workers are inside tasks. -/
theorem Core.worker_of_tasked
    (core : Core state)
    {thread : Thread config.numThreads Client}
    {inside : (Func × Job Arg) × Local}
    (tasked : (state.pc thread).tasked = some inside) :
    ∃ index, thread = .worker index := by
  have role := core.role thread
  have isWorker : (state.pc thread).role = .worker := by
    cases here : state.pc thread with
    | running task place =>
        rfl
    | submitting stage submission caller
    | waiting stage since caller =>
        cases caller with
        | client =>
            simp [here, Pc.tasked, Caller.tasked] at tasked
        | task task place =>
            rfl
    | _ =>
        simp [here, Pc.tasked] at tasked
  rw [isWorker] at role
  cases thread with
  | worker index =>
      exact ⟨index, rfl⟩
  | client name
  | destroyer =>
      exact Role.noConfusion role

/-- In a pool past its join loop nobody is inside a task. -/
theorem Core.not_tasked_of_joined
    (core : Core state)
    {stage : DestroyStage}
    (here : state.pc .destroyer = .destroying stage)
    (joined : stage.Joined config.numThreads)
    (thread : Thread config.numThreads Client) :
    (state.pc thread).tasked = none := by
  cases inside : (state.pc thread).tasked with
  | none =>
      rfl
  | some item =>
      obtain ⟨index, rfl⟩ := core.worker_of_tasked inside
      rw [core.exited_of_joined here joined index] at inside
      contradiction

/--
When the workers are joined the memory is the one the accepted tasks leave when
they run one after the other, in whatever order.
-/
theorem joined_serially
    [Fintype Client]
    [Inhabited Local]
    {execution : Execution config Client Func Arg Local Memory}
    (reachable :
      (executions config Client code memory).Reachable execution)
    {stage : DestroyStage}
    (here : execution.pool.pc .destroyer = .destroying stage)
    (joined : stage.Joined config.numThreads)
    (independent :
      (execution.pool.queue.linked.map code.program).Pairwise
        Program.Independent)
    (order : List (Func × Job Arg))
    (accepted : order.Perm execution.pool.queue.linked) :
    Program.Serially (order.map code.program)
      memory execution.memory := by
  have poolReachable := Execution.pool_reachable reachable
  obtain ⟨first, rfl, run⟩ := reachable
  have drained := (reachable_drained poolReachable here joined).2
  have symmetric :
      ∀ {first second : Program Local Memory},
        first.Independent second → second.Independent first :=
    fun independent => independent.symm
  have independentCalled :
      (execution.pool.shared.history.called.map
        code.program).Pairwise Program.Independent :=
    (drained.symm.map code.program).pairwise independent symmetric
  have serially :=
    executions_serially (by exact .start rfl)
      (fun thread => by cases thread <;> rfl) run
      ((reachable_core poolReachable).not_tasked_of_joined here joined)
      (List.nil_append _).symm independentCalled
  exact serially.perm ((drained.trans accepted.symm).map _)
    independentCalled

end

section

variable
    {config : Config}
    {Func Arg Local Memory : Type}
    {code : TaskCode Func Arg Local Memory}
    {state : State config Unit Func Arg Local}

/-- Tasks that compute on a memory submit nothing. -/
theorem TaskCode.submitsNothing
    (code : TaskCode Func Arg Local Memory) :
    code.behaviour.SubmitsNothing :=
  fun _ _ _ _ => id

/-- A new pool is quiet. -/
theorem Quiet.initial :
    Quiet (State.initial config Unit Func Arg Local) where
  outside thread := by
    cases thread <;> rfl
  reached :=
    le_rfl
  unhurried :=
    trivial

/-- In a quiet pool nobody is inside a task. -/
theorem Quiet.not_tasked
    {behaviour : TaskBehaviour Func Arg Local}
    (quiet : Quiet state)
    (reachable :
      (system config Unit behaviour).Reachable state)
    (thread : Thread config.numThreads Unit) :
    (state.pc thread).tasked = none :=
  Place.not_tasked_of_not_holding ((quiet.idle reachable).2.2 thread)

/-- The step of an execution begins no submission. -/
def Execution.NoSubmission
    (execution later : Execution config Unit Func Arg Local Memory) :
    Prop :=
  ThreadPool.NoSubmission execution.pool later.pool

/-- The pool stays quiet while nothing is submitted. -/
theorem Quiet.execution
    {execution later : Execution config Unit Func Arg Local Memory}
    {memory : Memory}
    (quiet : Quiet execution.pool)
    (run :
      ((executions config Unit code memory).restrict
        Execution.NoSubmission).Run execution later) :
    Quiet later.pool := by
  induction run with
  | refl =>
      exact quiet
  | tail _ step inductionHypothesis =>
      exact inductionHypothesis.next step.1.pool_next step.2

/-- What a client has acknowledged between two quiet moments was called then. -/
theorem Quiet.called_since
    {behaviour : TaskBehaviour Func Arg Local}
    {later : State config Unit Func Arg Local}
    (quiet : Quiet state)
    (quiet' : Quiet later)
    (reachable :
      (system config Unit behaviour).Reachable state)
    (run : (system config Unit behaviour).Run state later)
    {new : List (Func × Job Arg)}
    (called :
      later.shared.history.called = state.shared.history.called ++ new) :
    (new.map taskId).Perm
      (later.shared.history.acknowledged.drop
        state.shared.history.acknowledged.length) := by
  have before := quiet.called reachable
  have after := quiet'.called (reachable.run run)
  obtain ⟨round, acknowledged⟩ := (run_continues run).2
  rw [called, taskIds_append, before, ← acknowledged,
    ← Multiset.coe_add] at after
  have same : taskIds new = ↑round := add_left_cancel after
  rw [← acknowledged, List.drop_left]
  exact Multiset.coe_eq_coe.mp same

/-- The programs of the tasks with the given numbers. -/
def Execution.programs
    (code : TaskCode Func Arg Local Memory)
    (execution : Execution config Unit Func Arg Local Memory)
    (ids : List Nat) : List (Program Local Memory) :=
  (ids.filterMap execution.pool.shared.history.task).map code.program

/--
Between two quiet moments the memory becomes the one the tasks acknowledged in
between leave when they run one after the other, in whatever order.
-/
theorem Quiet.serially
    [Inhabited Local]
    {execution later : Execution config Unit Func Arg Local Memory}
    {memory : Memory}
    (quiet : Quiet execution.pool)
    (quiet' : Quiet later.pool)
    (reachable :
      (system config Unit code.behaviour).Reachable execution.pool)
    (run : (executions config Unit code memory).Run execution later)
    (order : List Nat)
    (acknowledged :
      order.Perm
        (later.pool.shared.history.acknowledged.drop
          execution.pool.shared.history.acknowledged.length))
    (independent :
      (later.programs code order).Pairwise Program.Independent) :
    Program.Serially (later.programs code order)
      execution.memory later.memory := by
  have poolRun := Execution.pool_run run
  have laterReachable := reachable.run poolRun
  obtain ⟨new, called⟩ := (run_continues poolRun).1
  have ids := quiet.called_since quiet' reachable poolRun called.symm
  -- The calls since then are the tasks of those numbers in another order.
  have tasks :
      (new.map taskId).filterMap later.pool.shared.history.task = new := by
    refine filterMap_task_called laterReachable ?_
    rw [← called]
    exact List.subset_append_right _ _
  have reordered :
      (later.programs code order).Perm (new.map code.program) := by
    have both := (acknowledged.trans ids.symm).filterMap
      later.pool.shared.history.task
    rw [tasks] at both
    exact both.map code.program
  have independentCalled :
      (new.map code.program).Pairwise Program.Independent :=
    reordered.pairwise independent (fun independent => independent.symm)
  have serially :=
    executions_serially reachable (quiet.not_tasked reachable) run
      (quiet'.not_tasked laterReachable) called.symm independentCalled
  exact serially.perm reordered.symm independentCalled

/-- Until the next submission a pool stays quiet once a wait has returned. -/
theorem Quiet.returned
    {returned later : Execution config Unit Func Arg Local Memory}
    {memory : Memory}
    (reachable :
      (executions config Unit code memory).Reachable returned)
    {since : List Nat}
    {caller : Caller Func Arg Local}
    (returns :
      returned.pool.pc (.client ()) = .waiting .done since caller)
    (rest :
      ((executions config Unit code memory).restrict
        Execution.NoSubmission).Run returned later) :
    Quiet later.pool :=
  (reachable_quiet code.submitsNothing
    (Execution.pool_reachable reachable) returns).execution rest

/-- In a quiet pool the memory is what all acknowledged tasks have made of it. -/
theorem Quiet.serially_all
    [Inhabited Local]
    {execution : Execution config Unit Func Arg Local Memory}
    {memory : Memory}
    (quiet : Quiet execution.pool)
    (reachable :
      (executions config Unit code memory).Reachable execution)
    (independent :
      (execution.programs code
        execution.pool.shared.history.acknowledged).Pairwise
          Program.Independent) :
    Program.Serially
      (execution.programs code
        execution.pool.shared.history.acknowledged)
      memory execution.memory := by
  obtain ⟨first, rfl, run⟩ := reachable
  exact Quiet.initial.serially quiet (by exact .start rfl) run
    execution.pool.shared.history.acknowledged (.refl _) independent

/--
When `thread_pool_wait` has returned, and until the next submission, the memory
is the one the tasks acknowledged since the pool was quiet leave when they run
one after the other, in whatever order.
-/
theorem forkJoin_serially
    [Inhabited Local]
    {execution returned later :
      Execution config Unit Func Arg Local Memory}
    (reachable :
      (system config Unit code.behaviour).Reachable execution.pool)
    (quiet : Quiet execution.pool)
    (round :
      (executions config Unit code execution.memory).Run
        execution returned)
    {since : List Nat}
    {caller : Caller Func Arg Local}
    (returns :
      returned.pool.pc (.client ()) = .waiting .done since caller)
    (rest :
      ((executions config Unit code execution.memory).restrict
        Execution.NoSubmission).Run returned later)
    (order : List Nat)
    (acknowledged :
      order.Perm
        (later.pool.shared.history.acknowledged.drop
          execution.pool.shared.history.acknowledged.length))
    (independent :
      (later.programs code order).Pairwise Program.Independent) :
    Program.Serially (later.programs code order)
      execution.memory later.memory := by
  have quiet' : Quiet later.pool :=
    (reachable_quiet code.submitsNothing
      (reachable.run (Execution.pool_run round)) returns).execution rest
  exact quiet.serially quiet' reachable
    (round.trans (System.Run.of_restrict rest)) order acknowledged
    independent

end

/-- Submissions are only ever added. -/
theorem Next.submissions_grow
    {config : Config}
    {Client Func Arg Local : Type}
    [DecidableEq Client]
    {behaviour : TaskBehaviour Func Arg Local}
    {state later : State config Client Func Arg Local}
    (next : Next behaviour state later) :
    state.shared.history.submissions <+:
      later.shared.history.submissions := by
  cases next with
  | step thread allocated step =>
      cases step with
      | own step =>
          exact step.submissions_grow
      | _ =>
          exact List.prefix_refl _
  | queueSpurious thread allocated wakes
  | waitSpurious thread completed since caller allocated here =>
      exact List.prefix_refl _

/-- A run that ends with the submissions it began with makes none. -/
theorem Execution.rest_of_run
    {config : Config}
    {Func Arg Local Memory : Type}
    {code : TaskCode Func Arg Local Memory}
    {memory : Memory}
    {execution later : Execution config Unit Func Arg Local Memory}
    (run : (executions config Unit code memory).Run execution later)
    (same :
      later.pool.shared.history.submissions =
        execution.pool.shared.history.submissions) :
    ((executions config Unit code memory).restrict
      Execution.NoSubmission).Run execution later := by
  have grows :
      ∀ {middle},
        (executions config Unit code memory).Run execution middle →
        execution.pool.shared.history.submissions <+:
          middle.pool.shared.history.submissions := by
    intro middle run
    induction run with
    | refl =>
        exact List.prefix_refl _
    | tail run next inductionHypothesis =>
        exact inductionHypothesis.trans next.pool_next.submissions_grow
  induction run with
  | refl =>
      exact .refl
  | @tail middle last run next inductionHypothesis =>
      have upTo := next.pool_next.submissions_grow
      rw [same] at upTo
      have still :
          middle.pool.shared.history.submissions =
            execution.pool.shared.history.submissions :=
        upTo.eq_of_length
          (Nat.le_antisymm upTo.length_le (grows run).length_le)
      exact (inductionHypothesis still).tail
        ⟨next, same.trans still.symm⟩

/-- The four threads of such a pool. -/
theorem forall_pair
    {property : Thread pairConfig.numThreads Unit → Prop}
    (worker : property (.worker 0))
    (worker' : property (.worker 1))
    (client : property (.client ()))
    (destroyer : property .destroyer)
    (thread : Thread pairConfig.numThreads Unit) :
    property thread := by
  cases thread with
  | worker index =>
      match index with
      | 0 =>
          exact worker
      | 1 =>
          exact worker'
  | client name =>
      exact client
  | destroyer =>
      exact destroyer

/--
A client of a pool with two workers submits two tasks and waits for them; then
the pool is destroyed.  The second task runs while the first is under way.
-/
theorem exists_joined_pair
    {Func Arg Local Memory : Type}
    (code : TaskCode Func Arg Local Memory)
    (func func' : Func)
    (arg arg' : Arg)
    {memory between between' memory' : Memory}
    {place later : Local}
    (begins :
      (code.program (func, ⟨0, arg⟩)).Course
        (code.enter func arg) memory place between)
    (runs :
      (code.program (func', ⟨1, arg'⟩)).Runs between between')
    (ends :
      (code.program (func, ⟨0, arg⟩)).Course
        place between' later memory')
    (returns : code.returns later) :
    ∃ returned joined : Execution pairConfig Unit Func Arg Local Memory,
      (executions pairConfig Unit code memory).Reachable returned ∧
        returned.pool.pc (.client ()) = .waiting .done [0, 1] .client ∧
        ((executions pairConfig Unit code memory).restrict
          Execution.NoSubmission).Run returned joined ∧
        joined.pool.pc .destroyer = .destroying (.joining 2) ∧
        joined.pool.queue.linked =
          [(func, ⟨0, arg⟩), (func', ⟨1, arg'⟩)] ∧
        joined.pool.shared.history.submissions =
          [(func, arg), (func', arg')] ∧
        joined.pool.shared.history.acknowledged = [0, 1] ∧
        joined.memory = memory' := by
  obtain ⟨last, course, returns'⟩ := runs
  have new :
      (executions pairConfig Unit code memory).Run
        ⟨State.initial pairConfig Unit Func Arg Local, memory⟩ _ :=
    .refl
  -- The client submits both tasks, and each worker takes one.
  have first :=
    run_submits new (State.not_freed rfl) () func arg rfl rfl rfl 0 rfl
      rfl
  have second :=
    run_submits first (State.not_freed rfl) () func' arg' rfl rfl rfl 1
      rfl rfl
  have called :=
    run_calls second (State.not_freed rfl) 0 rfl rfl rfl rfl rfl
  have both :=
    run_calls called (State.not_freed rfl) 1 rfl rfl rfl rfl rfl
  -- The second task runs in the middle of the first one.
  have begun :=
    run_computes both (State.not_freed rfl) 0 rfl begins
  have ran :=
    run_computes begun (State.not_freed rfl) 1 rfl course
  have counted :=
    run_finishes ran (State.not_freed rfl) 1 rfl returns' rfl
      (forall_pair rfl rfl rfl rfl)
  have ended :=
    run_computes counted (State.not_freed rfl) 0 rfl ends
  have completed :=
    run_finishes ended (State.not_freed rfl) 0 rfl returns rfl
      (forall_pair rfl rfl rfl rfl)
  have waited :=
    run_waits completed (State.not_freed rfl) () rfl rfl
      (Nat.lt_irrefl 2)
  have returned :
      (executions pairConfig Unit code memory).Reachable _ :=
    ⟨_, rfl, waited⟩
  -- The pool is destroyed, and the workers are joined.
  have closed :=
    run_shutsDown returned.stay rfl rfl rfl
  have left :=
    run_exits closed (by rintro ⟨⟩) 0 rfl rfl rfl
  have alone :=
    run_exits left (by rintro ⟨⟩) 1 rfl rfl rfl
  have joins :=
    run_joins alone 0 rfl rfl
  have joined :=
    run_joins joins 1 rfl rfl
  exact ⟨_, _, returned, rfl, Execution.rest_of_run joined rfl,
    rfl, rfl, rfl, rfl, rfl⟩

/-- Tasks that add their argument to a single cell. -/
def addingTasks : TaskCode Nat Nat (Option Nat) Nat where
  enter _ amount := some amount
  step place memory later memory' :=
    ∃ amount,
      place = some amount ∧ later = none ∧ memory' = memory + amount
  returns place := place = none

/-- It does not matter which of two numbers is added first. -/
theorem addingTasks_independent
    (task task' : Nat × Job Nat) :
    (addingTasks.program task).Independent
      (addingTasks.program task') := by
  constructor <;>
    · rintro _ _ _ _ memory _ _ _ _
        ⟨early, rfl, rfl, rfl⟩ ⟨late, rfl, rfl, rfl⟩
      exact ⟨_, ⟨late, rfl, rfl, rfl⟩, early, rfl, rfl,
        Nat.add_right_comm memory early late⟩

/-- Two tasks under way at once have run when the workers are joined. -/
theorem joined_serially_adding :
    ∃ execution : Execution pairConfig Unit Nat Nat (Option Nat) Nat,
      (executions pairConfig Unit addingTasks 5).Reachable execution ∧
        execution.pool.pc .destroyer = .destroying (.joining 2) ∧
        execution.pool.queue.linked = [(7, ⟨0, 8⟩), (7, ⟨1, 9⟩)] ∧
        execution.memory = 22 ∧
        Program.Serially
          [addingTasks.program (7, ⟨1, 9⟩),
            addingTasks.program (7, ⟨0, 8⟩)]
          5 execution.memory := by
  obtain ⟨returned, joined, reachable, _, rest, here, linked, _, _,
    memory⟩ :=
    exists_joined_pair addingTasks 7 7 8 9
      .refl ⟨none, .step .refl ⟨9, rfl, rfl, rfl⟩, rfl⟩
      (.step .refl ⟨8, rfl, rfl, rfl⟩) rfl
  have reachable := reachable.run (System.Run.of_restrict rest)
  have serially := joined_serially reachable here (Nat.lt_irrefl 2)
    (by
      rw [List.pairwise_map]
      exact List.pairwise_of_forall addingTasks_independent)
    [(7, ⟨1, 9⟩), (7, ⟨0, 8⟩)]
    (by
      rw [linked]
      exact .swap _ _ _)
  exact ⟨joined, reachable, here, linked, memory, serially⟩

/-- And when the wait has returned. -/
theorem forkJoin_serially_adding :
    ∃ returned later : Execution pairConfig Unit Nat Nat (Option Nat) Nat,
      (executions pairConfig Unit addingTasks 5).Reachable returned ∧
        returned.pool.pc (.client ()) = .waiting .done [0, 1] .client ∧
        ((executions pairConfig Unit addingTasks 5).restrict
          Execution.NoSubmission).Run returned later ∧
        later.programs addingTasks [1, 0] =
          [addingTasks.program (7, ⟨1, 9⟩),
            addingTasks.program (7, ⟨0, 8⟩)] ∧
        later.memory = 22 ∧
        Program.Serially (later.programs addingTasks [1, 0])
          5 later.memory := by
  obtain ⟨returned, joined, reachable, returns, rest, _, _, submissions,
    acknowledged, memory⟩ :=
    exists_joined_pair addingTasks 7 7 8 9
      .refl ⟨none, .step .refl ⟨9, rfl, rfl, rfl⟩, rfl⟩
      (.step .refl ⟨8, rfl, rfl, rfl⟩) rfl
  have programs :
      joined.programs addingTasks [1, 0] =
        [addingTasks.program (7, ⟨1, 9⟩),
          addingTasks.program (7, ⟨0, 8⟩)] := by
    simp [Execution.programs, History.task, submissions]
  obtain ⟨first, rfl, round⟩ := reachable
  have start :
      (system pairConfig Unit addingTasks.behaviour).Reachable
        (Execution.mk (State.initial pairConfig Unit Nat Nat _) 5).pool :=
    .start rfl
  have serially :=
    forkJoin_serially start .initial round returns rest [1, 0]
      (by
        rw [acknowledged]
        exact .swap _ _ _)
      (by
        rw [Execution.programs, List.pairwise_map]
        exact List.pairwise_of_forall addingTasks_independent)
  exact ⟨returned, joined, ⟨_, rfl, round⟩, returns, rest, programs,
    memory, serially⟩

end SThread.ThreadPool
