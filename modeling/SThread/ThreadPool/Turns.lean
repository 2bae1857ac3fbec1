import SThread.ThreadPool.TaskMemory

namespace SThread.ThreadPool

open SThread.Library
open SThread.Scheduler

/-!
# Turns of the threads of a pool

While nobody else moves, a client hands over a task, a worker takes one and runs
it, and a wait that finds everything completed returns.  Each of these turns is a
run of many steps, put down here with its first and its last state.
-/

namespace State

variable
    {config : Config}
    {Client Func Arg Local : Type}
    {pool : State config Client Func Arg Local}

/-- A pool whose destroyer has not begun is not freed. -/
theorem not_freed
    (start : pool.pc .destroyer = .destroying .start) :
    ¬ pool.Freed := by
  unfold Freed
  rw [start]
  simp

/-- The two program points of a thread are its place. -/
theorem place_eq
    {thread : Thread config.numThreads Client}
    {pc : Pc Func Arg Local}
    {call : Scheduler.Pc Func (Job Arg)}
    (here : pool.pc thread = pc)
    (inside : pool.queue.pc thread = call) :
    pool.place thread = ⟨pc, call⟩ := by
  rw [place, here, inside]

variable
    [DecidableEq Client]

/-- A thread is where it has been put. -/
theorem place_put
    (pool : State config Client Func Arg Local)
    (thread : Thread config.numThreads Client)
    (shared : Shared (Thread config.numThreads Client) Func Arg)
    (place : Place Func Arg Local) :
    (pool.put thread shared place).place thread = place := by
  simp [State.place, put]

/-- Only the last of several moves of one thread counts. -/
theorem put_put
    (pool : State config Client Func Arg Local)
    (thread : Thread config.numThreads Client)
    (first second : Shared (Thread config.numThreads Client) Func Arg)
    (before after : Place Func Arg Local) :
    (pool.put thread first before).put thread second after =
      pool.put thread second after := by
  simp [put, Scheduler.State.setPc]

end State

section

variable
    {config : Config}
    {Client Func Arg Local Memory : Type}
    [DecidableEq Client]
    {code : TaskCode Func Arg Local Memory}
    {initially memory memory' : Memory}
    {first : Execution config Client Func Arg Local Memory}
    {pool : State config Client Func Arg Local}
    {thread : Thread config.numThreads Client}

/-- Where nobody is inside the queue, nobody sleeps there. -/
theorem signals_outside
    {Owner Func Arg : Type}
    [DecidableEq Owner]
    {cond : CondVar (Scheduler.Pc Func Arg)}
    {calls : Owner → Scheduler.Pc Func Arg}
    (outside : calls = fun _ => .idle)
    (idle : cond.asleep .idle = false)
    (thread : Owner)
    {call : Scheduler.Pc Func Arg}
    (awake : cond.asleep call = false) :
    cond.Signals (Function.update calls thread call) ∅ := by
  refine CondVar.signals_empty ?_
  intro other
  rw [outside, Bool.not_eq_true]
  by_cases same : other = thread
  · rw [same, Function.update_self]
    exact awake
  · rw [Function.update_of_ne same]
    exact idle

/-- A run goes on with a step of one thread and the shared fields. -/
theorem run_own
    (run : (executions config Client code initially).Run
      first ⟨pool, memory⟩)
    (allocated : ¬ pool.Freed)
    (thread : Thread config.numThreads Client)
    {here place : Place Func Arg Local}
    {shared : Shared (Thread config.numThreads Client) Func Arg}
    (isHere : pool.place thread = here)
    (step :
      LocalStep code.control thread config.numThreads pool.shared here
        shared place) :
    (executions config Client code initially).Run
      first ⟨pool.put thread shared place, memory⟩ :=
  Relation.ReflTransGen.tail run
    (.other (.step thread allocated
      (.own (isHere ▸ step))))

/-- A run goes on with a step of the queue. -/
theorem run_queue
    (run : (executions config Client code initially).Run
      first ⟨pool, memory⟩)
    (allocated : ¬ pool.Freed)
    (thread : Thread config.numThreads Client)
    {queue : Scheduler.State _ Func (Job Arg)}
    (step : Scheduler.Step pool.queue thread queue) :
    (executions config Client code initially).Run
      first ⟨{ pool with queue := queue }, memory⟩ :=
  Relation.ReflTransGen.tail run
    (.other (.step thread allocated (.queue step)))

/-- A node is allocated and linked. -/
theorem run_pushes
    (run : (executions config Client code initially).Run
      first ⟨pool, memory⟩)
    (allocated : ¬ pool.Freed)
    {func : Func}
    {job : Job Arg}
    {heap : Heap Func (Job Arg)}
    {queue : TaskQueue}
    {calls : Thread config.numThreads Client → Scheduler.Pc Func (Job Arg)}
    (outside : calls = fun _ => .idle)
    (inside :
      pool.queue.pc =
        Function.update calls thread (.pushStart func job .normal))
    (node : Addr)
    (fresh : pool.queue.heap node = none)
    (links :
      pushEntry
          (Function.update pool.queue.heap node (some {
            func := func
            arg := job
            priority := .normal
            submitTime := 0
            next := none }))
          pool.queue.queue node =
        .linked heap queue) :
    (executions config Client code initially).Run first
      ⟨{ pool with
          queue := {
            pool.queue with
              heap := heap
              queue := queue
              pc := Function.update calls thread (.pushDone 0)
              linked := pool.queue.linked ++ [(func, job)] } },
        memory⟩ := by
  have allocates :=
    run_queue run allocated thread
      (.alloc func job .normal node 0 (by rw [inside, Function.update_self])
        fresh)
  rw [inside, Function.update_idem] at allocates
  have links :=
    run_queue allocates allocated thread
      (.pushLinked func job node heap queue ∅
        (by simpa using PushSection.enter links)
        (by simpa using signals_outside outside rfl thread rfl))
  simpa using links

/-- A client hands over a task. -/
theorem run_submits
    (run : (executions config Client code initially).Run
      first ⟨pool, memory⟩)
    (allocated : ¬ pool.Freed)
    (name : Client)
    (func : Func)
    (arg : Arg)
    (here : pool.pc (.client name) = .idle)
    (outside : pool.queue.pc = fun _ => .idle)
    (running : pool.shared.poolState = .running)
    (node : Addr)
    (fresh : pool.queue.heap node = none)
    {heap : Heap Func (Job Arg)}
    {queue : TaskQueue}
    (links :
      pushEntry
          (Function.update pool.queue.heap node (some {
            func := func
            arg := ⟨pool.shared.history.submissions.length, arg⟩
            priority := .normal
            submitTime := 0
            next := none }))
          pool.queue.queue node =
        .linked heap queue) :
    (executions config Client code initially).Run first
      ⟨{ pool with
          queue := {
            pool.queue with
              heap := heap
              queue := queue
              linked :=
                pool.queue.linked ++
                  [(func,
                    ⟨pool.shared.history.submissions.length, arg⟩)] }
          shared := {
            pool.shared with
              submittedTasks := pool.shared.submittedTasks + 1
              history := {
                pool.shared.history with
                  submissions :=
                    pool.shared.history.submissions ++ [(func, arg)]
                  counted :=
                    pool.shared.history.counted ++
                      [pool.shared.history.submissions.length]
                  acknowledged :=
                    pool.shared.history.acknowledged ++
                      [pool.shared.history.submissions.length] } } },
        memory⟩ := by
  have calls :=
    run_own run allocated (.client name) (State.place_eq here (by rw [outside]))
      (.submit (.call .idle .client func arg .normal trivial))
  have checks :=
    run_own calls (by simpa [State.Freed, State.put] using allocated) (.client name)
      (State.place_put _ _ _ _) (.submit (.checkPassed _ .client running))
  rw [State.put_put] at checks
  have pushes :=
    run_pushes checks (by simpa [State.Freed, State.put] using allocated) outside rfl node
      fresh links
  have counts :=
    run_own pushes (by simpa [State.Freed, State.put] using allocated) (.client name)
      (State.place_eq (Function.update_self _ _ _)
        (Function.update_self _ _ _))
      (.submit (.counted _ .client))
  have returns :=
    run_own counts (by simpa [State.Freed, State.put] using allocated) (.client name)
      (State.place_put _ _ _ _) (.submit (.acknowledged _ _ .client))
  rw [State.put_put] at returns
  simpa [State.put, Scheduler.State.setPc, Caller.resume, ← here, outside]
    using returns

/-- The first node is unlinked, read and freed. -/
theorem run_pops
    (run : (executions config Client code initially).Run
      first ⟨pool, memory⟩)
    (allocated : ¬ pool.Freed)
    {calls : Thread config.numThreads Client → Scheduler.Pc Func (Job Arg)}
    (outside : calls = fun _ => .idle)
    (inside :
      pool.queue.pc = Function.update calls thread (.popEnter .pop))
    {node : Addr}
    {queue : TaskQueue}
    (unlinks :
      popTest pool.queue.heap pool.queue.queue = .unlinked node queue)
    {record : TaskNode Func (Job Arg)}
    (stored : pool.queue.heap node = some record) :
    (executions config Client code initially).Run first
      ⟨{ pool with
          queue := {
            pool.queue with
              heap := Function.update pool.queue.heap node none
              queue := queue
              pc :=
                Function.update calls thread
                  (.popDone .pop
                    (some ⟨pool.queue.removed.length, record.func,
                      record.arg⟩))
              removed := pool.queue.removed ++ [(record.func, record.arg)] } },
        memory⟩ := by
  have unlinks :=
    run_queue run allocated thread
      (.popUnlinked .pop node record queue ∅
        (by simpa [inside] using PopSection.enter unlinks) stored
        (by
          rw [inside, Function.update_idem]
          split
          · exact signals_outside outside rfl thread rfl
          · rfl))
  rw [inside, Function.update_idem, CondVar.notify_empty] at unlinks
  have frees :=
    run_queue unlinks allocated thread
      (.popTaken .pop node _ record (Function.update_self _ _ _) stored)
  simpa using frees

/-- A worker takes the first task off the queue and calls it. -/
theorem run_calls
    (run : (executions config Client code initially).Run
      first ⟨pool, memory⟩)
    (allocated : ¬ pool.Freed)
    (index : Fin config.numThreads)
    (here : pool.pc (.worker index) = .loop)
    (outside : pool.queue.pc = fun _ => .idle)
    (running : pool.shared.poolState = .running)
    {node : Addr}
    {queue : TaskQueue}
    (unlinks :
      popTest pool.queue.heap pool.queue.queue = .unlinked node queue)
    {record : TaskNode Func (Job Arg)}
    (stored : pool.queue.heap node = some record) :
    (executions config Client code initially).Run first
      ⟨{ pool with
          queue := {
            pool.queue with
              heap := Function.update pool.queue.heap node none
              queue := queue
              removed := pool.queue.removed ++ [(record.func, record.arg)] }
          shared := {
            pool.shared with
              activeTasks := pool.shared.activeTasks + 1
              history := {
                pool.shared.history with
                  called :=
                    pool.shared.history.called ++
                      [(record.func, record.arg)] } }
          pc :=
            Function.update pool.pc (.worker index)
              (.running (record.func, record.arg)
                (code.enter record.func record.arg.arg)) },
        memory⟩ := by
  have pops :=
    run_own run allocated (.worker index) (State.place_eq here (by rw [outside]))
      (.worker .pop)
  have takes :=
    run_pops pops (by simpa [State.Freed, State.put] using allocated) outside rfl unlinks
      stored
  have goesOn :=
    run_own takes (by simpa [State.Freed, State.put] using allocated) (.worker index)
      (State.place_eq (Function.update_self _ _ _)
        (Function.update_self _ _ _))
      (.worker (.taken _ (by simp [State.put, running])))
  have activates :=
    run_own goesOn (by simpa [State.Freed, State.put] using allocated) (.worker index)
      (State.place_put _ _ _ _) (.worker (.activate _ _))
  have enters :=
    run_own activates (by simpa [State.Freed, State.put] using allocated) (.worker index)
      (State.place_put _ _ _ _) (.worker (.enter _ _))
  simpa [State.put, Scheduler.State.setPc, Removal.task, TaskCode.control,
    outside] using enters

/-- A worker takes its task along a course of it. -/
theorem run_computes
    (run : (executions config Client code initially).Run
      first ⟨pool, memory⟩)
    (allocated : ¬ pool.Freed)
    (index : Fin config.numThreads)
    {task : Func × Job Arg}
    {place later : Local}
    (here : pool.pc (.worker index) = .running task place)
    (course : (code.program task).Course place memory later memory') :
    (executions config Client code initially).Run first
      ⟨{ pool with
          pc :=
            Function.update pool.pc (.worker index)
              (.running task later) },
        memory'⟩ := by
  induction course with
  | refl =>
      rw [← here, Function.update_eq_self]
      exact run
  | @step middle later between memory' course step
      inductionHypothesis =>
      have computes :=
        Relation.ReflTransGen.tail inductionHypothesis
          (.compute (.worker index) task middle later memory'
            (by simpa [State.Freed] using allocated)
            (Function.update_self _ _ _) step)
      simp only [State.put, Scheduler.State.setPc, Function.update_idem,
        Function.update_eq_self] at computes
      exact computes

/-- A worker whose task returns counts it and goes back to its loop. -/
theorem run_finishes
    (run : (executions config Client code initially).Run
      first ⟨pool, memory⟩)
    (allocated : ¬ pool.Freed)
    (index : Fin config.numThreads)
    {task : Func × Job Arg}
    {place : Local}
    (here : pool.pc (.worker index) = .running task place)
    (returns : code.returns place)
    (free : pool.shared.waitLock = none)
    (awake : ∀ thread, (pool.pc thread).asleepWait = false) :
    (executions config Client code initially).Run first
      ⟨{ pool with
          shared := {
            pool.shared with
              activeTasks := pool.shared.activeTasks - 1
              completedTasks := pool.shared.completedTasks + 1
              history := {
                pool.shared.history with
                  finished := pool.shared.history.finished ++ [task.2.id]
                  completed :=
                    pool.shared.history.completed ++ [task.2.id] } }
          pc := Function.update pool.pc (.worker index) .loop },
        memory⟩ := by
  have finishes :=
    run_own run allocated (.worker index) (State.place_eq here rfl)
      (.worker (.finish _ task place ⟨rfl, returns⟩))
  have deactivates :=
    run_own finishes (by simpa [State.Freed, State.put] using allocated) (.worker index)
      (State.place_put _ _ _ _) (.worker (.deactivate _ _))
  have completes :=
    run_own deactivates (by simpa [State.Freed, State.put] using allocated) (.worker index)
      (State.place_put _ _ _ _) (.worker (.complete _ _))
  have locks :=
    run_own completes (by simpa [State.Freed, State.put] using allocated) (.worker index)
      (State.place_put _ _ _ _) (.worker (.lock _ free))
  have broadcasts :=
    Relation.ReflTransGen.tail locks
      (.other (.step (.worker index)
        (by simpa [State.Freed, State.put] using allocated)
        (.broadcast (Function.update_self _ _ _))))
  have nobody :
      (waitCond Func Arg Local).broadcast
          (Function.update pool.pc (.worker index) .unlocking) =
        Function.update pool.pc (.worker index) .unlocking := by
    funext thread
    refine CondVar.broadcast_of_awake ?_
    by_cases same : thread = .worker index
    · rw [same, Function.update_self]
      rfl
    · rw [Function.update_of_ne same]
      exact awake thread
  simp only [State.put, Scheduler.State.setPc, Function.update_idem,
    Function.update_eq_self, nobody] at broadcasts
  have unlocks :=
    run_own broadcasts (by simpa [State.Freed] using allocated) (.worker index)
      (State.place_eq (Function.update_self _ _ _) rfl)
      (.worker (.unlock _))
  simpa [State.put, Scheduler.State.setPc, ← free] using unlocks

/-- A client waits where everything counted has been completed. -/
theorem run_waits
    (run : (executions config Client code initially).Run
      first ⟨pool, memory⟩)
    (allocated : ¬ pool.Freed)
    (name : Client)
    (here : pool.pc (.client name) = .idle)
    (free : pool.shared.waitLock = none)
    (reached :
      ¬ pool.shared.completedTasks < pool.shared.submittedTasks) :
    (executions config Client code initially).Run first
      ⟨{ pool with
          pc :=
            Function.update pool.pc (.client name)
              (.waiting .done pool.shared.history.acknowledged .client) },
        memory⟩ := by
  have calls :=
    run_own run allocated (.client name) (State.place_eq here rfl)
      (.wait (.call _ .client trivial))
  have locks :=
    run_own calls (by simpa [State.Freed, State.put] using allocated) (.client name)
      (State.place_put _ _ _ _) (.wait (.lock _ _ .client free))
  have loads :=
    run_own locks (by simpa [State.Freed, State.put] using allocated) (.client name)
      (State.place_put _ _ _ _) (.wait (.loadCompleted _ _ _ .client))
  have both :=
    run_own loads (by simpa [State.Freed, State.put] using allocated) (.client name)
      (State.place_put _ _ _ _) (.wait (.loadSubmitted _ _ _ .client))
  have passes :=
    run_own both (by simpa [State.Freed, State.put] using allocated) (.client name)
      (State.place_put _ _ _ _) (.wait (.pass _ _ _ _ .client reached))
  have unlocks :=
    run_own passes (by simpa [State.Freed, State.put] using allocated) (.client name)
      (State.place_put _ _ _ _) (.wait (.unlock _ _ _ _ .client))
  simpa [State.put, Scheduler.State.setPc, ← free] using unlocks

/-- A worker that finds nothing in the queue goes to sleep. -/
theorem run_sleeps
    (run : (executions config Client code initially).Run
      first ⟨pool, memory⟩)
    (allocated : ¬ pool.Freed)
    (index : Fin config.numThreads)
    (here : pool.pc (.worker index) = .loop)
    (outside : pool.queue.pc (.worker index) = .idle)
    (nothing : popTest pool.queue.heap pool.queue.queue = .sleeps) :
    (executions config Client code initially).Run first
      ⟨{ pool with
          queue := pool.queue.setPc (.worker index) (.popWait .asleep)
          pc := Function.update pool.pc (.worker index) .popping },
        memory⟩ := by
  have pops :=
    run_own run allocated (.worker index) (State.place_eq here outside)
      (.worker .pop)
  have sleeps :=
    run_queue pops (by simpa [State.Freed, State.put] using allocated)
      (.worker index)
      (.popSleeps .pop (by
        simp only [State.put, Scheduler.State.setPc, Function.update_self]
        exact PopSection.enter nothing))
  simpa [State.put, Scheduler.State.setPc] using sleeps

/-- The destroyer shuts the queue down. -/
theorem run_shutsDown
    (run : (executions config Client code initially).Run
      first ⟨pool, memory⟩)
    (here : pool.pc .destroyer = .destroying .start)
    (outside : pool.queue.pc = fun _ => .idle)
    (running : pool.shared.poolState = .running) :
    (executions config Client code initially).Run first
      ⟨{ pool with
          queue := {
            pool.queue with
              queue := { pool.queue.queue with shutdown := true } }
          shared := { pool.shared with poolState := .shutdown }
          pc :=
            Function.update pool.pc .destroyer
              (.destroying (.joining 0)) },
        memory⟩ := by
  have begins :=
    run_own run (State.not_freed here) .destroyer
      (State.place_eq here (by rw [outside]))
      (.destroy (.begin running))
  have closes :=
    run_queue begins (by simp [State.Freed, State.put]) .destroyer
      (.shutdown (by simp [State.put, Request.start]))
  have nobody :
      (notFull Func (Job Arg)).broadcast
          ((notEmpty Func (Job Arg)).broadcast
            (Function.update pool.queue.pc .destroyer .shutdownDone)) =
        Function.update pool.queue.pc .destroyer .shutdownDone := by
    have awake :
        ∀ cond : CondVar (Scheduler.Pc Func (Job Arg)),
          cond.asleep .idle = false →
          cond.asleep .shutdownDone = false →
          cond.broadcast
              (Function.update pool.queue.pc .destroyer .shutdownDone) =
            Function.update pool.queue.pc .destroyer .shutdownDone := by
      intro cond idle done
      funext thread
      refine CondVar.broadcast_of_awake ?_
      by_cases same : thread = .destroyer
      · rw [same, Function.update_self]
        exact done
      · rw [Function.update_of_ne same, outside]
        exact idle
    rw [awake _ rfl rfl, awake _ rfl rfl]
  simp only [State.put, Scheduler.State.setPc, Function.update_idem, nobody] at closes
  have goesOn :=
    run_own closes (by simp [State.Freed]) .destroyer
      (State.place_eq (by simp) (by simp))
      (.destroy .shutDown)
  simpa [State.put, Scheduler.State.setPc, outside] using goesOn

/-- A worker that finds the queue shut down and empty leaves its loop. -/
theorem run_exits
    (run : (executions config Client code initially).Run
      first ⟨pool, memory⟩)
    (allocated : ¬ pool.Freed)
    (index : Fin config.numThreads)
    (here : pool.pc (.worker index) = .loop)
    (outside : pool.queue.pc = fun _ => .idle)
    (empty : popTest pool.queue.heap pool.queue.queue = .empty) :
    (executions config Client code initially).Run first
      ⟨{ pool with
          pc := Function.update pool.pc (.worker index) .exited },
        memory⟩ := by
  have pops :=
    run_own run allocated (.worker index)
      (State.place_eq here (by rw [outside])) (.worker .pop)
  have fails :=
    run_queue pops (by simpa [State.Freed, State.put] using allocated)
      (.worker index)
      (.popEmpty .pop (by
        simp only [State.put, Scheduler.State.setPc, Function.update_self]
        exact PopSection.enter empty))
  have exits :=
    run_own fails (by simpa [State.Freed, State.put] using allocated)
      (.worker index)
      (State.place_eq (Function.update_self _ _ _)
        (Function.update_self _ _ _))
      (.worker .popFailed)
  have still :
      Function.update pool.queue.pc (.worker index) .idle =
        pool.queue.pc := by
    simp [outside]
  simp only [State.put, Scheduler.State.setPc, Function.update_idem, still]
    at exits
  exact exits

/-- The destroyer joins a worker that has left its loop. -/
theorem run_joins
    (run : (executions config Client code initially).Run
      first ⟨pool, memory⟩)
    (index : Fin config.numThreads)
    (here : pool.pc .destroyer = .destroying (.joining index))
    (ended : pool.pc (.worker index) = .exited) :
    (executions config Client code initially).Run first
      ⟨{ pool with
          pc :=
            Function.update pool.pc .destroyer
              (.destroying (.joining (index + 1))) },
        memory⟩ :=
  Relation.ReflTransGen.tail run
    (.other (.step .destroyer (by simp [State.Freed, here])
      (.join index here index.isLt ended)))

end

end SThread.ThreadPool
