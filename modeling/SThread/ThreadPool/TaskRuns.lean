import SThread.ThreadPool.TaskMemory

namespace SThread.ThreadPool

open SThread.Library
open SThread.Scheduler

/-!
# The memory as the work of the tasks

Whatever the workers do, the memory is what the called tasks have made of it
one after the other, in the order of their calls and each up to the place where
it is now, provided that a task moves before the tasks called after it.
-/

/-- The task whose code made a call, and where. -/
def Caller.tasked
    {Func Arg Local : Type} :
    Caller Func Arg Local → Option ((Func × Job Arg) × Local)
  | .client => none
  | .task item place => some (item, place)

/-- The task a thread is inside of, and where. -/
def Pc.tasked
    {Func Arg Local : Type} :
    Pc Func Arg Local → Option ((Func × Job Arg) × Local)
  | .running task place => some (task, place)
  | .submitting _ _ caller => caller.tasked
  | .waiting _ _ caller => caller.tasked
  | _ => none

/-- No wake-up moves a thread inside a task. -/
theorem tasked_stable
    {Func Arg Local : Type} :
    Place.Stable
      (fun place : Place Func Arg Local => place.pc.tasked) :=
  ⟨fun _ _ => rfl, fun _ _ _ _ _ => rfl, fun _ _ _ _ _ => rfl⟩

/-- A thread executes the task it is inside of. -/
theorem Place.executing_of_tasked
    {Func Arg Local : Type}
    {place : Place Func Arg Local}
    {task : Func × Job Arg}
    {here : Local}
    (inside : place.pc.tasked = some (task, here)) :
    place.executing = {taskId task} := by
  obtain ⟨pc, call⟩ := place
  cases pc with
  | running item there =>
      cases inside
      rfl
  | submitting stage submission caller
  | waiting stage since caller =>
      cases caller with
      | client =>
          simp [Pc.tasked, Caller.tasked] at inside
      | task item there =>
          cases inside
          rfl
  | _ =>
      simp [Pc.tasked] at inside

/-- And no other. -/
theorem Place.executing_of_not_tasked
    {Func Arg Local : Type}
    {place : Place Func Arg Local}
    (outside : place.pc.tasked = none) :
    place.executing = 0 := by
  obtain ⟨pc, call⟩ := place
  cases pc with
  | running item there =>
      simp [Pc.tasked] at outside
  | submitting stage submission caller
  | waiting stage since caller =>
      cases caller with
      | client =>
          rfl
      | task item there =>
          simp [Pc.tasked, Caller.tasked] at outside
  | _ =>
      rfl

/-- What a step of a thread does to the tasks. -/
inductive TaskMove
    {Func Arg Local Memory : Type}
    (code : TaskCode Func Arg Local Memory)
    (before after : History Func Arg) :
    Option ((Func × Job Arg) × Local) →
    Option ((Func × Job Arg) × Local) → Prop where
  | enter
      (task : Func × Job Arg)
      (called : after.called = before.called ++ [task])
      (finished : after.finished = before.finished) :
      TaskMove code before after
        none (some (task, code.enter task.1 task.2.arg))
  | finish
      (task : Func × Job Arg)
      (place : Local)
      (returns : code.returns place)
      (called : after.called = before.called)
      (finished : after.finished = before.finished ++ [taskId task]) :
      TaskMove code before after (some (task, place)) none
  | keep
      (inside : Option ((Func × Job Arg) × Local))
      (called : after.called = before.called)
      (finished : after.finished = before.finished) :
      TaskMove code before after inside inside

/-- Every step but those of the task functions is one of these. -/
theorem LocalStep.taskMove
    {Owner Func Arg Local Memory : Type}
    {code : TaskCode Func Arg Local Memory}
    {thread : Owner}
    {numThreads : Nat}
    {shared shared' : Shared Owner Func Arg}
    {place place' : Place Func Arg Local}
    (step :
      LocalStep code.control thread numThreads
        shared place shared' place') :
    TaskMove code shared.history shared'.history
      place.pc.tasked place'.pc.tasked := by
  cases step with
  | worker step =>
      cases step with
      | enter call task =>
          exact .enter task rfl rfl
      | compute call task place later acts =>
          cases acts.1
      | finish call task place acts =>
          exact .finish task place acts.2 rfl rfl
      | _ =>
          exact .keep _ rfl rfl
  | submit step =>
      cases step with
      | callNull call caller arg priority may
      | call call caller func arg priority may
      | failed call submission caller ret failed
      | acknowledged call submission caller =>
          cases caller <;> exact .keep _ rfl rfl
      | _ =>
          exact .keep _ rfl rfl
  | wait step =>
      cases step with
      | call call caller may
      | ret call since caller =>
          cases caller <;> exact .keep _ rfl rfl
      | _ =>
          exact .keep _ rfl rfl
  | destroy step =>
      cases step <;> exact .keep _ rfl rfl

section

variable
    {config : Config}
    {Client Func Arg Local Memory : Type}
    [DecidableEq Client]
    {code : TaskCode Func Arg Local Memory}
    {pool pool' : State config Client Func Arg Local}

/-- One thread makes the move, and all others stay in their tasks. -/
theorem Next.taskMove
    (next : Next code.control pool pool') :
    ∃ thread : Thread config.numThreads Client,
      TaskMove code pool.shared.history pool'.shared.history
          (pool.pc thread).tasked (pool'.pc thread).tasked ∧
        ∀ other,
          other ≠ thread →
          (pool'.pc other).tasked = (pool.pc other).tasked := by
  cases next with
  | step thread allocated step =>
      refine ⟨thread, ?_, ?_⟩
      · cases step with
        | queue step =>
            exact .keep _ rfl rfl
        | own step =>
            simpa [State.put, State.place] using step.taskMove
        | broadcast here =>
            simp only [here, broadcast_actor]
            exact .keep _ rfl rfl
        | join next here inRange ended
        | destroyQueue heap here frees =>
            simp only [here, Function.update_self]
            exact .keep _ rfl rfl
        | destroyQueueFault here fails =>
            exact .keep _ rfl rfl
      · intro other notActor
        exact step.observe_other tasked_stable notActor
  | queueSpurious thread allocated wakes =>
      exact ⟨thread, .keep _ rfl rfl, fun _ _ => rfl⟩
  | waitSpurious thread completed since caller allocated here =>
      have same := observe_waitSpurious tasked_stable here
      refine ⟨thread, ?_, fun other _ => same other⟩
      have here := same thread
      simp only [State.place] at here
      rw [here]
      exact .keep _ rfl rfl

variable
    [Fintype Client]
    {behaviour : TaskBehaviour Func Arg Local}

/-- A task some thread is inside of has not returned. -/
theorem reachable_unfinished
    (reachable :
      (system config Client behaviour).Reachable pool)
    {thread : Thread config.numThreads Client}
    {task : Func × Job Arg}
    {place : Local}
    (inside : (pool.pc thread).tasked = some (task, place)) :
    taskId task ∉ pool.shared.history.finished := by
  have nodup := reachable_called_nodup reachable
  have balanced := executingAccount_sound.balanced reachable
  simp only [executingAccount, State.record, Shared.record] at balanced
  rw [balanced] at nodup
  have executing :
      (pool.place thread).executing = {taskId task} :=
    Place.executing_of_tasked inside
  have member : taskId task ∈ tally Place.executing pool.place := by
    refine Multiset.mem_of_le
      (Finset.single_le_sum (fun _ _ => Multiset.zero_le _)
        (Finset.mem_univ thread)) ?_
    rw [executing]
    exact Multiset.mem_singleton_self _
  intro finished
  exact Multiset.disjoint_left.mp (Multiset.nodup_add.mp nodup).2.2
    finished member

/-- Two threads are never inside the same task. -/
theorem reachable_apart
    (reachable :
      (system config Client behaviour).Reachable pool)
    {thread other : Thread config.numThreads Client}
    {task task' : Func × Job Arg}
    {place place' : Local}
    (inside : (pool.pc thread).tasked = some (task, place))
    (inside' : (pool.pc other).tasked = some (task', place'))
    (different : other ≠ thread) :
    taskId task' ≠ taskId task := by
  classical
  have nodup := reachable_called_nodup reachable
  have balanced := executingAccount_sound.balanced reachable
  simp only [executingAccount, State.record, Shared.record] at balanced
  rw [balanced] at nodup
  have split :
      tally Place.executing pool.place =
        (pool.place thread).executing +
          ∑ party ∈ Finset.univ.erase thread,
            (pool.place party).executing :=
    (Finset.add_sum_erase _
      (fun party => (pool.place party).executing)
      (Finset.mem_univ thread)).symm
  have apart := (Multiset.nodup_add.mp nodup).2.1
  rw [split] at apart
  have member :
      taskId task' ∈
        ∑ party ∈ Finset.univ.erase thread,
          (pool.place party).executing := by
    refine Multiset.mem_of_le
      (Finset.single_le_sum
        (f := fun party => (pool.place party).executing)
        (fun _ _ => Multiset.zero_le _)
        (Finset.mem_erase.mpr ⟨different, Finset.mem_univ other⟩)) ?_
    rw [Place.executing_of_tasked inside']
    exact Multiset.mem_singleton_self _
  intro same
  refine Multiset.disjoint_left.mp
    (Multiset.nodup_add.mp apart).2.2 ?_ member
  rw [Place.executing_of_tasked inside, same]
  exact Multiset.mem_singleton_self _

end

/-- The called tasks as programs, each with the place it has got to. -/
def TaskCode.courses
    {Func Arg Local Memory : Type}
    (code : TaskCode Func Arg Local Memory)
    (places : Nat → Local)
    (tasks : List (Func × Job Arg)) :
    List (Program Local Memory × Local) :=
  tasks.map fun task => (code.program task, places (taskId task))

/-- The place of one task does not matter to the others. -/
theorem TaskCode.courses_update
    {Func Arg Local Memory : Type}
    {code : TaskCode Func Arg Local Memory}
    {places : Nat → Local}
    {tasks : List (Func × Job Arg)}
    {id : Nat}
    (absent : id ∉ tasks.map taskId)
    (place : Local) :
    code.courses (Function.update places id place) tasks =
      code.courses places tasks := by
  refine List.map_congr_left ?_
  intro task member
  have different : taskId task ≠ id := by
    rintro rfl
    exact absent (List.mem_map_of_mem member)
  rw [Function.update_of_ne different]

section

variable
    {config : Config}
    {Client Func Arg Local Memory : Type}

/--
The memory is what the tasks of one list have made of it, each up to its
place; the tasks called before them have returned.
-/
structure Explains
    (code : TaskCode Func Arg Local Memory)
    (old new : List (Func × Job Arg))
    (places : Nat → Local)
    (memory : Memory)
    (execution : Execution config Client Func Arg Local Memory) :
    Prop where
  called :
    execution.pool.shared.history.called = old ++ new
  oldFinished :
    ∀ task ∈ old,
      taskId task ∈ execution.pool.shared.history.finished
  here :
    ∀ thread task place,
      (execution.pool.pc thread).tasked = some (task, place) →
      task ∈ new ∧ places (taskId task) = place
  returned :
    ∀ task ∈ new,
      taskId task ∈ execution.pool.shared.history.finished →
      code.returns (places (taskId task))
  partly :
    Program.Partly (code.courses places new) memory execution.memory

variable
    [Fintype Client]
    [DecidableEq Client]
    {code : TaskCode Func Arg Local Memory}
    {old new : List (Func × Job Arg)}
    {places : Nat → Local}
    {memory : Memory}
    {execution later : Execution config Client Func Arg Local Memory}

/-- A task that is entered comes last. -/
theorem Explains.enter
    (explains : Explains code old new places memory execution)
    (reachable :
      (system config Client code.behaviour).Reachable later.pool)
    (thread : Thread config.numThreads Client)
    (task : Func × Job Arg)
    (called :
      later.pool.shared.history.called =
        execution.pool.shared.history.called ++ [task])
    (finished :
      later.pool.shared.history.finished =
        execution.pool.shared.history.finished)
    (inside :
      (later.pool.pc thread).tasked =
        some (task, code.enter task.1 task.2.arg))
    (others :
      ∀ other,
        other ≠ thread →
        (later.pool.pc other).tasked =
          (execution.pool.pc other).tasked)
    (same : later.memory = execution.memory) :
    Explains code old (new ++ [task])
      (Function.update places (taskId task)
        (code.enter task.1 task.2.arg))
      memory later := by
  have calledIs :
      later.pool.shared.history.called = old ++ (new ++ [task]) := by
    rw [called, explains.called, List.append_assoc]
  have absent : taskId task ∉ new.map taskId := by
    have nodup : (later.pool.shared.history.called.map taskId).Nodup :=
      reachable_called_nodup reachable
    rw [calledIs, List.map_append, List.map_append] at nodup
    have apart := List.disjoint_of_nodup_append
      (List.nodup_append'.mp nodup).2.1
    intro member
    exact apart member (by simp)
  have different :
      ∀ other ∈ new, taskId other ≠ taskId task := by
    intro other member equal
    rw [← equal] at absent
    exact absent (List.mem_map_of_mem member)
  refine ⟨calledIs, ?_, ?_, ?_, ?_⟩
  · rw [finished]
    exact explains.oldFinished
  · intro other item place there
    by_cases actor : other = thread
    · subst actor
      rw [inside] at there
      cases there
      exact ⟨by simp, Function.update_self _ _ _⟩
    · rw [others other actor] at there
      obtain ⟨member, placed⟩ := explains.here other item place there
      refine ⟨List.mem_append_left _ member, ?_⟩
      rw [Function.update_of_ne (different item member)]
      exact placed
  · intro item member done
    rcases List.mem_append.mp member with before | last
    · rw [finished] at done
      rw [Function.update_of_ne (different item before)]
      exact explains.returned item before done
    · obtain rfl := List.mem_singleton.mp last
      exact absurd done (reachable_unfinished reachable inside)
  · have more := explains.partly.enter (code.program task)
    rw [TaskCode.courses, List.map_append]
    change Program.Partly (code.courses _ new ++ _) _ _
    rw [TaskCode.courses_update absent, same]
    simpa [TaskCode.program] using more

/-- A step of the pool leaves the memory as it was explained. -/
theorem Explains.other
    (explains : Explains code old new places memory execution)
    (reachable :
      (system config Client code.behaviour).Reachable later.pool)
    (next : Next code.control execution.pool later.pool)
    (same : later.memory = execution.memory) :
    ∃ new' places', Explains code old new' places' memory later := by
  obtain ⟨thread, move, others⟩ := next.taskMove
  generalize before : (execution.pool.pc thread).tasked = inside at move
  generalize after : (later.pool.pc thread).tasked = inside' at move
  cases move with
  | enter task called finished =>
      exact ⟨_, _, explains.enter reachable thread task called finished
        after others same⟩
  | finish task place returns called finished =>
      refine ⟨new, places, called.trans explains.called, ?_, ?_, ?_, ?_⟩
      · intro item member
        rw [finished]
        exact List.mem_append_left _ (explains.oldFinished item member)
      · intro other item there isThere
        by_cases actor : other = thread
        · subst actor
          rw [after] at isThere
          contradiction
        · rw [others other actor] at isThere
          exact explains.here other item there isThere
      · intro item member done
        rw [finished] at done
        rcases List.mem_append.mp done with before' | last
        · exact explains.returned item member before'
        · rw [List.mem_singleton.mp last,
            (explains.here thread task place before).2]
          exact returns
      · rw [same]
        exact explains.partly
  | keep inside called finished =>
      refine ⟨new, places, called.trans explains.called, ?_, ?_, ?_, ?_⟩
      · rw [finished]
        exact explains.oldFinished
      · intro other item there isThere
        refine explains.here other item there ?_
        by_cases actor : other = thread
        · rw [actor] at isThere ⊢
          rw [before, ← after]
          exact isThere
        · rw [← others other actor]
          exact isThere
      · rw [finished]
        exact explains.returned
      · rw [same]
        exact explains.partly

/-- A task moves before those that were called after it. -/
def Execution.Orderly
    (code : TaskCode Func Arg Local Memory)
    (execution : Execution config Client Func Arg Local Memory) : Prop :=
  ∀ thread task place before after,
    (execution.pool.pc thread).tasked = some (task, place) →
    execution.pool.shared.history.called = before ++ task :: after →
    ∀ other ∈ after,
      (code.program task).MovesBefore (code.program other)

/-- A step of an orderly task is one more step where it stands in the list. -/
theorem Explains.compute
    (explains : Explains code old new places memory execution)
    (reachable :
      (system config Client code.behaviour).Reachable execution.pool)
    (orderly : execution.Orderly code)
    {thread : Thread config.numThreads Client}
    {task : Func × Job Arg}
    {place place' : Local}
    {memory' : Memory}
    (inside : execution.pool.pc thread = .running task place)
    (step : code.step place execution.memory place' memory') :
    Explains code old new
      (Function.update places (taskId task) place') memory {
        pool :=
          execution.pool.put thread execution.pool.shared
            ⟨.running task place', execution.pool.queue.pc thread⟩
        memory := memory' } := by
  have tasked :
      (execution.pool.pc thread).tasked = some (task, place) := by
    rw [inside]
    rfl
  obtain ⟨member, there⟩ := explains.here thread task place tasked
  obtain ⟨before, after, split⟩ := List.append_of_mem member
  have nodup : (execution.pool.shared.history.called.map taskId).Nodup :=
    reachable_called_nodup reachable
  rw [explains.called, split, List.map_append, List.map_append,
    List.map_cons] at nodup
  have nodupNew := (List.nodup_append'.mp nodup).2.1
  have absentBefore : taskId task ∉ before.map taskId := by
    intro isBefore
    exact (List.nodup_append'.mp nodupNew).2.2 isBefore
      List.mem_cons_self
  have absentAfter : taskId task ∉ after.map taskId :=
    (List.nodup_cons.mp (List.nodup_append'.mp nodupNew).2.1).1
  refine ⟨explains.called, explains.oldFinished, ?_, ?_, ?_⟩
  · intro other item elsewhere isThere
    by_cases actor : other = thread
    · subst actor
      simp only [State.put, Function.update_self, Pc.tasked,
        Option.some.injEq, Prod.mk.injEq] at isThere
      obtain ⟨rfl, rfl⟩ := isThere
      exact ⟨member, Function.update_self _ _ _⟩
    · simp only [State.put, Function.update_of_ne actor] at isThere
      have known := explains.here other item elsewhere isThere
      have different := reachable_apart reachable tasked isThere actor
      rw [Function.update_of_ne different]
      exact known
  · intro item isNew done
    have different : taskId item ≠ taskId task := by
      intro equal
      rw [equal] at done
      exact reachable_unfinished reachable tasked done
    rw [Function.update_of_ne different]
    exact explains.returned item isNew done
  · have partly := explains.partly
    have coursesIs :
        ∀ places' : Nat → Local,
          code.courses places' new =
            code.courses places' before ++
              (code.program task, places' (taskId task)) ::
                code.courses places' after := by
      intro places'
      rw [split]
      simp [TaskCode.courses]
    rw [coursesIs, there] at partly
    rw [coursesIs, TaskCode.courses_update absentBefore,
      TaskCode.courses_update absentAfter, Function.update_self]
    refine partly.step ?_ step
    intro item isAfter
    obtain ⟨other, isOther, rfl⟩ := List.mem_map.mp isAfter
    refine orderly thread task place (old ++ before) after tasked ?_
      other isOther
    rw [explains.called, split, List.append_assoc]

/-- Along a run whose tasks are orderly the memory stays explained. -/
theorem Explains.run
    (explains : Explains code old new places memory execution)
    (reachable :
      (system config Client code.behaviour).Reachable execution.pool)
    {initially : Memory}
    (run :
      (executions config Client code initially).Run execution later)
    (orderly :
      ∀ middle new' places',
        (system config Client code.behaviour).Reachable middle.pool →
        (executions config Client code initially).Run middle later →
        Explains code old new' places' memory middle →
        middle.Orderly code) :
    ∃ new' places', Explains code old new' places' memory later := by
  induction run with
  | refl =>
      exact ⟨new, places, explains⟩
  | @tail middle last run next inductionHypothesis =>
      have middleReachable :=
        reachable.run (Execution.pool_run run)
      have lastReachable := middleReachable.step next.pool_next
      obtain ⟨new', places', known⟩ :=
        inductionHypothesis
          (fun between new' places' there rest =>
            orderly between new' places' there (rest.tail next))
      have moves :=
        orderly middle new' places' middleReachable (.single next) known
      cases next with
      | compute thread task place later memory' allocated here step =>
          exact ⟨new', _,
            known.compute middleReachable moves here step⟩
      | other next =>
          exact known.other lastReachable next rfl

end

end SThread.ThreadPool
