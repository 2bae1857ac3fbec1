import SThread.ThreadPool.ForkJoin

namespace SThread.ThreadPool

open SThread.Library
open SThread.Scheduler

/-!
# A pool with one worker

One worker calls the tasks in the order in which they were accepted, each after
the one before has returned.  The memory is then that of a serial execution in
that order, whether or not the tasks are independent.
-/

/-- The tasks a thread has removed and not called, first things first. -/
def Place.toCall
    {Func Arg Local : Type}
    (place : Place Func Arg Local) : List (Func × Job Arg) :=
  match place.pc with
  | .popping => place.call.held
  | .activating task => [task]
  | .entering task => [task]
  | _ => []

/-- The number of the task a thread is inside of. -/
def Pc.taskedId
    {Func Arg Local : Type}
    (pc : Pc Func Arg Local) : List Nat :=
  (pc.tasked.map fun inside => taskId inside.1).toList

/-- Tasks are called in the order of their removal, and they return in it. -/
structure InOrder
    {Func Arg Local : Type}
    (record : Record Func Arg)
    (place : Place Func Arg Local) : Prop where
  calling :
    record.removed = record.history.called ++ place.toCall
  returning :
    record.history.called.map taskId =
      record.history.finished ++ place.pc.taskedId

/-- No wake-up changes what a thread has still to call. -/
theorem inOrder_stable
    {Func Arg Local : Type}
    (record : Record Func Arg) :
    Place.Stable
      (fun place : Place Func Arg Local => InOrder record place) where
  notEmpty pc wake := by
    cases pc <;> exact propext ⟨fun known => ⟨known.1, known.2⟩,
      fun known => ⟨known.1, known.2⟩⟩
  notFull pc func arg node wake := by
    cases pc <;> exact propext ⟨fun known => ⟨known.1, known.2⟩,
      fun known => ⟨known.1, known.2⟩⟩
  waitCond call completed since caller wake :=
    propext ⟨fun known => ⟨known.1, known.2⟩,
      fun known => ⟨known.1, known.2⟩⟩

section Functions

variable
    {Owner Func Arg Local : Type}
    {behaviour : TaskBehaviour Func Arg Local}
    {thread : Owner}
    {numThreads : Nat}
    {shared shared' : Shared Owner Func Arg}
    {place place' : Place Func Arg Local}

/-- A step of the worker keeps the order. -/
theorem LocalStep.inOrder
    (step :
      LocalStep behaviour thread numThreads
        shared place shared' place')
    (alive :
      shared.poolState ≠ .terminated ∨ place.pc ≠ .popping)
    {linked removed : List (Func × Job Arg)}
    (before : InOrder (shared.record linked removed) place) :
    InOrder (shared'.record linked removed) place' := by
  obtain ⟨calling, returning⟩ := before
  cases step with
  | worker step =>
      cases step with
      | enter call task =>
          simp only [Shared.record, Place.toCall, Pc.taskedId,
            Pc.tasked, Option.map_none, Option.toList_none,
            List.append_nil] at calling returning
          constructor <;>
            simp [Shared.record, Place.toCall, Pc.taskedId, Pc.tasked,
              calling, returning]
      | finish call task here acts =>
          simp only [Shared.record, Place.toCall, Pc.taskedId,
            Pc.tasked, Option.map_some, Option.toList_some,
            List.append_nil] at calling returning
          constructor <;>
            simp [Shared.record, Place.toCall, Pc.taskedId, Pc.tasked,
              calling, returning, taskId]
      | terminated removal stops =>
          exact (alive.elim (· stops) (· rfl)).elim
      | _ =>
          exact ⟨calling, returning⟩
  | submit step =>
      cases step with
      | callNull call caller arg priority may
      | call call caller func arg priority may
      | failed call submission caller ret failed
      | acknowledged call submission caller =>
          cases caller <;> exact ⟨calling, returning⟩
      | _ =>
          exact ⟨calling, returning⟩
  | wait step =>
      cases step with
      | call call caller may
      | ret call since caller =>
          cases caller <;> exact ⟨calling, returning⟩
      | _ =>
          exact ⟨calling, returning⟩
  | destroy step =>
      cases step <;> exact ⟨calling, returning⟩

/-- Only workers call tasks and return from them. -/
theorem LocalStep.same_calls
    (step :
      LocalStep behaviour thread numThreads
        shared place shared' place')
    (notWorker : place.pc.role ≠ .worker) :
    shared'.history.called = shared.history.called ∧
      shared'.history.finished = shared.history.finished := by
  cases step with
  | worker step =>
      cases step <;> exact (notWorker rfl).elim
  | submit step =>
      cases step <;> exact ⟨rfl, rfl⟩
  | wait step =>
      cases step <;> exact ⟨rfl, rfl⟩
  | destroy step =>
      cases step <;> exact ⟨rfl, rfl⟩

end Functions

/-- Only workers remove tasks. -/
theorem QueueMove.removes_nothing
    {Func Arg Local : Type}
    {pc : Pc Func Arg Local}
    {call call' : Scheduler.Pc Func (Job Arg)}
    {linked removed : List (Func × Job Arg)}
    (move : QueueMove pc call call' linked removed)
    (notWorker : pc.role ≠ .worker) :
    removed = [] := by
  cases move with
  | pop call call' removed held =>
      exact (notWorker rfl).elim
  | _ =>
      rfl

/-- What is removed is still to be called. -/
theorem QueueMove.toCall
    {Func Arg Local : Type}
    {pc : Pc Func Arg Local}
    {call call' : Scheduler.Pc Func (Job Arg)}
    {linked removed : List (Func × Job Arg)}
    (move : QueueMove pc call call' linked removed) :
    (Place.mk pc call').toCall =
      (Place.mk pc call).toCall ++ removed := by
  cases move with
  | pop call call' removed held =>
      exact held
  | _ =>
      rfl

/-- What an order of calls depends on. -/
theorem InOrder.congr
    {Func Arg Local : Type}
    {record record' : Record Func Arg}
    {place : Place Func Arg Local}
    (inOrder : InOrder record place)
    (removed : record'.removed = record.removed)
    (called : record'.history.called = record.history.called)
    (finished : record'.history.finished = record.history.finished) :
    InOrder record' place := by
  obtain ⟨calling, returning⟩ := inOrder
  constructor
  · rw [removed, called, calling]
  · rw [called, finished, returning]

section

variable
    {config : Config}
    {Client Func Arg Local : Type}
    [DecidableEq Client]
    {behaviour : TaskBehaviour Func Arg Local}
    {state later : State config Client Func Arg Local}
    {thread : Thread config.numThreads Client}

/-- Nobody but a worker removes, calls or returns. -/
theorem Step.same_calls
    (step : Step behaviour state thread later)
    (core : Core state)
    (notWorker : thread.role ≠ .worker) :
    later.record.removed = state.record.removed ∧
      later.record.history.called = state.record.history.called ∧
      later.record.history.finished = state.record.history.finished := by
  have role := core.role thread
  rw [← role] at notWorker
  cases step with
  | queue step =>
      obtain ⟨channel, nodes, refines⟩ := core.refines
      obtain ⟨linked, removed, linkedIs, removedIs, effect⟩ :=
        step.effect refines
      have move := (core.agrees thread).queueMove step.inside effect
      have nothing := move.removes_nothing notWorker
      refine ⟨?_, rfl, rfl⟩
      simp only [State.record, Shared.record, removedIs, nothing,
        List.append_nil]
  | own step =>
      exact ⟨rfl, step.same_calls notWorker⟩
  | broadcast here
  | join next here inRange ended
  | destroyQueue heap here frees
  | destroyQueueFault here fails =>
      exact ⟨rfl, rfl, rfl⟩

/-- A step of a worker keeps its own order. -/
theorem Step.inOrder
    (step : Step behaviour state thread later)
    (core : Core state)
    (before : InOrder state.record (state.place thread)) :
    InOrder later.record (later.place thread) := by
  cases step with
  | queue step =>
      obtain ⟨channel, nodes, refines⟩ := core.refines
      obtain ⟨linked, removed, linkedIs, removedIs, effect⟩ :=
        step.effect refines
      have move := (core.agrees thread).queueMove step.inside effect
      obtain ⟨calling, returning⟩ := before
      refine ⟨?_, returning⟩
      simp only [State.record, Shared.record, State.place]
        at calling ⊢
      rw [removedIs, calling, move.toCall, List.append_assoc]
  | @own shared' place' step =>
      have alive :
          state.shared.poolState ≠ .terminated ∨
            (state.place thread).pc ≠ .popping := by
        by_cases popping : (state.place thread).pc = .popping
        · exact Or.inl (core.alive thread popping)
        · exact Or.inr popping
      have kept := step.inOrder alive before
      simpa [State.record, State.place, State.put,
        Scheduler.State.setPc] using kept
  | broadcast here =>
      simp only [State.place, here] at before
      simp only [State.place, broadcast_actor]
      exact ⟨before.calling, before.returning⟩
  | join next here inRange ended
  | destroyQueue heap here frees =>
      simp only [State.place, here] at before
      simp only [State.place, Function.update_self]
      exact ⟨before.calling, before.returning⟩
  | destroyQueueFault here fails =>
      obtain rfl := core.destroyer_of here
      rw [(core.destroyQueue here).1] at fails
      contradiction

omit [DecidableEq Client] in
/-- There is only one worker. -/
theorem only_worker
    (one : config.numThreads = 1)
    (index other : Fin config.numThreads) :
    index = other := by
  ext
  have first := index.isLt
  have second := other.isLt
  omega

/-- The only worker calls the tasks in the order of their removal. -/
theorem reachable_inOrder
    (one : config.numThreads = 1)
    (reachable :
      (system config Client behaviour).Reachable state)
    (index : Fin config.numThreads) :
    InOrder state.record (state.place (.worker index)) := by
  refine System.Reachable.invariant
    (fun state : State config Client Func Arg Local =>
      InOrder state.record (state.place (.worker index)))
    ?_ ?_ reachable
  · rintro first rfl
    exact ⟨rfl, rfl⟩
  · intro before after beforeReachable inOrder next
    have core := reachable_core beforeReachable
    cases next with
    | step actor allocated step =>
        by_cases worker : actor = .worker index
        · subst worker
          exact step.inOrder core inOrder
        · have notWorker : actor.role ≠ .worker := by
            intro role
            cases actor with
            | worker other =>
                exact worker (by rw [only_worker one other index])
            | _ =>
                exact Role.noConfusion role
          obtain ⟨removed, called, finished⟩ :=
            step.same_calls core notWorker
          have same := step.observe_other
            (inOrder_stable before.record) (Ne.symm worker)
          exact (same.mpr inOrder).congr removed called finished
    | queueSpurious actor allocated wakes =>
        have same := observe_queueSpurious
          (inOrder_stable before.record) wakes (.worker index)
        exact same.mpr inOrder
    | waitSpurious actor completed since caller allocated here =>
        have same := observe_waitSpurious
          (inOrder_stable before.record) here (.worker index)
        exact same.mpr inOrder

/-- The accepted tasks are called in order and one at a time. -/
structure OneByOne
    (state : State config Client Func Arg Local) : Prop where
  inOrder :
    state.shared.history.called <+: state.queue.linked
  returned :
    state.shared.history.finished <+:
      state.shared.history.called.map taskId
  oneAtATime :
    state.shared.history.called.length ≤
      state.shared.history.finished.length + 1

/-- The only worker calls the tasks in the order in which they were linked. -/
theorem called_first
    (one : config.numThreads = 1)
    (reachable :
      (system config Client behaviour).Reachable state) :
    state.shared.history.called <+: state.queue.linked := by
  have calling :
      state.queue.removed = state.shared.history.called ++ _ :=
    (reachable_inOrder one reachable ⟨0, config.numThreads_pos⟩).calling
  refine List.IsPrefix.trans ?_ (reachable_core reachable).removed_first
  rw [calling]
  exact List.prefix_append _ _

/--
With one worker the tasks are called in the order in which they were accepted,
each after the one before has returned.
-/
theorem oneWorker_oneByOne
    (one : config.numThreads = 1)
    (reachable :
      (system config Client behaviour).Reachable state) :
    OneByOne state := by
  have first : Fin config.numThreads := ⟨0, config.numThreads_pos⟩
  have returning :
      state.shared.history.called.map taskId =
        state.shared.history.finished ++ _ :=
    (reachable_inOrder one reachable first).returning
  refine ⟨called_first one reachable, ?_, ?_⟩
  · rw [returning]
    exact List.prefix_append _ _
  · have lengths := congrArg List.length returning
    rw [List.length_map, List.length_append] at lengths
    have single :
        ((state.place (.worker first)).pc.taskedId).length ≤ 1 := by
      unfold Pc.taskedId
      cases (state.place (.worker first)).pc.tasked <;> simp
    omega

variable
    {Memory : Type}
    {code : TaskCode Func Arg Local Memory}
    {memory : Memory}
    {execution : Execution config Client Func Arg Local Memory}

omit [DecidableEq Client] in
/-- Nothing comes after the last item of a list without repetitions. -/
theorem eq_nil_of_last
    {Item : Type*}
    {before after done : List Item}
    {item : Item}
    (nodup : (done ++ [item]).Nodup)
    (split : done ++ [item] = before ++ item :: after) :
    after = [] := by
  rcases List.eq_nil_or_concat after with nothing | ⟨middle, last, rfl⟩
  · exact nothing
  · have lasts : done ++ [item] = (before ++ item :: middle) ++ [last] := by
      rw [split, List.append_assoc, List.cons_append,
        List.concat_eq_append]
    have same : item = last :=
      List.singleton_inj.mp (List.append_inj' lasts rfl).2
    rw [split, ← same] at nodup
    have apart := (List.nodup_append'.mp nodup).2.1
    simp at apart

/-- The task the only worker is inside of was called last. -/
theorem called_last
    (one : config.numThreads = 1)
    (reachable :
      (system config Client behaviour).Reachable state)
    [Fintype Client]
    {task : Func × Job Arg}
    {place : Local}
    (inside : (state.pc thread).tasked = some (task, place))
    (member : task ∈ state.shared.history.called) :
    ∃ done,
      state.shared.history.called = done ++ [task] ∧
        done.map taskId = state.shared.history.finished := by
  obtain ⟨index, rfl⟩ :=
    (reachable_core reachable).worker_of_tasked inside
  have returning :
      state.shared.history.called.map taskId =
        state.shared.history.finished ++ (state.pc _).taskedId :=
    (reachable_inOrder one reachable index).returning
  simp only [Pc.taskedId, inside, Option.map_some, Option.toList_some]
    at returning
  obtain ⟨done, last, split, doneIs, lastIs⟩ :=
    List.map_eq_append_iff.mp returning
  obtain ⟨other, rfl, sameId⟩ := List.map_eq_singleton_iff.mp lastIs
  have nodup : (state.shared.history.called.map taskId).Nodup :=
    reachable_called_nodup reachable
  have same : other = task :=
    List.inj_on_of_nodup_map nodup
      (by rw [split]; simp) member sameId
  rw [same] at split
  exact ⟨done, split, doneIs⟩

/--
With one worker the memory is that of a serial execution in the order of
acceptance: the tasks that have returned, then the one that is running.
-/
theorem oneWorker_serially
    [Fintype Client]
    [Inhabited Local]
    (one : config.numThreads = 1)
    (reachable :
      (executions config Client code memory).Reachable execution) :
    ∃ between,
      Program.Serially
          ((execution.pool.queue.linked.take
            execution.pool.shared.history.finished.length).map
              code.program)
          memory between ∧
        ((∀ thread, (execution.pool.pc thread).tasked = none) →
          execution.memory = between) ∧
        ∀ thread task place,
          (execution.pool.pc thread).tasked = some (task, place) →
          execution.pool.queue.linked[
              execution.pool.shared.history.finished.length]? =
              some task ∧
            (code.program task).Course (code.program task).entry between
              place execution.memory := by
  have poolReachable := Execution.pool_reachable reachable
  obtain ⟨first, rfl, run⟩ := reachable
  have start :
      (system config Client code.behaviour).Reachable
        (State.initial config Client Func Arg Local) :=
    .start rfl
  have nobody :
      ∀ thread,
        ((State.initial config Client Func Arg Local).pc thread).tasked =
          none := by
    intro thread
    cases thread <;> rfl
  obtain ⟨new, places, explains⟩ :=
    (Explains.start start nobody memory).run start run (by
      intro middle new places middleReachable _ known thread task place
        before after inside called other isAfter
      have isNew := (known.here thread task place inside).1
      obtain ⟨done, last, _⟩ :=
        called_last one middleReachable inside
          (by rw [known.called]; exact List.mem_append_right _ isNew)
      have nodup : middle.pool.shared.history.called.Nodup :=
        .of_map taskId (reachable_called_nodup middleReachable)
      rw [last] at nodup called
      rw [eq_nil_of_last nodup called] at isAfter
      exact absurd isAfter List.not_mem_nil)
  have calledIs : execution.pool.shared.history.called = new :=
    explains.called
  have inOrder := called_first one poolReachable
  rw [calledIs] at inOrder
  by_cases outside :
      ∀ thread, (execution.pool.pc thread).tasked = none
  · -- All called tasks have returned.
    have serially := explains.serially poolReachable outside
    have known := reachable_inOrder one poolReachable
      ⟨0, config.numThreads_pos⟩
    have returning :
        execution.pool.shared.history.called.map taskId =
          execution.pool.shared.history.finished ++ _ :=
      known.returning
    have nobody := outside (.worker ⟨0, config.numThreads_pos⟩)
    rw [Pc.taskedId, State.place, nobody, calledIs] at returning
    have lengths := congrArg List.length returning
    simp only [List.length_map, Option.map_none, Option.toList_none,
      List.append_nil] at lengths
    rw [← lengths, ← List.prefix_iff_eq_take.mp inOrder]
    refine ⟨_, serially, fun _ => rfl, ?_⟩
    intro thread task place inside
    rw [outside thread] at inside
    contradiction
  · -- All but the last have returned, and the last is running.
    obtain ⟨thread, isInside⟩ := not_forall.mp outside
    obtain ⟨⟨task, place⟩, inside⟩ := Option.ne_none_iff_exists'.mp isInside
    obtain ⟨isNew, placeIs⟩ := explains.here thread task place inside
    obtain ⟨done, last, doneIs⟩ :=
      called_last one poolReachable inside (by rw [calledIs]; exact isNew)
    have lengths := congrArg List.length doneIs
    rw [List.length_map] at lengths
    rw [calledIs] at last
    subst last
    have partly := explains.partly
    rw [TaskCode.courses, List.map_append] at partly
    obtain ⟨between, before, after⟩ := partly.split
    have serially := before.serially (by
      intro item member
      obtain ⟨other, isDone, rfl⟩ := List.mem_map.mp member
      refine explains.returned other (List.mem_append_left _ isDone) ?_
      rw [← doneIs]
      exact List.mem_map_of_mem isDone)
    rw [List.map_map] at serially
    obtain ⟨more, linked⟩ := inOrder
    refine ⟨between, ?_, fun nobody => ?_, ?_⟩
    · rw [← lengths, ← linked, List.append_assoc, List.take_left]
      exact serially
    · exact absurd (nobody thread) isInside
    · intro other task' place' there
      have core := reachable_core poolReachable
      obtain ⟨index, rfl⟩ := core.worker_of_tasked inside
      obtain ⟨index', rfl⟩ := core.worker_of_tasked there
      obtain rfl := only_worker one index index'
      rw [inside] at there
      cases there
      refine ⟨?_, ?_⟩
      · rw [← linked, ← lengths]
        simp
      · cases after with
        | cons course rest =>
            cases rest with
            | nil memory =>
                rw [placeIs] at course
                exact course

end

/-- A worker alone has run one task and is about to return from the next one. -/
theorem exists_second_task :
    ∃ execution : Execution smallConfig Unit Nat Nat (Option Nat) Nat,
      (executions smallConfig Unit addingTasks 5).Reachable execution ∧
        execution.pool.queue.linked = [(7, ⟨0, 8⟩), (7, ⟨1, 9⟩)] ∧
        execution.pool.shared.history.called =
          [(7, ⟨0, 8⟩), (7, ⟨1, 9⟩)] ∧
        execution.pool.shared.history.finished = [0] ∧
        execution.pool.pc (.worker 0) = .running (7, ⟨1, 9⟩) none ∧
        execution.memory = 22 := by
  have start :
      (executions smallConfig Unit addingTasks 5).Reachable _ :=
    .start rfl
  have first :=
    run_submits start.stay (State.not_freed rfl) () 7 8 rfl rfl rfl 0 rfl
      rfl
  have called :=
    run_calls first (State.not_freed rfl) 0 rfl rfl rfl rfl rfl
  -- There is room for the second task while the first one is running.
  have second :=
    run_submits called (State.not_freed rfl) () 7 9 rfl rfl rfl 1 rfl rfl
  have added :=
    run_computes second (State.not_freed rfl) 0 rfl
      (.step .refl ⟨8, rfl, rfl, rfl⟩)
  have finished :=
    run_finishes added (State.not_freed rfl) 0 rfl rfl rfl (by
      rintro (index | name | _)
      · rw [Fin.fin_one_eq_zero index]
        rfl
      · rfl
      · rfl)
  have calledAgain :=
    run_calls finished (State.not_freed rfl) 0 rfl rfl rfl rfl rfl
  have addedAgain :=
    run_computes calledAgain (State.not_freed rfl) 0 rfl
      (.step .refl ⟨9, rfl, rfl, rfl⟩)
  exact ⟨_, start.run addedAgain, rfl, rfl, rfl, rfl, rfl⟩

/-- It has called both in the order of their submission. -/
theorem oneWorker_oneByOne_adding :
    ∃ state : State smallConfig Unit Nat Nat (Option Nat),
      (system smallConfig Unit addingTasks.behaviour).Reachable state ∧
        state.queue.linked = [(7, ⟨0, 8⟩), (7, ⟨1, 9⟩)] ∧
        state.shared.history.called = [(7, ⟨0, 8⟩), (7, ⟨1, 9⟩)] ∧
        state.shared.history.finished = [0] ∧
        OneByOne state := by
  obtain ⟨execution, reachable, linked, called, finished, _⟩ :=
    exists_second_task
  have reachable := Execution.pool_reachable reachable
  exact ⟨execution.pool, reachable, linked, called, finished,
    oneWorker_oneByOne rfl reachable⟩

/-- And the memory is what the first has left and the second made of that. -/
theorem oneWorker_serially_adding :
    ∃ (execution : Execution smallConfig Unit Nat Nat (Option Nat) Nat)
        (between : Nat),
      (executions smallConfig Unit addingTasks 5).Reachable execution ∧
        execution.pool.pc (.worker 0) = .running (7, ⟨1, 9⟩) none ∧
        execution.memory = 22 ∧
        Program.Serially [addingTasks.program (7, ⟨0, 8⟩)] 5 between ∧
        (addingTasks.program (7, ⟨1, 9⟩)).Course
          (some 9) between none execution.memory := by
  obtain ⟨execution, reachable, linked, _, finished, here, memory⟩ :=
    exists_second_task
  obtain ⟨between, serially, _, underWay⟩ :=
    oneWorker_serially rfl reachable
  rw [linked, finished] at serially
  have course :=
    (underWay (.worker 0) (7, ⟨1, 9⟩) none (by rw [here]; rfl)).2
  exact ⟨execution, between, reachable, here, memory, serially, course⟩

end SThread.ThreadPool
