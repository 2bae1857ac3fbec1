import SThread.Library.CriticalSections
import SThread.ThreadPool.ForkJoin

namespace SThread.ThreadPool

open SThread.Library
open SThread.Scheduler

/-!
# Tasks that share data under a mutex

The tasks of a pool lock one mutex around all they do to the data they share.
Every run of the pool is then also a run in which each critical section is a
single step, and what is known about such tasks carries over.
-/

/-- The code of tasks that use their data under one mutex. -/
structure LockedCode (Func Arg Local Data : Type)
    extends Discipline Local Data where
  enter : Func → Arg → Local
  returns : Local → Prop
  enter_free : ∀ func arg, holds (enter func arg) = false
  returns_free : ∀ place, returns place → holds place = false

namespace LockedCode

variable
    {Func Arg Local Data : Type}

/-- The tasks as they run, others taking steps between theirs. -/
def code
    (locked : LockedCode Func Arg Local Data) :
    TaskCode Func Arg Local (Guarded Data) where
  enter := locked.enter
  step := locked.Step
  returns := locked.returns

/-- The tasks as if every critical section were one step. -/
def atomic
    (locked : LockedCode Func Arg Local Data) :
    TaskCode Func Arg Local Data where
  enter := locked.enter
  step := locked.AtomicStep
  returns := locked.returns

end LockedCode

section Relocate

variable
    {config : Config}
    {Client Func Arg Local : Type}
    [DecidableEq Client]
    {behaviour : TaskBehaviour Func Arg Local}
    {state later : State config Client Func Arg Local}
    {thread actor : Thread config.numThreads Client}
    {task : Func × Job Arg}
    {place other : Local}

/-- The same pool, but a thread is somewhere else in its task. -/
def State.relocate
    (state : State config Client Func Arg Local)
    (thread : Thread config.numThreads Client)
    (task : Func × Job Arg)
    (place : Local) : State config Client Func Arg Local where
  queue := state.queue
  shared := state.shared
  pc := Function.update state.pc thread (.running task place)

/-- Relocating once more forgets the place before. -/
theorem State.relocate_put
    (state : State config Client Func Arg Local)
    (thread : Thread config.numThreads Client)
    (task : Func × Job Arg)
    (place other : Local) :
    (state.put thread state.shared
        ⟨.running task place, state.queue.pc thread⟩).relocate
          thread task other =
      state.relocate thread task other := by
  simp [State.relocate, State.put, Scheduler.State.setPc]

/-- A thread is where it is relocated to. -/
theorem State.put_relocate
    (state : State config Client Func Arg Local)
    (thread : Thread config.numThreads Client)
    (task : Func × Job Arg)
    (place other : Local) :
    (state.relocate thread task other).put thread state.shared
        ⟨.running task place, state.queue.pc thread⟩ =
      state.put thread state.shared
        ⟨.running task place, state.queue.pc thread⟩ := by
  simp [State.relocate, State.put]

/-- The moves of two threads are independent of each other. -/
theorem State.relocate_put_of_ne
    (different : actor ≠ thread)
    (state : State config Client Func Arg Local)
    (task : Func × Job Arg)
    (place : Local)
    (shared : Shared (Thread config.numThreads Client) Func Arg)
    (moved : Place Func Arg Local) :
    (state.put actor shared moved).relocate thread task place =
      (state.relocate thread task place).put actor shared moved := by
  simp [State.relocate, State.put, Function.update_comm different]

/-- Relocating a thread to where it is changes nothing. -/
theorem State.relocate_self
    (here : state.pc thread = .running task place) :
    state.relocate thread task place = state := by
  rw [State.relocate, ← here, Function.update_eq_self]

/-- The others are where they were. -/
theorem State.pc_relocate
    (different : actor ≠ thread)
    (state : State config Client Func Arg Local)
    (task : Func × Job Arg)
    (place : Local) :
    (state.relocate thread task place).pc actor = state.pc actor :=
  Function.update_of_ne different _ _

/-- A pool in which somebody runs a task is not freed by relocating. -/
theorem State.not_freed_relocate
    (allocated : ¬ state.Freed)
    (thread : Thread config.numThreads Client)
    (task : Func × Job Arg)
    (place : Local) :
    ¬ (state.relocate thread task place).Freed := by
  unfold State.Freed
  by_cases isDestroyer : Thread.destroyer = thread
  · subst isDestroyer
    simp [State.relocate]
  · rw [State.pc_relocate isDestroyer]
    exact allocated

/-- A broadcast on `wait_cond` does not reach a thread inside its task. -/
theorem broadcast_relocate
    (different : actor ≠ thread)
    (pc : Thread config.numThreads Client → Pc Func Arg Local)
    (task : Func × Job Arg)
    (place : Local) :
    (waitCond Func Arg Local).broadcast
        (Function.update (Function.update pc thread (.running task place))
          actor .unlocking) =
      Function.update
        ((waitCond Func Arg Local).broadcast
          (Function.update pc actor .unlocking))
        thread (.running task place) := by
  rw [Function.update_comm (Ne.symm different)]
  funext party
  by_cases itself : party = thread
  · subst itself
    rw [Function.update_self]
    exact (CondVar.broadcast_of_awake (by rw [Function.update_self]; rfl)).trans
      (Function.update_self _ _ _)
  · rw [Function.update_of_ne itself]
    simp only [CondVar.broadcast, Function.update_of_ne itself]

/-- A thread that its task keeps busy takes no step of the pool. -/
theorem Step.not_busy
    (step : Step behaviour state thread later)
    (core : Core state)
    (here : state.pc thread = .running task place)
    (busy : ∀ action, ¬ behaviour.acts place action) :
    False := by
  cases step with
  | queue step =>
      have agrees := core.agrees thread
      simp only [State.place, here, Place.Agrees] at agrees
      exact step.inside.1 agrees
  | own step =>
      generalize placeIs : state.place thread = before at step
      have pcIs : before.pc = .running task place := by
        rw [← placeIs]
        exact here
      cases step with
      | worker step =>
          cases step with
          | compute call item place later acts =>
              cases pcIs
              exact busy _ acts
          | finish call item place acts =>
              cases pcIs
              exact busy _ acts
          | _ =>
              cases pcIs
      | submit step =>
          cases step with
          | callNull call caller arg priority may
          | call call caller func arg priority may =>
              cases caller with
              | client =>
                  cases pcIs
              | task item place =>
                  cases pcIs
                  exact busy _ may
          | _ =>
              cases pcIs
      | wait step =>
          cases step with
          | call call caller may =>
              cases caller with
              | client =>
                  cases pcIs
              | task item place =>
                  cases pcIs
                  exact busy _ may
          | _ =>
              cases pcIs
      | destroy step =>
          cases step <;> cases pcIs
  | broadcast isHere
  | join next isHere inRange ended
  | destroyQueue heap isHere frees
  | destroyQueueFault isHere fails =>
      rw [here] at isHere
      cases isHere

/-- The others do not see where in its task a busy thread is. -/
theorem Next.relocate
    (next : Next behaviour state later)
    (core : Core state)
    (here : state.pc thread = .running task place)
    (busy : ∀ action, ¬ behaviour.acts place action)
    (other : Local) :
    later.pc thread = .running task place ∧
      Next behaviour (state.relocate thread task other)
        (later.relocate thread task other) := by
  cases next with
  | step actor allocated step =>
      have different : actor ≠ thread := by
        rintro rfl
        exact step.not_busy core here busy
      have stays :
          ∀ pc,
            Function.update state.pc actor pc thread =
              .running task place := by
        intro pc
        rw [Function.update_of_ne different.symm]
        exact here
      have pcIs := State.pc_relocate different state task other
      have allocated' :=
        State.not_freed_relocate allocated thread task other
      cases step with
      | queue step =>
          exact ⟨here, .step actor allocated' (.queue step)⟩
      | own step =>
          refine ⟨stays _, .step actor allocated' ?_⟩
          rw [State.relocate_put_of_ne different]
          refine .own ?_
          rw [State.place, pcIs]
          exact step
      | broadcast isHere =>
          constructor
          · exact (CondVar.broadcast_of_awake
              (by rw [stays]; rfl)).trans (stays _)
          · refine .step actor allocated' ?_
            have step : Step behaviour _ actor _ :=
              .broadcast (pcIs.trans isHere)
            simp only [State.relocate, broadcast_relocate different]
              at step ⊢
            exact step
      | join next isHere inRange ended =>
          refine ⟨stays _, .step actor allocated' ?_⟩
          have joined : (.worker ⟨next, inRange⟩) ≠ thread := by
            rintro rfl
            rw [here] at ended
            cases ended
          have step : Step behaviour _ actor _ :=
            .join next (pcIs.trans isHere) inRange
              ((State.pc_relocate joined state task other).trans ended)
          simp only [State.relocate, Function.update_comm different.symm]
            at step ⊢
          exact step
      | destroyQueue heap isHere frees =>
          refine ⟨stays _, .step actor allocated' ?_⟩
          have step : Step behaviour _ actor _ :=
            .destroyQueue heap (pcIs.trans isHere) frees
          simp only [State.relocate, Function.update_comm different.symm]
            at step ⊢
          exact step
      | destroyQueueFault isHere fails =>
          exact ⟨here, .step actor allocated'
            (.destroyQueueFault (pcIs.trans isHere) fails)⟩
  | queueSpurious actor allocated wakes =>
      exact ⟨here, .queueSpurious actor
        (State.not_freed_relocate allocated thread task other) wakes⟩
  | waitSpurious actor completed since caller allocated isHere =>
      have different : actor ≠ thread := by
        rintro rfl
        rw [here] at isHere
        cases isHere
      have next : Next behaviour _ _ :=
        .waitSpurious actor completed since caller
          (State.not_freed_relocate allocated thread task other)
          ((State.pc_relocate different state task other).trans isHere)
      simp only [State.relocate, Function.update_comm different.symm]
        at next
      exact ⟨(Function.update_of_ne different.symm _ _).trans here, next⟩

end Relocate

section Condense

variable
    {config : Config}
    {Client Func Arg Local Data : Type}
    [DecidableEq Client]
    {locked : LockedCode Func Arg Local Data}

/--
A run and what it looks like without the critical section that is under way, if
there is one.
-/
inductive Condenses
    (locked : LockedCode Func Arg Local Data) :
    Execution config Client Func Arg Local (Guarded Data) →
    Execution config Client Func Arg Local Data → Prop where
  | free
      (pool : State config Client Func Arg Local)
      (data : Data) :
      Condenses locked ⟨pool, ⟨false, data⟩⟩ ⟨pool, data⟩
  | held
      {pool : State config Client Func Arg Local}
      {thread : Thread config.numThreads Client}
      {task : Func × Job Arg}
      {before first place : Local}
      {data data' : Data}
      (here : pool.pc thread = .running task place)
      (lock : locked.lock before first)
      (course : (locked.body first).Course first data place data') :
      Condenses locked ⟨pool, ⟨true, data'⟩⟩
        ⟨pool.relocate thread task before, data⟩

variable
    {data : Data}
    {execution later :
      Execution config Client Func Arg Local (Guarded Data)}
    {coarse : Execution config Client Func Arg Local Data}

/-- Between whole critical sections nobody is inside one. -/
theorem atomic_free
    (reachable :
      (executions config Client locked.atomic data).Reachable coarse)
    {thread : Thread config.numThreads Client}
    {task : Func × Job Arg}
    {place : Local}
    (inside : (coarse.pool.pc thread).tasked = some (task, place)) :
    locked.holds place = false := by
  refine reachable.invariant
    (fun coarse =>
      ∀ thread task place,
        (coarse.pool.pc thread).tasked = some (task, place) →
        locked.holds place = false)
    ?_ ?_ thread task place inside
  · rintro first rfl thread task place inside
    cases thread <;> cases inside
  · intro before after _ known next thread task place inside
    cases next with
    | compute actor item here there data' allocated isHere step =>
        by_cases itself : thread = actor
        · subst itself
          simp only [State.put, Function.update_self, Pc.tasked,
            Option.some.injEq, Prod.mk.injEq] at inside
          obtain ⟨rfl, rfl⟩ := inside
          exact Discipline.AtomicStep.free step
        · simp only [State.put, Function.update_of_ne itself] at inside
          exact known thread task place inside
    | other next =>
        obtain ⟨actor, move, others⟩ := next.taskMove
        by_cases itself : thread = actor
        · subst itself
          generalize was : (before.pool.pc thread).tasked = inside' at move
          rw [inside] at move
          cases move with
          | enter item called finished =>
              exact locked.enter_free _ _
          | keep item called finished =>
              exact known thread task place was
        · rw [others thread itself] at inside
          exact known thread task place inside

/-- Whoever is inside a critical section is the one that is left out. -/
theorem Condenses.holder
    {pool : State config Client Func Arg Local}
    {thread other : Thread config.numThreads Client}
    {task task' : Func × Job Arg}
    {before place : Local}
    {memory : Data}
    (reachable :
      (executions config Client locked.atomic data).Reachable
        ⟨pool.relocate thread task before, memory⟩)
    (inside : (pool.pc other).tasked = some (task', place))
    (holds : locked.holds place = true) :
    other = thread := by
  by_contra different
  have inside' :
      ((pool.relocate thread task before).pc other).tasked =
        some (task', place) := by
    rw [State.pc_relocate different]
    exact inside
  exact Bool.noConfusion
    (holds.symm.trans (atomic_free reachable inside'))

/-- Where in its critical section a thread is does not show. -/
theorem Condenses.put
    {pool : State config Client Func Arg Local}
    (thread : Thread config.numThreads Client)
    (task : Func × Job Arg)
    {before first place : Local}
    {data data' : Data}
    (lock : locked.lock before first)
    (course : (locked.body first).Course first data place data') :
    Condenses locked
      ⟨pool.put thread pool.shared
        ⟨.running task place, pool.queue.pc thread⟩, ⟨true, data'⟩⟩
      ⟨pool.relocate thread task before, data⟩ := by
  rw [← State.relocate_put pool thread task place before]
  exact .held (Function.update_self _ _ _) lock course

/-- One step of a run is one step or none when critical sections are left out. -/
theorem Condenses.next
    (condenses : Condenses locked execution coarse)
    (reachable :
      (executions config Client locked.atomic data).Reachable coarse)
    (core : Core execution.pool)
    (next : execution.Next locked.code later) :
    ∃ coarse',
      (executions config Client locked.atomic data).Reachable coarse' ∧
        Condenses locked later coarse' := by
  cases condenses with
  | free pool data' =>
      cases next with
      | compute thread task place place' memory' allocated here step =>
          have free :=
            atomic_free reachable (congrArg Pc.tasked here)
          cases step with
          | outside guarded step =>
              exact ⟨_, reachable.step
                (.compute thread task place place' data' allocated here
                  (.outside data' step)), .free _ _⟩
          | lock data' step =>
              have condensed :
                  Condenses locked
                    ⟨pool.put thread pool.shared
                      ⟨.running task place', pool.queue.pc thread⟩,
                      ⟨true, data'⟩⟩
                    ⟨pool.relocate thread task place, data'⟩ :=
                .put thread task step .refl
              rw [State.relocate_self here] at condensed
              exact ⟨_, reachable, condensed⟩
          | inside isLocked step =>
              rw [(locked.inside_keeps step).1] at free
              exact Bool.noConfusion free
          | unlock isLocked data' step =>
              rw [(locked.unlock_gives step).1] at free
              exact Bool.noConfusion free
      | other next =>
          exact ⟨_, reachable.step (.other next), .free _ _⟩
  | @held pool thread task before first place data' data'' here lock course =>
      have holds :=
        Discipline.holds_course course (locked.lock_takes lock).2
      cases next with
      | compute actor item there there' memory' allocated isHere step =>
          cases step with
          | outside guarded step =>
              have different : actor ≠ thread := by
                rintro rfl
                rw [isHere] at here
                cases here
                rw [(locked.outside_free step).1] at holds
                exact Bool.noConfusion holds
              have isThere :=
                (State.pc_relocate different pool task before).trans isHere
              refine ⟨_, reachable.step
                (.compute actor item there there' data'
                  (State.not_freed_relocate allocated thread task before)
                  isThere (.outside data' step)), ?_⟩
              rw [← State.relocate_put_of_ne different]
              exact .held
                ((Function.update_of_ne different.symm _ _).trans here)
                lock course
          | inside isLocked step =>
              obtain rfl :=
                Condenses.holder reachable (congrArg Pc.tasked isHere)
                  (locked.inside_keeps step).1
              rw [isHere] at here
              cases here
              exact ⟨_, reachable, .put actor task lock (course.step step)⟩
          | unlock isLocked data'' step =>
              obtain rfl :=
                Condenses.holder reachable (congrArg Pc.tasked isHere)
                  (locked.unlock_gives step).1
              rw [isHere] at here
              cases here
              have whole := reachable.step
                (.compute actor task before there' data''
                  (State.not_freed_relocate allocated actor task before)
                  (Function.update_self _ _ _) (.whole lock course step))
              refine ⟨_, whole, ?_⟩
              rw [← State.put_relocate pool actor task there' before]
              exact .free _ data''
      | other next =>
          have busy :
              ∀ action, ¬ locked.code.control.acts place action := by
            rintro action ⟨_, returns⟩
            rw [locked.returns_free place returns] at holds
            exact Bool.noConfusion holds
          obtain ⟨stays, next⟩ := next.relocate core here busy before
          exact ⟨_, reachable.step (.other next), .held stays lock course⟩

/-- Every run is one of whole critical sections and one that is under way. -/
theorem reachable_condenses
    (reachable :
      (executions config Client locked.code ⟨false, data⟩).Reachable
        execution) :
    ∃ coarse,
      (executions config Client locked.atomic data).Reachable coarse ∧
        Condenses locked execution coarse := by
  refine reachable.invariant
    (fun execution =>
      ∃ coarse,
        (executions config Client locked.atomic data).Reachable coarse ∧
          Condenses locked execution coarse)
    ?_ ?_
  · rintro first rfl
    exact ⟨_, .start rfl, .free _ data⟩
  · rintro before after beforeReachable ⟨coarse, reached, condenses⟩ next
    exact condenses.next reached
      (reachable_core (Execution.pool_reachable beforeReachable)) next

/-- Where the mutex is free all critical sections are whole. -/
theorem Condenses.eq_of_free
    (condenses : Condenses locked execution coarse)
    (free : execution.memory.locked = false) :
    coarse = ⟨execution.pool, execution.memory.data⟩ := by
  cases condenses with
  | free pool data =>
      rfl
  | held here lock course =>
      exact Bool.noConfusion free

/-- Who is inside a critical section holds the mutex, and nobody else does. -/
theorem Condenses.exclusive
    (condenses : Condenses locked execution coarse)
    (reachable :
      (executions config Client locked.atomic data).Reachable coarse)
    {thread : Thread config.numThreads Client}
    {task : Func × Job Arg}
    {place : Local}
    (inside : (execution.pool.pc thread).tasked = some (task, place))
    (holds : locked.holds place = true) :
    execution.memory.locked = true ∧
      ∀ other task' place',
        (execution.pool.pc other).tasked = some (task', place') →
        locked.holds place' = true →
        other = thread := by
  cases condenses with
  | free pool data =>
      rw [atomic_free reachable inside] at holds
      exact Bool.noConfusion holds
  | @held pool holder task' before first place' data data' here lock course =>
      refine ⟨rfl, ?_⟩
      intro other task' place' inside' holds'
      exact (Condenses.holder reachable inside' holds').trans
        (Condenses.holder reachable inside holds).symm

/-- When nobody is inside a task nobody holds the mutex. -/
theorem Condenses.free_of_outside
    (condenses : Condenses locked execution coarse)
    (outside :
      ∀ thread, (execution.pool.pc thread).tasked = none) :
    execution.memory.locked = false := by
  cases condenses with
  | free pool data =>
      rfl
  | @held pool thread task before first place data data' here lock course =>
      have nobody := outside thread
      rw [here] at nobody
      cases nobody

end Condense

/--
In a quiet pool the data is what the acknowledged tasks have made of it, with
each critical section as one step.
-/
theorem Quiet.locked_serially
    {config : Config}
    {Func Arg Local Data : Type}
    [Inhabited Local]
    {locked : LockedCode Func Arg Local Data}
    {data : Data}
    {execution : Execution config Unit Func Arg Local (Guarded Data)}
    (quiet : Quiet execution.pool)
    (reachable :
      (executions config Unit locked.code ⟨false, data⟩).Reachable
        execution)
    (independent :
      ∀ task task',
        (locked.atomic.program task).Independent
          (locked.atomic.program task')) :
    execution.memory.locked = false ∧
      Program.Serially
        ((execution.pool.shared.history.acknowledged.filterMap
          execution.pool.shared.history.task).map locked.atomic.program)
        data execution.memory.data := by
  obtain ⟨coarse, reached, condenses⟩ := reachable_condenses reachable
  have free := condenses.free_of_outside
    (quiet.not_tasked (Execution.pool_reachable reachable))
  obtain rfl := condenses.eq_of_free free
  have quiet' :
      Quiet (Execution.mk execution.pool execution.memory.data).pool :=
    quiet
  refine ⟨free, quiet'.serially_all reached ?_⟩
  rw [Execution.programs, List.pairwise_map]
  exact List.pairwise_of_forall independent

/--
Tasks that touch their data under a mutex only: at most one thread is inside a
critical section, and every run is one in which each critical section is a
single step, up to the one that is under way.
-/
theorem lockedTasks_atomic
    {config : Config}
    {Client Func Arg Local Data : Type}
    [DecidableEq Client]
    {locked : LockedCode Func Arg Local Data}
    {data : Data}
    {execution :
      Execution config Client Func Arg Local (Guarded Data)}
    (reachable :
      (executions config Client locked.code ⟨false, data⟩).Reachable
        execution) :
    (∀ thread task place,
        (execution.pool.pc thread).tasked = some (task, place) →
        locked.holds place = true →
        execution.memory.locked = true ∧
          ∀ other task' place',
            (execution.pool.pc other).tasked = some (task', place') →
            locked.holds place' = true →
            other = thread) ∧
      ∃ coarse,
        (executions config Client locked.atomic data).Reachable coarse ∧
          Condenses locked execution coarse ∧
          (execution.memory.locked = false →
            coarse = ⟨execution.pool, execution.memory.data⟩) := by
  obtain ⟨coarse, reached, condenses⟩ := reachable_condenses reachable
  refine ⟨?_, coarse, reached, condenses, condenses.eq_of_free⟩
  intro thread task place inside holds
  exact condenses.exclusive reached inside holds

/-- Where a task is that adds its argument under the mutex. -/
inductive AddingPlace where
  | start (amount : Nat)
  | holding (amount : Nat)
  | added
  | done
  deriving DecidableEq, Repr

/-- Such tasks. -/
def lockedAdding : LockedCode Nat Nat AddingPlace Nat where
  holds place := (place matches .holding _ | .added)
  outside _ _ := False
  lock place later :=
    ∃ amount, place = .start amount ∧ later = .holding amount
  inside place data later data' :=
    ∃ amount,
      place = .holding amount ∧ later = .added ∧ data' = data + amount
  unlock place later := place = .added ∧ later = .done
  outside_free := False.elim
  lock_takes := by
    rintro _ _ ⟨amount, rfl, rfl⟩
    exact ⟨rfl, rfl⟩
  inside_keeps := by
    rintro _ _ _ _ ⟨amount, rfl, rfl, rfl⟩
    exact ⟨rfl, rfl⟩
  unlock_gives := by
    rintro _ _ ⟨rfl, rfl⟩
    exact ⟨rfl, rfl⟩
  enter _ amount := .start amount
  returns place := place = .done
  enter_free _ _ := rfl
  returns_free := by
    rintro _ rfl
    rfl

/-- While one of two tasks holds the mutex its addition is yet to come. -/
theorem lockedTasks_atomic_holding :
    ∃ (execution :
          Execution pairConfig Unit Nat Nat AddingPlace (Guarded Nat))
        (coarse : Execution pairConfig Unit Nat Nat AddingPlace Nat),
      (executions pairConfig Unit lockedAdding.code
          ⟨false, 5⟩).Reachable execution ∧
        execution.pool.pc (.worker 0) = .running (7, ⟨0, 8⟩) .added ∧
        execution.pool.pc (.worker 1) = .running (7, ⟨1, 9⟩) (.start 9) ∧
        execution.memory = ⟨true, 13⟩ ∧
        (executions pairConfig Unit lockedAdding.atomic 5).Reachable
          coarse ∧
        Condenses lockedAdding execution coarse := by
  have start :
      (executions pairConfig Unit lockedAdding.code
        ⟨false, 5⟩).Reachable _ :=
    .start rfl
  have first :=
    run_submits start.stay (State.not_freed rfl) () 7 8 rfl rfl rfl 0 rfl
      rfl
  have second :=
    run_submits first (State.not_freed rfl) () 7 9 rfl rfl rfl 1 rfl rfl
  have called :=
    run_calls second (State.not_freed rfl) 0 rfl rfl rfl rfl rfl
  have both :=
    run_calls called (State.not_freed rfl) 1 rfl rfl rfl rfl rfl
  have added :=
    run_computes both (State.not_freed rfl) 0 rfl
      (.step (.step .refl (.lock 5 ⟨8, rfl, rfl⟩))
        (.inside true ⟨8, rfl, rfl, rfl⟩))
  have reachable := start.run added
  obtain ⟨_, coarse, reached, condenses, _⟩ := lockedTasks_atomic reachable
  exact ⟨_, coarse, reachable, rfl, rfl, rfl, reached, condenses⟩

end SThread.ThreadPool
