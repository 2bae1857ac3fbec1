import Mathlib.SetTheory.Ordinal.Rank
import SThread.Scheduler.Progress
import SThread.ThreadPool.Waiters

namespace SThread.ThreadPool

open SThread.Library
open SThread.Scheduler

/-!
# Shutdown ends

Once the queue is shut down nobody sleeps in it and nothing is linked any more.
Every removal shortens the queue, and between two removals a worker goes
through its loop at most once, as long as the task functions terminate.  So the
length of the queue, together with the place of every worker in its loop, is a
measure that goes down with every step of a worker.
-/

section Tasks

variable
    {Func Arg Local : Type}
    (behaviour : TaskBehaviour Func Arg Local)

/-- `later` comes directly after `place` in the code of a task function. -/
def TaskBehaviour.Follows
    (later place : Local) : Prop :=
  behaviour.acts place (.compute later) ∨
    ∃ func arg priority ret,
      behaviour.acts place (.submit func arg priority) ∧
        later = behaviour.resume place ret

/--
A task function that has got to `place` never waits for the pool and ends after
finitely many steps, whatever its calls of `thread_pool_submit` return.
-/
inductive TaskBehaviour.Terminates : Local → Prop where
  | intro
      (place : Local)
      (goesOn : ∃ action, behaviour.acts place action)
      (neverWaits : ¬ behaviour.acts place .wait)
      (ends :
        ∀ later,
          behaviour.Follows later place →
          TaskBehaviour.Terminates later) :
      TaskBehaviour.Terminates place

variable
    {behaviour}

namespace TaskBehaviour.Terminates

/-- A terminating function has something to do. -/
theorem goesOn
    {place : Local}
    (terminates : behaviour.Terminates place) :
    ∃ action, behaviour.acts place action := by
  cases terminates with
  | intro place goesOn neverWaits ends =>
      exact goesOn

/-- A terminating function does not wait for the pool. -/
theorem neverWaits
    {place : Local}
    (terminates : behaviour.Terminates place) :
    ¬ behaviour.acts place .wait := by
  cases terminates with
  | intro place goesOn neverWaits ends =>
      exact neverWaits

/-- A terminating function terminates after every step. -/
theorem follows
    {later place : Local}
    (terminates : behaviour.Terminates place)
    (next : behaviour.Follows later place) :
    behaviour.Terminates later := by
  cases terminates with
  | intro place goesOn neverWaits ends =>
      exact ends later next

/-- No infinite sequence of steps starts at a terminating function. -/
theorem acc
    {place : Local}
    (terminates : behaviour.Terminates place) :
    Acc behaviour.Follows place := by
  induction terminates with
  | intro place goesOn neverWaits ends inductionHypothesis =>
      exact Acc.intro place inductionHypothesis

end TaskBehaviour.Terminates

open Classical in
/-- How far a task function is from its end. -/
noncomputable def TaskBehaviour.rank
    (behaviour : TaskBehaviour Func Arg Local)
    (place : Local) : Ordinal.{0} :=
  if terminates : Acc behaviour.Follows place then
    terminates.rank
  else
    0

/-- Every step of a terminating function brings it closer to its end. -/
theorem TaskBehaviour.Terminates.rank_lt
    {later place : Local}
    (terminates : behaviour.Terminates place)
    (next : behaviour.Follows later place) :
    behaviour.rank later < behaviour.rank place := by
  have before := terminates.acc
  have after := (terminates.follows next).acc
  rw [TaskBehaviour.rank, TaskBehaviour.rank, dif_pos before,
    dif_pos after]
  exact Acc.rank_lt_of_rel before next

end Tasks

/-- The task that called `thread_pool_submit` terminates. -/
def Caller.OnCourse
    {Func Arg Local : Type}
    (behaviour : TaskBehaviour Func Arg Local) :
    Caller Func Arg Local → Prop
  | .client => True
  | .task _ place =>
      behaviour.Terminates place ∧
        ∃ func arg priority,
          behaviour.acts place (.submit func arg priority)

/-- The task function a thread is in terminates. -/
def Pc.OnCourse
    {Func Arg Local : Type}
    (behaviour : TaskBehaviour Func Arg Local) :
    Pc Func Arg Local → Prop
  | .running _ place => behaviour.Terminates place
  | .submitting _ _ caller => caller.OnCourse behaviour
  | .waiting _ _ caller => caller = .client
  | _ => True

/-- How far the task behind a call is from its end. -/
noncomputable def Caller.rank
    {Func Arg Local : Type}
    (behaviour : TaskBehaviour Func Arg Local) :
    Caller Func Arg Local → Ordinal.{0}
  | .client => 0
  | .task _ place => behaviour.rank place

namespace Place

variable
    {Func Arg Local : Type}

/-- Where a worker is in its loop, counted backwards. -/
def phase
    (place : Place Func Arg Local) : Nat :=
  match place.pc with
  | .popping =>
      match place.call with
      | .popTake _ _ _ => 14
      | .popDone _ (some _) => 13
      | .popEnter _ => 3
      | .popWait _ => 2
      | _ => 1
  | .activating _ => 12
  | .entering _ => 11
  | .running _ _ => 10
  | .submitting _ _ _ => 10
  | .waiting _ _ _ => 10
  | .deactivating _ => 9
  | .completing _ => 8
  | .locking => 7
  | .broadcasting => 6
  | .unlocking => 5
  | .loop => 4
  | _ => 0

/-- Where a worker is in the code of its task. -/
noncomputable def taskRank
    (behaviour : TaskBehaviour Func Arg Local)
    (place : Place Func Arg Local) : Ordinal.{0} :=
  match place.pc with
  | .running _ here => behaviour.rank here
  | .submitting _ _ caller => caller.rank behaviour
  | _ => 0

/-- Where a worker is in `thread_pool_submit`, counted backwards. -/
def detail
    (place : Place Func Arg Local) : Nat :=
  match place.pc with
  | .running _ _ => 8
  | .submitting .checking _ _ => 7
  | .submitting .pushing _ _ =>
      match place.call with
      | .pushStart _ _ _ => 6
      | .pushEnter _ _ _ => 5
      | .pushWait _ _ _ _ => 4
      | .pushFree _ => 3
      | _ => 2
  | .submitting (.done _) _ _ => 1
  | _ => 0

/-- How far a worker is from its next removal. -/
noncomputable def rank
    (behaviour : TaskBehaviour Func Arg Local)
    (place : Place Func Arg Local) : Nat ×ₗ Ordinal.{0} ×ₗ Nat :=
  toLex (place.phase, toLex (place.taskRank behaviour, place.detail))

/-- A worker in a later part of its loop is closer to its next removal. -/
theorem rank_lt_of_phase
    (behaviour : TaskBehaviour Func Arg Local)
    {place place' : Place Func Arg Local}
    (closer : place'.phase < place.phase) :
    place'.rank behaviour < place.rank behaviour :=
  Prod.Lex.toLex_lt_toLex.mpr (Or.inl closer)

/-- So is a worker in the same part whose task is closer to its end. -/
theorem rank_lt_of_taskRank
    {behaviour : TaskBehaviour Func Arg Local}
    {place place' : Place Func Arg Local}
    (phase : place'.phase = place.phase)
    (closer : place'.taskRank behaviour < place.taskRank behaviour) :
    place'.rank behaviour < place.rank behaviour :=
  Prod.Lex.toLex_lt_toLex.mpr
    (Or.inr ⟨phase, Prod.Lex.toLex_lt_toLex.mpr (Or.inl closer)⟩)

/-- And one that has got further in `thread_pool_submit`. -/
theorem rank_lt_of_detail
    {behaviour : TaskBehaviour Func Arg Local}
    {place place' : Place Func Arg Local}
    (phase : place'.phase = place.phase)
    (taskRank : place'.taskRank behaviour = place.taskRank behaviour)
    (closer : place'.detail < place.detail) :
    place'.rank behaviour < place.rank behaviour :=
  Prod.Lex.toLex_lt_toLex.mpr
    (Or.inr ⟨phase,
      Prod.Lex.toLex_lt_toLex.mpr (Or.inr ⟨taskRank, closer⟩)⟩)

/-- Being woken brings no worker closer. -/
theorem rank_stable
    (behaviour : TaskBehaviour Func Arg Local) :
    Place.Stable (fun place => place.rank behaviour) where
  notEmpty := by
    intro pc wake
    cases pc with
    | submitting stage submission caller =>
        cases stage <;> rfl
    | _ =>
        rfl
  notFull := by
    intro pc func arg node wake
    cases pc with
    | submitting stage submission caller =>
        cases stage <;> rfl
    | _ =>
        rfl
  waitCond := by
    intro call completed since caller wake
    rfl

end Place

/-- Where a task goes on after `thread_pool_submit` follows where it called it. -/
theorem TaskBehaviour.follows_resume
    {Func Arg Local : Type}
    {behaviour : TaskBehaviour Func Arg Local}
    {place : Local}
    {func : Option Func}
    {arg : Arg}
    {priority : TaskPriority}
    (acts : behaviour.acts place (.submit func arg priority))
    (ret : Int) :
    behaviour.Follows (behaviour.resume place ret) place :=
  Or.inr ⟨func, arg, priority, ret, acts, rfl⟩

/-- A worker keeps to terminating code. -/
theorem LocalStep.onCourse
    {Owner Func Arg Local : Type}
    {behaviour : TaskBehaviour Func Arg Local}
    {thread : Owner}
    {numThreads : Nat}
    {shared shared' : Shared Owner Func Arg}
    {place place' : Place Func Arg Local}
    (terminates :
      ∀ func arg, behaviour.Terminates (behaviour.enter func arg))
    (step :
      LocalStep behaviour thread numThreads
        shared place shared' place')
    (before : place.pc.OnCourse behaviour) :
    place'.pc.OnCourse behaviour := by
  cases step with
  | worker step =>
      cases step with
      | enter call task =>
          exact terminates task.1 task.2.arg
      | compute call task place later acts =>
          exact before.follows (Or.inl acts)
      | _ =>
          trivial
  | submit step =>
      cases step with
      | callNull call caller arg priority may =>
          cases caller with
          | client =>
              trivial
          | task item place =>
              exact before.follows (TaskBehaviour.follows_resume may _)
      | call call caller func arg priority may =>
          cases caller with
          | client =>
              trivial
          | task item place =>
              exact ⟨before, _, _, _, may⟩
      | failed call submission caller ret failed
      | acknowledged call submission caller =>
          cases caller with
          | client =>
              trivial
          | task item place =>
              obtain ⟨terminating, func, arg, priority, acts⟩ := before
              exact terminating.follows
                (TaskBehaviour.follows_resume acts _)
      | _ =>
          exact before
  | wait step =>
      cases step with
      | call call caller may =>
          cases caller with
          | client =>
              rfl
          | task item place =>
              exact (before.neverWaits may).elim
      | ret call since caller =>
          cases caller with
          | client =>
              trivial
          | task item place =>
              contradiction
      | _ =>
          exact before
  | destroy step =>
      cases step <;> trivial

/-- Every step of a worker outside the queue brings it closer. -/
theorem LocalStep.rank_lt
    {Owner Func Arg Local : Type}
    {behaviour : TaskBehaviour Func Arg Local}
    {thread : Owner}
    {numThreads : Nat}
    {shared shared' : Shared Owner Func Arg}
    {place place' : Place Func Arg Local}
    (step :
      LocalStep behaviour thread numThreads
        shared place shared' place')
    (worker : place.pc.role = .worker)
    (onCourse : place.pc.OnCourse behaviour) :
    place'.rank behaviour < place.rank behaviour := by
  cases step with
  | worker step =>
      cases step with
      | compute call task place later acts =>
          exact Place.rank_lt_of_taskRank rfl
            (onCourse.rank_lt (Or.inl acts))
      | _ =>
          exact Place.rank_lt_of_phase behaviour (by
            simp [Place.phase, Request.start])
  | submit step =>
      cases step with
      | callNull call caller arg priority may =>
          cases caller with
          | client =>
              exact Role.noConfusion worker
          | task item place =>
              exact Place.rank_lt_of_taskRank rfl
                (onCourse.rank_lt (TaskBehaviour.follows_resume may _))
      | call call caller func arg priority may =>
          cases caller with
          | client =>
              exact Role.noConfusion worker
          | task item place =>
              exact Place.rank_lt_of_detail rfl rfl (by
                simp [Place.detail, Caller.place])
      | failed call submission caller ret failed
      | acknowledged call submission caller =>
          cases caller with
          | client =>
              exact Role.noConfusion worker
          | task item place =>
              obtain ⟨terminating, func, arg, priority, acts⟩ := onCourse
              exact Place.rank_lt_of_taskRank rfl
                (terminating.rank_lt
                  (TaskBehaviour.follows_resume acts _))
      | _ =>
          exact Place.rank_lt_of_detail rfl rfl (by
            simp [Place.detail, Request.start])
  | wait step =>
      cases step with
      | call call caller may =>
          cases caller with
          | client =>
              exact Role.noConfusion worker
          | task item place =>
              exact (onCourse.neverWaits may).elim
      | _ =>
          obtain rfl := onCourse
          exact Role.noConfusion worker
  | destroy step =>
      cases step <;> exact Role.noConfusion worker

/-- After shutdown every step in the queue removes a task or brings it closer. -/
theorem Place.Agrees.rank_lt
    {Func Arg Local : Type}
    (behaviour : TaskBehaviour Func Arg Local)
    {queue : TaskQueue}
    {index : Nat}
    {pc : Pc Func Arg Local}
    {call call' : Scheduler.Pc Func (Job Arg)}
    {linked removed : List (Func × Job Arg)}
    (agrees : (Place.mk pc call).Agrees)
    (worker : pc.role = .worker)
    (inside : call ≠ .idle ∧ call.returned = false)
    (closed : queue.shutdown = true)
    (effect : Effect queue index call call' linked removed) :
    removed ≠ [] ∨
      (Place.mk pc call').rank behaviour <
        (Place.mk pc call).rank behaviour := by
  cases pc with
  | popping =>
      cases effect with
      | popEmpty before kind pops empty isClosed =>
          refine Or.inr (Place.rank_lt_of_phase behaviour ?_)
          cases call <;>
            simp [Scheduler.Pc.popKind] at pops <;>
            simp [Place.phase]
      | popSleeps before pops empty opened =>
          rw [closed] at opened
          exact Bool.noConfusion opened
      | popUnlinked before kind node func arg pops nonempty =>
          exact Or.inl (List.cons_ne_nil _ _)
      | popTaken kind node removal =>
          exact Or.inr (Place.rank_lt_of_phase behaviour (by
            simp [Place.phase]))
      | alloc func arg priority node
      | allocFailed func arg priority
      | pushFreed node
      | shutdown =>
          simp [Place.Agrees, Scheduler.Pc.inPop] at agrees
      | pushRefused before func arg node pushes isClosed
      | pushSleeps before func arg node pushes opened bounded
      | pushLinked before func arg pushes opened =>
          rw [Scheduler.Pc.pushTask_of_inPop agrees] at pushes
          contradiction
  | submitting stage submission caller =>
      cases stage with
      | pushing =>
          cases effect with
          | alloc func arg priority node
          | allocFailed func arg priority
          | pushFreed node =>
              exact Or.inr (Place.rank_lt_of_detail rfl rfl (by
                simp [Place.detail]))
          | pushRefused before func arg node pushes isClosed =>
              refine Or.inr (Place.rank_lt_of_detail rfl rfl ?_)
              cases call <;>
                simp [Scheduler.Pc.pushTask] at pushes <;>
                simp [Place.detail]
          | pushSleeps before func arg node pushes opened bounded
          | pushLinked before func arg pushes opened =>
              rw [closed] at opened
              exact Bool.noConfusion opened
          | popTaken kind node removal
          | shutdown =>
              simp [Place.Agrees, Scheduler.Pc.InPush] at agrees
          | popEmpty before kind pops empty isClosed
          | popSleeps before pops empty opened
          | popUnlinked before kind node func arg pops nonempty =>
              rw [Scheduler.Pc.popKind_of_inPush agrees] at pops
              contradiction
      | _ =>
          exact (inside.1 agrees).elim
  | destroying stage =>
      exact Role.noConfusion worker
  | _ =>
      exact (inside.1 agrees).elim

section

variable
    {config : Config}
    {Client Func Arg Local : Type}
    [DecidableEq Client]
    {behaviour : TaskBehaviour Func Arg Local}
    {state later : State config Client Func Arg Local}

/-- The length of the queue, then how far each worker is from its next removal. -/
noncomputable def State.measure
    (behaviour : TaskBehaviour Func Arg Local)
    (state : State config Client Func Arg Local) :
    Nat ×ₗ (Fin config.numThreads → Nat ×ₗ Ordinal.{0} ×ₗ Nat) :=
  toLex (state.queue.queue.count,
    fun index => (state.place (.worker index)).rank behaviour)

omit [DecidableEq Client] in
/-- Every worker keeps to terminating code. -/
theorem onCourse_kept
    (terminates :
      ∀ func arg, behaviour.Terminates (behaviour.enter func arg)) :
    ThreadInvariant behaviour
      (fun (_ : Thread config.numThreads Client)
          (_ : Shared (Thread config.numThreads Client) Func Arg)
          (pc : Pc Func Arg Local) =>
        pc.OnCourse behaviour) where
  other := by
    intro thread other shared place shared' place' pc _ _ _ holds
    exact holds
  wake := by
    intro thread shared completed since caller wake holds
    exact holds
  broadcast := by
    intros
    trivial
  destroying := by
    intros
    trivial
  start := by
    intro thread
    cases thread <;> trivial
  own := by
    intro thread shared place shared' place' step before
    exact LocalStep.onCourse terminates step before

/-- After shutdown a step shortens the queue by what it removes. -/
theorem Step.removes
    {thread : Thread config.numThreads Client}
    (step : Step behaviour state thread later)
    (core : Core state)
    (closed : state.queue.queue.shutdown = true) :
    later.queue.queue.count + later.queue.removed.length =
      state.queue.queue.count + state.queue.removed.length := by
  have before := core.length_linked
  have after := (step.core core).length_linked
  rcases step.queue_next core with same | next
  · rw [same]
  · rw [(next.frozen closed).2] at after
    omega

/-- What has been removed stays removed. -/
theorem Step.removed_grows
    {thread : Thread config.numThreads Client}
    (step : Step behaviour state thread later)
    (core : Core state) :
    state.queue.removed.length ≤ later.queue.removed.length := by
  cases step with
  | queue step =>
      obtain ⟨channel, nodes, refines⟩ := core.refines
      obtain ⟨linked, removed, _, removedIs, _⟩ := step.effect refines
      rw [removedIs, List.length_append]
      exact Nat.le_add_right _ _
  | _ =>
      exact Nat.le_refl _

/-- After shutdown every step of a worker makes the measure smaller. -/
theorem Step.measure_lt
    {index : Fin config.numThreads}
    (step : Step behaviour state (.worker index) later)
    (core : Core state)
    (closed : state.queue.queue.shutdown = true)
    (onCourse :
      (state.pc (.worker index)).OnCourse behaviour) :
    later.measure behaviour < state.measure behaviour := by
  have agrees := core.agrees (.worker index)
  have role := core.role (.worker index)
  have removes := step.removes core closed
  refine Library.measure_lt index ?_ ?_
  · intro other different
    exact step.observe_other (Place.rank_stable behaviour)
      (fun same => different (Thread.worker.inj same))
  · cases step with
    | queue step =>
        obtain ⟨channel, nodes, refines⟩ := core.refines
        obtain ⟨linked, removed, _, removedIs, effect⟩ :=
          step.effect refines
        simp only [removedIs, List.length_append] at removes
        rcases agrees.rank_lt behaviour role step.inside
          closed effect with some | closer
        · have positive := List.length_pos_iff.mpr some
          exact Or.inl (by simp only; omega)
        · by_cases none : removed = []
          · rw [none, List.length_nil] at removes
            exact Or.inr ⟨by simp only; omega, closer⟩
          · have positive := List.length_pos_iff.mpr none
            exact Or.inl (by simp only; omega)
    | own step =>
        refine Or.inr ⟨rfl, ?_⟩
        have closer := step.rank_lt role onCourse
        simpa [State.place, State.put] using closer
    | broadcast here =>
        refine Or.inr ⟨rfl, Place.rank_lt_of_phase behaviour ?_⟩
        simp [State.place, broadcast_actor, here, Place.phase]
    | join next here inRange ended
    | destroyQueue heap here frees =>
        rw [here] at role
        exact Role.noConfusion role
    | destroyQueueFault here fails =>
        rw [here] at role
        exact Role.noConfusion role

omit [DecidableEq Client] in
/-- The measure sees the length of the queue and the ranks of the workers only. -/
theorem measure_mono
    (ranks :
      ∀ index,
        (later.place (.worker index)).rank behaviour =
          (state.place (.worker index)).rank behaviour)
    (count : later.queue.queue.count ≤ state.queue.queue.count) :
    later.measure behaviour ≤ state.measure behaviour := by
  have same := funext ranks
  rw [State.measure, State.measure, same, Prod.Lex.toLex_le_toLex]
  rcases count.lt_or_eq with less | equal
  · exact Or.inl less
  · exact Or.inr ⟨equal, le_refl _⟩

/-- After shutdown no step of any thread makes the measure larger. -/
theorem Next.measure_le
    (next : Next behaviour state later)
    (core : Core state)
    (closed : state.queue.queue.shutdown = true)
    (onCourse :
      ∀ thread, (state.pc thread).OnCourse behaviour) :
    later.measure behaviour ≤ state.measure behaviour := by
  cases next with
  | step thread allocated step =>
      have unchanged :
          (∀ index, Thread.worker index ≠ thread) →
            later.measure behaviour ≤ state.measure behaviour := by
        intro notWorker
        have removes := step.removes core closed
        have grows := step.removed_grows core
        refine measure_mono ?_ ?_
        · intro index
          exact step.observe_other (Place.rank_stable behaviour)
            (notWorker index)
        · omega
      cases thread with
      | worker index =>
          exact (step.measure_lt core closed (onCourse _)).le
      | client name =>
          exact unchanged nofun
      | destroyer =>
          exact unchanged nofun
  | queueSpurious thread allocated wakes =>
      refine measure_mono ?_ (Nat.le_refl _)
      intro index
      exact observe_queueSpurious (Place.rank_stable behaviour) wakes _
  | waitSpurious thread completed since caller allocated here =>
      refine measure_mono ?_ (Nat.le_refl _)
      intro index
      exact observe_waitSpurious (Place.rank_stable behaviour) here _

/-- After shutdown nobody is asleep in the queue. -/
theorem Core.awake
    (core : Core state)
    (closed : state.queue.queue.shutdown = true)
    (thread : Thread config.numThreads Client) :
    (state.queue.pc thread).asleepNotEmpty = false ∧
      (state.queue.pc thread).asleepNotFull = false := by
  obtain ⟨channel, nodes, refines⟩ := core.refines
  exact refines.awake closed thread

/-- Whoever is inside a call of the queue and not asleep can go on. -/
theorem Core.queue_enabled
    (core : Core state)
    (behaviour : TaskBehaviour Func Arg Local)
    {thread : Thread config.numThreads Client}
    (awake :
      (state.queue.pc thread).asleepNotEmpty = false ∧
        (state.queue.pc thread).asleepNotFull = false)
    (inside :
      state.queue.pc thread ≠ .idle ∧
        (state.queue.pc thread).returned = false) :
    ∃ later, Step behaviour state thread later := by
  obtain ⟨channel, nodes, refines⟩ := core.refines
  have noFault : state.queue.pc thread ≠ .fault := by
    intro fault
    have supported := refines.supported thread
    rw [fault] at supported
    exact supported
  obtain ⟨queue, step⟩ :=
    exists_step inside noFault awake
  exact ⟨_, .queue step⟩

/-- A worker that is popping and not asleep can go on. -/
theorem Core.popping_enabled
    (core : Core state)
    (behaviour : TaskBehaviour Func Arg Local)
    {thread : Thread config.numThreads Client}
    (awake :
      (state.queue.pc thread).asleepNotEmpty = false ∧
        (state.queue.pc thread).asleepNotFull = false)
    (here : state.pc thread = .popping) :
    ∃ later, Step behaviour state thread later := by
  have agrees := core.agrees thread
  simp only [State.place, here, Place.Agrees] at agrees
  cases call : state.queue.pc thread with
  | popDone kind result =>
      rw [call] at agrees
      cases kind with
      | tryPop =>
          exact Bool.noConfusion agrees
      | pop =>
          have place :
              state.place thread = ⟨.popping, .popDone .pop result⟩ := by
            rw [State.place, here, call]
          cases result with
          | none =>
              exact Step.of_place place (.worker .popFailed)
          | some removal =>
              by_cases stops : state.shared.poolState = .terminated
              · exact Step.of_place place
                  (.worker (.terminated removal stops))
              · exact Step.of_place place
                  (.worker (.taken removal stops))
  | popEnter kind
  | popWait wake
  | popTake kind node removal =>
      exact core.queue_enabled behaviour awake
        (by rw [call]; exact ⟨by rintro ⟨⟩, rfl⟩)
  | _ =>
      rw [call] at agrees
      exact Bool.noConfusion agrees

/-- A thread inside `thread_pool_submit` and not asleep can go on. -/
theorem Core.submitting_enabled
    (core : Core state)
    (behaviour : TaskBehaviour Func Arg Local)
    {thread : Thread config.numThreads Client}
    (awake :
      (state.queue.pc thread).asleepNotEmpty = false ∧
        (state.queue.pc thread).asleepNotFull = false)
    {stage : SubmitStage}
    {submission : Submission Func Arg}
    {caller : Caller Func Arg Local}
    (here : state.pc thread = .submitting stage submission caller) :
    ∃ later, Step behaviour state thread later := by
  have agrees := core.agrees thread
  have place :
      state.place thread =
        ⟨.submitting stage submission caller,
          state.queue.pc thread⟩ := by
    rw [State.place, here]
  rw [place] at agrees
  cases stage with
  | checking =>
      by_cases running : state.shared.poolState = .running
      · rw [show state.queue.pc thread = .idle from agrees] at place
        exact Step.of_place place
          (.submit (.checkPassed submission caller running))
      · exact Step.of_place place
          (.submit (.checkFailed _ submission caller running))
  | pushing =>
      cases call : state.queue.pc thread with
      | pushDone ret =>
          rw [call] at place
          by_cases linked : ret = 0
          · subst linked
            exact Step.of_place place
              (.submit (.counted submission caller))
          · exact Step.of_place place
              (.submit (.pushFailed submission caller ret linked))
      | pushStart func arg priority
      | pushEnter func arg node
      | pushWait func arg node wake
      | pushFree node =>
          exact core.queue_enabled behaviour awake
            (by rw [call]; exact ⟨by rintro ⟨⟩, rfl⟩)
      | _ =>
          rw [call] at agrees
          exact agrees.elim
  | done ret =>
      by_cases accepted : ret = 0
      · subst accepted
        exact Step.of_place place
          (.submit (.acknowledged _ submission caller))
      · exact Step.of_place place
          (.submit (.failed _ submission caller ret accepted))

/-- A terminating task has a step to take. -/
theorem running_enabled
    {thread : Thread config.numThreads Client}
    {task : Func × Job Arg}
    {spot : Local}
    (here : state.pc thread = .running task spot)
    (terminates : behaviour.Terminates spot) :
    ∃ later, Step behaviour state thread later := by
  have place :
      state.place thread =
        ⟨.running task spot, state.queue.pc thread⟩ := by
    rw [State.place, here]
  obtain ⟨action, acts⟩ := terminates.goesOn
  cases action with
  | compute next =>
      exact Step.of_place place
        (.worker (.compute _ task spot next acts))
  | submit func arg priority =>
      cases func with
      | none =>
          exact Step.of_place place
            (.submit (.callNull _ (.task task spot) arg priority acts))
      | some func =>
          exact Step.of_place place
            (.submit (.call _ (.task task spot) func arg priority acts))
  | wait =>
      exact (terminates.neverWaits acts).elim
  | finish =>
      exact Step.of_place place (.worker (.finish _ task spot acts))

/-- A worker that is not asleep can go on unless it waits for `wait_lock`. -/
theorem Core.worker_enabled
    (core : Core state)
    {index : Fin config.numThreads}
    (awake :
      (state.queue.pc (.worker index)).asleepNotEmpty = false ∧
        (state.queue.pc (.worker index)).asleepNotFull = false)
    (onCourse :
      (state.pc (.worker index)).OnCourse behaviour)
    (inLoop : state.pc (.worker index) ≠ .exited)
    (unlocked :
      state.pc (.worker index) = .locking →
      state.shared.waitLock = none) :
    ∃ later, Step behaviour state (.worker index) later := by
  have role := core.role (.worker index)
  have agrees := core.agrees (.worker index)
  have place :
      ∀ pc, state.pc (.worker index) = pc →
        state.place (.worker index) =
          ⟨pc, state.queue.pc (.worker index)⟩ := by
    intro pc here
    rw [State.place, here]
  cases here : state.pc (.worker index) with
  | idle
  | destroying stage =>
      rw [here] at role
      exact Role.noConfusion role
  | exited =>
      exact (inLoop here).elim
  | loop =>
      have idle : state.queue.pc (.worker index) = .idle := by
        simpa [Place.Agrees, State.place, here] using agrees
      exact Step.of_place ((place _ here).trans (by rw [idle]))
        (.worker .pop)
  | popping =>
      exact core.popping_enabled behaviour awake here
  | activating task =>
      exact Step.of_place (place _ here) (.worker (.activate _ task))
  | entering task =>
      exact Step.of_place (place _ here) (.worker (.enter _ task))
  | running task spot =>
      rw [here] at onCourse
      exact running_enabled here onCourse
  | deactivating task =>
      exact Step.of_place (place _ here) (.worker (.deactivate _ task))
  | completing task =>
      exact Step.of_place (place _ here) (.worker (.complete _ task))
  | locking =>
      exact Step.of_place (place _ here)
        (.worker (.lock _ (unlocked here)))
  | broadcasting =>
      exact Step.exists_of_announced (Or.inl here)
  | unlocking =>
      exact Step.exists_of_announced (Or.inr here)
  | submitting stage submission caller =>
      exact core.submitting_enabled behaviour awake here
  | waiting stage since caller =>
      rw [here] at onCourse role
      obtain rfl := onCourse
      exact Role.noConfusion role

/-- A client that holds `wait_lock` can go on. -/
theorem client_enabled
    {thread : Thread config.numThreads Client}
    (client : (state.pc thread).role = .client)
    (holds : (state.pc thread).holdsWait = true) :
    ∃ later, Step behaviour state thread later := by
  cases here : state.pc thread with
  | waiting stage since caller =>
      have place :
          state.place thread =
            ⟨.waiting stage since caller, state.queue.pc thread⟩ := by
        rw [State.place, here]
      cases stage with
      | testing completed submitted =>
          cases completed with
          | none =>
              exact Step.of_place place
                (.wait (.loadCompleted _ submitted since caller))
          | some completed =>
              cases submitted with
              | none =>
                  exact Step.of_place place
                    (.wait (.loadSubmitted _ _ since caller))
              | some submitted =>
                  by_cases behind : completed < submitted
                  · exact Step.of_place place
                      (.wait (.sleep _ _ _ since caller behind))
                  · exact Step.of_place place
                      (.wait (.pass _ _ _ since caller behind))
      | unlocking completed submitted =>
          exact Step.of_place place
            (.wait (.unlock _ completed submitted since caller))
      | _ =>
          simp [here, Pc.holdsWait] at holds
  | broadcasting
  | unlocking =>
      rw [here] at client
      exact Role.noConfusion client
  | _ =>
      simp [here, Pc.holdsWait] at holds

/-- After shutdown some worker can go on as long as one is in its loop. -/
theorem Core.some_worker_enabled
    (core : Core state)
    (closed : state.queue.queue.shutdown = true)
    (onCourse :
      ∀ thread, (state.pc thread).OnCourse behaviour)
    (locks :
      ∀ thread,
        (state.pc thread).holdsWait = true ↔
          state.shared.waitLock = some thread)
    (free :
      ∀ name, (state.pc (.client name)).holdsWait = false)
    {index : Fin config.numThreads}
    (inLoop : state.pc (.worker index) ≠ .exited) :
    ∃ other later, Step behaviour state (.worker other) later := by
  cases holder : state.shared.waitLock with
  | none =>
      exact ⟨index, core.worker_enabled (core.awake closed _)
        (onCourse _) inLoop (fun _ => holder)⟩
  | some thread =>
      have holds := (locks thread).mpr holder
      have role := core.role thread
      cases thread with
      | client name =>
          rw [free name] at holds
          exact Bool.noConfusion holds
      | destroyer =>
          obtain ⟨stage, here⟩ := core.stage
          rw [here] at holds
          exact Bool.noConfusion holds
      | worker other =>
          -- The holder is not waiting for the lock it holds.
          refine ⟨other, core.worker_enabled (core.awake closed _)
            (onCourse _) ?_ ?_⟩
          · intro exited
            rw [exited] at holds
            exact Bool.noConfusion holds
          · intro locking
            rw [locking] at holds
            exact Bool.noConfusion holds

/-- The shutdown flag stays set in every step of the system. -/
theorem Next.closed_stays
    (next : Next behaviour state later)
    (core : Core state)
    (closed : state.queue.queue.shutdown = true) :
    later.queue.queue.shutdown = true := by
  cases next with
  | step thread allocated step =>
      exact step.closed_stays core closed
  | queueSpurious thread allocated wakes
  | waitSpurious thread completed since caller allocated here =>
      exact closed

/-- After shutdown the queue never gets longer. -/
theorem Next.count_le
    (next : Next behaviour state later)
    (core : Core state)
    (closed : state.queue.queue.shutdown = true) :
    later.queue.queue.count ≤ state.queue.queue.count := by
  cases next with
  | step thread allocated step =>
      have removes := step.removes core closed
      have grows := step.removed_grows core
      omega
  | queueSpurious thread allocated wakes
  | waitSpurious thread completed since caller allocated here =>
      exact Nat.le_refl _

/--
What holds from shutdown on.  A critical section of `wait_lock` is open when a
client holds the lock; taken as one atomic step it is never open in a state.
-/
structure Ending
    (behaviour : TaskBehaviour Func Arg Local)
    (state : State config Client Func Arg Local) : Prop where
  awake :
    ∀ thread,
      (state.queue.pc thread).asleepNotEmpty = false ∧
        (state.queue.pc thread).asleepNotFull = false
  shrinks :
    ∀ later,
      Next behaviour state later →
      later.queue.queue.count ≤ state.queue.queue.count
  decreases :
    ∀ index later,
      Step behaviour state (.worker index) later →
      later.measure behaviour < state.measure behaviour
  steady :
    ∀ later,
      Next behaviour state later →
      later.measure behaviour ≤ state.measure behaviour
  progress :
    (∃ index, state.pc (.worker index) ≠ .exited) →
    (∀ name, (state.pc (.client name)).holdsWait = false) →
    ¬ state.Freed ∧
      ∃ index later, Step behaviour state (.worker index) later
  releases :
    ∀ name,
      (state.pc (.client name)).holdsWait = true →
      ∃ later, Step behaviour state (.client name) later
  ends :
    (∀ index later, ¬ Step behaviour state (.worker index) later) →
    (∀ name, (state.pc (.client name)).holdsWait = false) →
    (∀ index, state.pc (.worker index) = .exited) ∧
      state.queue.queue.count = 0
  joins :
    ∀ next (inRange : next < config.numThreads),
      state.pc .destroyer = .destroying (.joining next) →
      state.pc (.worker ⟨next, inRange⟩) = .exited →
      ∃ later, Step behaviour state .destroyer later

/-- Every reachable pool whose queue is shut down is on its way to the end. -/
theorem reachable_ending
    (terminates :
      ∀ func arg, behaviour.Terminates (behaviour.enter func arg))
    (reachable :
      (system config Client behaviour).Reachable state)
    (closed : state.queue.queue.shutdown = true) :
    Ending behaviour state := by
  have core := reachable_core reachable
  have onCourse := (onCourse_kept terminates).reachable reachable
  have locks := holdsWait_kept.reachable reachable
  have progress :
      (∃ index, state.pc (.worker index) ≠ .exited) →
      (∀ name, (state.pc (.client name)).holdsWait = false) →
      ¬ state.Freed ∧
        ∃ index later, Step behaviour state (.worker index) later := by
    intro inLoop free
    obtain ⟨index, inLoop⟩ := inLoop
    refine ⟨?_, core.some_worker_enabled closed onCourse locks free inLoop⟩
    intro freed
    exact inLoop ((core.phase _ freed).2.2 index)
  refine
    { awake := core.awake closed
      shrinks := fun later next => next.count_le core closed
      decreases := fun index later step =>
        step.measure_lt core closed (onCourse _)
      steady := fun later next => next.measure_le core closed onCourse
      progress := progress
      releases := fun name => client_enabled (core.role _)
      ends := ?_
      joins := fun next inRange here ended =>
        ⟨_, .join next here inRange ended⟩ }
  intro stuck free
  have exited : ∀ index, state.pc (.worker index) = .exited := by
    intro index
    by_contra inLoop
    obtain ⟨_, other, later, step⟩ := progress ⟨index, inLoop⟩ free
    exact stuck other later step
  exact ⟨exited, (core.drained_of_exited exited).2⟩

/--
From shutdown on every state is on its way to the end, and a run takes only
finitely many steps of workers.
-/
theorem shutdown_ends
    (terminates :
      ∀ func arg, behaviour.Terminates (behaviour.enter func arg))
    (reachable :
      (system config Client behaviour).Reachable state)
    (closed : state.queue.queue.shutdown = true) :
    (∀ later,
        (system config Client behaviour).Run state later →
        Ending behaviour later) ∧
      ∀ run : Nat → State config Client Func Arg Local,
        run 0 = state →
        (∀ time, Next behaviour (run time) (run (time + 1))) →
        ∃ settled,
          ∀ time,
            settled ≤ time →
            ∀ index,
              ¬ Step behaviour (run time) (.worker index)
                (run (time + 1)) := by
  constructor
  · intro later run
    refine reachable_ending terminates (reachable.run run) ?_
    exact reachable.stable
      (fun state => state.queue.queue.shutdown = true)
      (fun before after beforeReachable isClosed next =>
        Next.closed_stays next (reachable_core beforeReachable) isClosed)
      run closed
  · intro run first steps
    have during :
        ∀ time,
          (system config Client behaviour).Reachable (run time) ∧
            (run time).queue.queue.shutdown = true := by
      intro time
      induction time with
      | zero =>
          rw [first]
          exact ⟨reachable, closed⟩
      | succ time inductionHypothesis =>
          obtain ⟨sofar, isClosed⟩ := inductionHypothesis
          exact ⟨sofar.step (steps time),
            (steps time).closed_stays (reachable_core sofar) isClosed⟩
    have ending :
        ∀ time, Ending behaviour (run time) :=
      fun time =>
        reachable_ending terminates (during time).1 (during time).2
    obtain ⟨settled, quiet⟩ :=
      eventually_quiet (State.measure behaviour)
        (fun before after =>
          ∃ index, Step behaviour before (.worker index) after)
        run
        (fun time => (ending time).steady _ (steps time))
        (fun time busy => by
          obtain ⟨index, step⟩ := busy
          exact (ending time).decreases index _ step)
    refine ⟨settled, ?_⟩
    intro time late index step
    exact quiet time late ⟨index, step⟩

end

/-- Tasks that return at once terminate. -/
theorem idleTasks_terminates
    (func arg : Nat) :
    idleTasks.Terminates (idleTasks.enter func arg) := by
  refine .intro _ ⟨.finish, rfl⟩ (by rintro ⟨⟩) ?_
  rintro later (computes | ⟨_, _, _, _, submits, _⟩)
  · contradiction
  · contradiction

/-- A pool that is shut down with a task still in its queue. -/
theorem shutdown_ends_queued :
    ∃ state : State smallConfig Unit Nat Nat Unit,
      (system smallConfig Unit idleTasks).Reachable state ∧
        state.queue.queue.shutdown = true ∧
        state.queue.queue.count = 1 ∧
        Ending idleTasks state := by
  have start : (system smallConfig Unit idleTasks).Reachable _ :=
    .start rfl
  have called := start.step
    (.step (.client ()) (by decide)
      (.own (.submit (.call _ .client 7 8 .normal trivial))))
  have checked := called.step
    (.step (.client ()) (by decide)
      (.own (.submit (.checkPassed _ .client rfl))))
  have allocated := checked.step
    (.step (.client ()) (by decide)
      (.queue (.alloc 7 ⟨0, 8⟩ .normal 0 0 rfl rfl)))
  have linked := allocated.step
    (.step (.client ()) (by decide)
      (.queue (.pushLinked 7 ⟨0, 8⟩ 0 _ _ ∅ (.enter rfl)
        ⟨by simp, by decide⟩)))
  have begun := linked.step
    (.step .destroyer (by decide) (.own (.destroy (.begin rfl))))
  have closed := begun.step
    (.step .destroyer (by decide) (.queue (.shutdown rfl)))
  exact ⟨_, closed, rfl, rfl,
    (shutdown_ends idleTasks_terminates closed rfl).1 _ .refl⟩

end SThread.ThreadPool
