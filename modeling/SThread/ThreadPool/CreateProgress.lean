import SThread.ThreadPool.CreateInvariant

namespace SThread.ThreadPool

open SThread.Library
open SThread.Scheduler

/-!
# `thread_pool_create` returns

The thread in `thread_pool_create` can always go on, but for the time it waits in
`pthread_join` for a worker that is on its way out.  Each of its steps brings it
closer to its return, and so does each step of a worker after the shutdown.
-/

/-- How far `thread_pool_create` is from its return. -/
def CreateStage.rank
    (numThreads stopping : Nat) : CreateStage → Nat
  | .acquiring resource =>
      2 * numThreads + 20 + (6 - resource.unwinding.length)
  | .spawning next =>
      numThreads - next + (numThreads + 19)
  | .stopping _ =>
      stopping + 9
  | .unwinding rest =>
      rest.length + 1
  | .returned _ =>
      0

namespace Lifetime

variable
    {config : Config}
    {Client Func Arg Local : Type}

/-- How far the thread in `thread_pool_create` is from its return. -/
def rank
    (state : Lifetime config Client Func Arg Local) : Nat :=
  state.stage.rank config.numThreads
    ((state.pool.place .destroyer).destroyRank config.numThreads)

/-- After the shutdown the workers count as well. -/
noncomputable def measure
    (behaviour : TaskBehaviour Func Arg Local)
    (state : Lifetime config Client Func Arg Local) :
    Nat ×ₗ
      WithBot
        (Nat ×ₗ (Fin config.numThreads → Nat ×ₗ Ordinal.{0} ×ₗ Nat)) :=
  toLex (state.rank,
    if state.pool.queue.queue.shutdown = true then
      ↑(state.pool.measure behaviour)
    else
      ⊥)

/-- The call of `thread_pool_create` has returned. -/
def Returned
    (state : Lifetime config Client Func Arg Local) : Prop :=
  ∃ pool, state.stage = .returned pool

/-- The thread in `thread_pool_create` waits for a worker to leave its loop. -/
structure Awaits
    (state : Lifetime config Client Func Arg Local)
    (index : Fin config.numThreads) : Prop where
  stopping :
    ∃ started, state.stage = .stopping started ∧ index.val < started
  joining :
    state.pool.pc .destroyer = .destroying (.joining index)
  inLoop :
    state.pool.pc (.worker index) ≠ .exited

variable
    [DecidableEq Client]
    {behaviour : TaskBehaviour Func Arg Local}
    {state later : Lifetime config Client Func Arg Local}

/-- Every step of `thread_pool_create` brings it closer to its return. -/
theorem CreatorStep.rank_lt
    (step : CreatorStep behaviour state later)
    (sound : Sound behaviour state) :
    later.rank < state.rank := by
  have accounts := sound.accounts
  cases step with
  | acquire resource here =>
      rw [rank, rank, here]
      cases resource with
      | workersArray =>
          simp only [CreateStage.after, Resource.next, CreateStage.rank]
          omega
      | _ =>
          simp [CreateStage.after, Resource.next, CreateStage.rank,
            Resource.unwinding]
  | acquireFails resource here =>
      rw [rank, rank, here]
      cases resource <;>
        simp [CreateStage.rank, Resource.unwinding]
  | spawn next here inRange =>
      rw [rank, rank, here]
      simp only [CreateStage.rank]
      omega
  | spawnFails next here inRange =>
      rw [here] at accounts
      obtain ⟨_, _, start, _⟩ := accounts
      rw [rank, rank, here]
      simp only [CreateStage.rank, State.place, start, Place.destroyRank]
      omega
  | spawned next here all =>
      rw [rank, rank, here]
      simp [CreateStage.rank]
  | @stop started pool here goesOn step =>
      have closer := step.destroyRank_lt (reachable_core sound.pool)
      rw [rank, rank, Lifetime.step, here]
      simp only [CreateStage.rank]
      omega
  | stopped started here allJoined =>
      rw [here] at accounts
      obtain ⟨_, _, stage, atStage, _⟩ := accounts
      rw [destroyStage_eq atStage] at allJoined
      obtain rfl := Option.some.inj allJoined
      rw [rank, rank, here]
      simp only [CreateStage.rank, State.place, atStage,
        Place.destroyRank, spawnUnwinding, List.length]
      omega
  | release resource rest here
  | unwound here =>
      rw [rank, rank, here]
      simp [CreateStage.rank]

/-- In `thread_pool_create` there is always a step to take, or somebody to wait for. -/
theorem Sound.creator_enabled
    (sound : Sound behaviour state)
    (making : ¬ state.Returned)
    (free : ∀ index, ¬ state.Awaits index) :
    ∃ next, CreatorStep behaviour state next := by
  have accounts := sound.accounts
  cases here : state.stage with
  | acquiring resource =>
      exact ⟨_, .acquire resource here⟩
  | spawning next =>
      by_cases inRange : next < config.numThreads
      · exact ⟨_, .spawn next here inRange⟩
      · exact ⟨_, .spawned next here inRange⟩
  | stopping started =>
      rw [here] at accounts
      obtain ⟨_, bound, stage, atStage, stops, _⟩ := accounts
      by_cases allJoined : stage = .joining started
      · exact ⟨_, .stopped started here
          ((destroyStage_eq atStage).trans (congrArg some allJoined))⟩
      · have goesOn : destroyStage state.pool ≠ some (.joining started) := by
          rw [destroyStage_eq atStage]
          simpa using allJoined
        have allocated : stage ≠ .freed := by
          rintro rfl
          exact stops
        obtain ⟨pool, step⟩ :=
          (reachable_core sound.pool).destroyer_enabled behaviour
            atStage allocated (by
              rintro next inRange rfl
              by_contra inLoop
              have notLast : next ≠ started := by
                rintro rfl
                exact allJoined rfl
              exact free ⟨next, inRange⟩
                ⟨⟨started, here, Nat.lt_of_le_of_ne stops notLast⟩,
                  atStage, inLoop⟩)
        exact ⟨_, .stop started here goesOn step⟩
  | unwinding rest =>
      cases rest with
      | nil =>
          exact ⟨_, .unwound here⟩
      | cons resource rest =>
          exact ⟨_, .release resource rest here⟩
  | returned pool =>
      exact (making ⟨pool, here⟩).elim

/-- A worker somebody waits for is running, and the queue is shut down. -/
theorem Sound.awaited
    (sound : Sound behaviour state)
    {index : Fin config.numThreads}
    (awaits : state.Awaits index) :
    state.stage ≠ .returned true ∧
      state.resources.worker index = .running ∧
      state.pool.queue.queue.shutdown = true := by
  obtain ⟨started, here, isStarted⟩ := awaits.stopping
  have accounts := sound.accounts
  rw [here] at accounts
  obtain ⟨_, _, stage, atStage, _, matching⟩ := accounts
  obtain rfl := Pc.destroying.inj (awaits.joining.symm.trans atStage)
  have phase := (reachable_core sound.pool).phase _ atStage
  refine ⟨by simp [here], ?_, phase.2.1⟩
  rw [matching.worker]
  simp [DestroyStage.joinedSoFar, isStarted]

/-- A worker somebody waits for has a step to take. -/
theorem Sound.awaited_enabled
    (sound : Sound behaviour state)
    {index : Fin config.numThreads}
    (awaits : state.Awaits index) :
    ∃ next, Step behaviour state.pool (.worker index) next := by
  obtain ⟨making, _, closed⟩ := sound.awaited awaits
  exact (sound.vacant making).worker_enabled
    (reachable_core sound.pool) behaviour closed awaits.inLoop

omit [DecidableEq Client] in
/-- The measure after a step that leaves the creator and the flag alone. -/
theorem measure_eq
    {before : Lifetime config Client Func Arg Local}
    (sameRank : state.rank = before.rank)
    (sameFlag :
      state.pool.queue.queue.shutdown =
        before.pool.queue.queue.shutdown) :
    state.measure behaviour =
      toLex (before.rank,
        if before.pool.queue.queue.shutdown = true then
          ↑(state.pool.measure behaviour)
        else
          ⊥) := by
  rw [measure, sameRank, sameFlag]

/-- A started worker leaves the thread in `thread_pool_create` where it is. -/
theorem worker_rank
    {index : Fin config.numThreads}
    {pool : State config Client Func Arg Local}
    (step : Step behaviour state.pool (.worker index) pool) :
    (state.step pool).rank = state.rank := by
  have notActor :
      (.destroyer : Thread config.numThreads Client) ≠ .worker index :=
    nofun
  have same :=
    step.observe_other (Place.destroyRank_stable config.numThreads)
      notActor
  rw [rank, rank, Lifetime.step, same]

/-- After the shutdown the steps of started workers make the measure smaller. -/
theorem Sound.worker_measure_lt
    (sound : Sound behaviour state)
    (making : state.stage ≠ .returned true)
    {index : Fin config.numThreads}
    (closed : state.pool.queue.queue.shutdown = true)
    {pool : State config Client Func Arg Local}
    (step : Step behaviour state.pool (.worker index) pool) :
    (state.step pool).measure behaviour < state.measure behaviour := by
  have core := reachable_core sound.pool
  have vacant := sound.vacant making
  have closer := vacant.measure_lt core closed step
  rw [measure_eq (worker_rank step) (vacant.shutdown_eq core step),
    measure, if_pos closed, if_pos closed, Prod.Lex.toLex_lt_toLex]
  exact Or.inr ⟨rfl, WithBot.coe_lt_coe.mpr closer⟩

/-- Before it they do not change it. -/
theorem Sound.worker_measure_le
    (sound : Sound behaviour state)
    (making : state.stage ≠ .returned true)
    {index : Fin config.numThreads}
    {pool : State config Client Func Arg Local}
    (step : Step behaviour state.pool (.worker index) pool) :
    (state.step pool).measure behaviour ≤ state.measure behaviour := by
  by_cases closed : state.pool.queue.queue.shutdown = true
  · exact (sound.worker_measure_lt making closed step).le
  · have core := reachable_core sound.pool
    have sameFlag := (sound.vacant making).shutdown_eq core step
    rw [measure_eq (worker_rank step) sameFlag, measure,
      if_neg closed, if_neg closed]

/-- A spurious wake-up does not change the measure. -/
theorem spurious_measure
    {index : Fin config.numThreads}
    {call : Scheduler.Pc Func (Job Arg)}
    (wakes :
      (state.pool.queue.pc (.worker index)).spurious = some call) :
    measure behaviour {
      state with
        pool := {
          state.pool with
            queue := state.pool.queue.setPc (.worker index) call } } =
      state.measure behaviour := by
  have sameRank :=
    observe_queueSpurious
      (Place.destroyRank_stable config.numThreads) wakes .destroyer
  have ranks :=
    fun other =>
      observe_queueSpurious (Place.rank_stable behaviour) wakes
        (.worker other)
  have sameMeasure := funext ranks
  simp only [measure, rank, sameRank, State.measure, sameMeasure,
    Scheduler.State.setPc_queue]

/--
The steps of the threads a call of `thread_pool_create` depends on: `none` is its
own thread, the others are the workers it has started.
-/
def Moves
    (behaviour : TaskBehaviour Func Arg Local) :
    Option (Fin config.numThreads) →
    Lifetime config Client Func Arg Local →
    Lifetime config Client Func Arg Local → Prop
  | none, before, after =>
      CreatorStep behaviour before after
  | some index, before, after =>
      before.stage ≠ .returned true ∧
        before.resources.worker index = .running ∧
        ∃ pool,
          Step behaviour before.pool (.worker index) pool ∧
            after = before.step pool

/-- Who can bring `thread_pool_create` closer to its return. -/
def Helps
    (state : Lifetime config Client Func Arg Local) :
    Option (Fin config.numThreads) → Prop
  | none =>
      ¬ state.Returned ∧ ∀ index, ¬ state.Awaits index
  | some index =>
      state.Awaits index

omit [DecidableEq Client] in
/-- Short of the return there is always somebody who can help. -/
theorem exists_helps
    (making : ¬ state.Returned) :
    ∃ mover, state.Helps mover := by
  by_cases waits : ∃ index, state.Awaits index
  · obtain ⟨index, awaits⟩ := waits
    exact ⟨some index, awaits⟩
  · exact ⟨none, making, not_exists.mp waits⟩

/-- Who can help has a step to take. -/
theorem Sound.helps_enabled
    (sound : Sound behaviour state)
    {mover : Option (Fin config.numThreads)}
    (helps : state.Helps mover) :
    ∃ next, Moves behaviour mover state next := by
  cases mover with
  | none =>
      exact sound.creator_enabled helps.1 helps.2
  | some index =>
      obtain ⟨making, running, _⟩ := sound.awaited helps
      obtain ⟨pool, step⟩ := sound.awaited_enabled helps
      exact ⟨_, making, running, pool, step, rfl⟩

/-- A step of `thread_pool_create` makes the measure smaller. -/
theorem CreatorStep.measure_lt
    (step : CreatorStep behaviour state later)
    (sound : Sound behaviour state) :
    later.measure behaviour < state.measure behaviour :=
  Prod.Lex.toLex_lt_toLex.mpr (Or.inl (step.rank_lt sound))

/-- The step of who can help makes the measure smaller. -/
theorem Sound.helps_measure_lt
    (sound : Sound behaviour state)
    {mover : Option (Fin config.numThreads)}
    (helps : state.Helps mover)
    (move : Moves behaviour mover state later) :
    later.measure behaviour < state.measure behaviour := by
  cases mover with
  | none =>
      exact CreatorStep.measure_lt move sound
  | some index =>
      obtain ⟨making, _, pool, step, rfl⟩ := move
      obtain ⟨_, _, closed⟩ := sound.awaited helps
      exact sound.worker_measure_lt making closed step

/-- No step before the return makes the measure larger. -/
theorem Sound.measure_le
    (sound : Sound behaviour state)
    (making : ¬ state.Returned)
    (next : Next behaviour state later) :
    later.measure behaviour ≤ state.measure behaviour := by
  cases next with
  | creator step =>
      exact (step.measure_lt sound).le
  | worker index making running step =>
      exact sound.worker_measure_le making step
  | workerSpurious index making running wakes =>
      exact (spurious_measure wakes).le
  | use here next =>
      exact (making ⟨true, here⟩).elim

omit [DecidableEq Client] in
/-- Whether a worker is awaited depends on the two threads and the stage. -/
theorem Awaits.congr
    {index : Fin config.numThreads}
    (awaits : state.Awaits index)
    (stage : later.stage = state.stage)
    (destroyer :
      later.pool.pc .destroyer = state.pool.pc .destroyer)
    (worker :
      later.pool.pc (.worker index) = .exited →
      state.pool.pc (.worker index) = .exited) :
    later.Awaits index := by
  refine ⟨?_, ?_, ?_⟩
  · rw [stage]
    exact awaits.stopping
  · rw [destroyer]
    exact awaits.joining
  · intro exited
    exact awaits.inLoop (worker exited)

/-- Who can help can do so until the measure gets smaller. -/
theorem Sound.helps_stays
    (sound : Sound behaviour state)
    {mover : Option (Fin config.numThreads)}
    (helps : state.Helps mover)
    (next : Next behaviour state later)
    (same : later.measure behaviour = state.measure behaviour) :
    later.Helps mover := by
  have core := reachable_core sound.pool
  cases next with
  | creator step =>
      exact ((step.measure_lt sound).ne same).elim
  | @worker actor pool making running step =>
      obtain ⟨stage, here⟩ := core.stage
      have there := step.destroyer_stays nofun here
      have destroyer :
          pool.pc .destroyer = state.pool.pc .destroyer :=
        there.trans here.symm
      cases mover with
      | none =>
          refine ⟨helps.1, ?_⟩
          intro index awaits
          refine helps.2 index (awaits.congr rfl destroyer.symm ?_)
          exact step.exited_stays (core.agrees _)
      | some index =>
          have other : actor ≠ index := by
            rintro rfl
            obtain ⟨_, _, closed⟩ := sound.awaited helps
            exact (sound.worker_measure_lt making closed step).ne same
          refine helps.congr rfl destroyer ?_
          have sameWorker :=
            step.observe_other exited_stable
              (fun equal => other (Thread.worker.inj equal).symm)
          exact sameWorker.mp
  | workerSpurious actor making running wakes =>
      cases mover with
      | none =>
          refine ⟨helps.1, ?_⟩
          intro index awaits
          exact helps.2 index (awaits.congr rfl rfl id)
      | some index =>
          exact helps.congr rfl rfl id
  | use here next =>
      cases mover with
      | none =>
          exact (helps.1 ⟨true, here⟩).elim
      | some index =>
          obtain ⟨making, _⟩ := sound.awaited helps
          exact (making here).elim

/-- In a fair run `thread_pool_create` returns. -/
theorem eventually_returned
    (run : Nat → Lifetime config Client Func Arg Local)
    (first : run 0 = .initial config Client Func Arg Local)
    (steps :
      ∀ time,
        run (time + 1) = run time ∨
          Next behaviour (run time) (run (time + 1)))
    (fair : WeaklyFair (Moves behaviour) run) :
    ∃ time, (run time).Returned := by
  have reachable :
      ∀ time,
        (lifetime config Client behaviour).Reachable (run time) := by
    intro time
    induction time with
    | zero =>
        exact .start first
    | succ time inductionHypothesis =>
        rcases steps time with same | next
        · rw [same]
          exact inductionHypothesis
        · exact inductionHypothesis.step next
  have sound : ∀ time, Sound behaviour (run time) :=
    fun time => sound_of_reachable (reachable time)
  refine fair.reaches (measure behaviour) Returned Helps
    ?_ ?_ ?_ ?_ ?_
  · intro time making
    rcases steps time with same | next
    · rw [same]
    · exact (sound time).measure_le making next
  · intro time making
    exact exists_helps making
  · intro time mover helps
    exact (sound time).helps_enabled helps
  · intro time mover helps move
    exact (sound time).helps_measure_lt helps move
  · intro time mover helps same
    rcases steps time with stutter | next
    · rw [stutter]
      exact helps
    · exact (sound time).helps_stays helps next same

end Lifetime

end SThread.ThreadPool
