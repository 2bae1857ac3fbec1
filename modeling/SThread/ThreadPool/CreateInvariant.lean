import SThread.ThreadPool.DestroySteps
import SThread.ThreadPool.Vacancy

namespace SThread.ThreadPool

open SThread.Library
open SThread.Scheduler

/-!
# The invariant of a pool's life

At every stage of `thread_pool_create` it is known what is held and which workers
run.  A worker counts as joined only when it has left its loop.
-/

section

variable
    {config : Config}
    {Client Func Arg Local : Type}

/-- The destroyer is at a stage. -/
theorem Lifetime.destroyStage_eq
    {pool : State config Client Func Arg Local}
    {stage : DestroyStage}
    (here : pool.pc .destroyer = .destroying stage) :
    Lifetime.destroyStage pool = some stage := by
  rw [Lifetime.destroyStage, here]

/-- How far a thread that stops the started workers may have got. -/
def DestroyStage.Stops
    (started : Nat) : DestroyStage → Prop
  | .start => True
  | .shuttingDown => True
  | .joining next => next ≤ started
  | _ => False

/-- What is held and which workers run at each stage of `thread_pool_create`. -/
def Lifetime.Accounts
    (failed : Bool)
    (pool : State config Client Func Arg Local)
    (resources : Resources config.numThreads) :
    CreateStage → Prop
  | .acquiring resource =>
      failed = false ∧
        pool.pc .destroyer = .destroying .start ∧
        resources.Acquired resource.unwinding
  | .spawning next =>
      failed = false ∧
        next ≤ config.numThreads ∧
        pool.pc .destroyer = .destroying .start ∧
        resources.Matches next .start
  | .stopping started =>
      failed = true ∧
        started < config.numThreads ∧
        ∃ stage,
          pool.pc .destroyer = .destroying stage ∧
            stage.Stops started ∧
            resources.Matches started stage
  | .unwinding rest =>
      failed = true ∧ resources.Left rest
  | .returned false =>
      failed = true ∧ resources.Left []
  | .returned true =>
      failed = false ∧
        ∃ stage,
          pool.pc .destroyer = .destroying stage ∧
            resources.Matches config.numThreads stage

variable
    [DecidableEq Client]
    {behaviour : TaskBehaviour Func Arg Local}

/-- The invariant of a pool's life. -/
structure Lifetime.Sound
    (behaviour : TaskBehaviour Func Arg Local)
    (state : Lifetime config Client Func Arg Local) : Prop where
  pool :
    (system config Client behaviour).Reachable state.pool
  accounts :
    Lifetime.Accounts state.failed state.pool state.resources state.stage
  joined :
    ∀ index,
      state.resources.worker index = .joined →
      state.pool.pc (.worker index) = .exited
  vacant :
    state.stage ≠ .returned true →
    state.pool.Vacant

end

section Pool

variable
    {config : Config}
    {Client Func Arg Local : Type}
    [DecidableEq Client]
    {behaviour : TaskBehaviour Func Arg Local}
    {pool later : State config Client Func Arg Local}
    {resources : Resources config.numThreads}

/-- A worker that has been joined has left its loop. -/
theorem Resources.Matches.exited
    {started : Nat}
    {stage : DestroyStage}
    (consistent : resources.Matches started stage)
    (core : Core pool)
    (here : pool.pc .destroyer = .destroying stage)
    {index : Fin config.numThreads}
    (joined : resources.worker index = .joined) :
    pool.pc (.worker index) = .exited := by
  have phase := core.phase stage here
  rw [consistent.worker] at joined
  have counted : index.val < stage.joinedSoFar config.numThreads := by
    by_contra notYet
    rw [if_neg notYet] at joined
    split at joined <;> exact WorkerStatus.noConfusion joined
  cases stage with
  | start
  | ignored
  | shuttingDown =>
      exact (Nat.not_lt_zero _ counted).elim
  | joining next =>
      exact phase.2.2 index counted
  | _ =>
      exact phase.2.2 index

/-- What a step of the destroyer does to the resources. -/
theorem Resources.Matches.track
    {started : Nat}
    {stage : DestroyStage}
    (consistent : resources.Matches started stage)
    (core : Core pool)
    (here : pool.pc .destroyer = .destroying stage)
    (step : Step behaviour pool .destroyer later)
    (isStarted :
      ∀ index, stage = .joining index → index < config.numThreads →
        index < started) :
    ∃ next,
      later.pc .destroyer = .destroying next ∧
        (next = stage ∨ stage.Follows config.numThreads next) ∧
        (Lifetime.track pool later resources).Matches started next := by
  obtain ⟨next, there, move⟩ := step.destroyMove core here
  refine ⟨next, there, ?_⟩
  simp only [Lifetime.track, Lifetime.destroyStage_eq here,
    Lifetime.destroyStage_eq there]
  cases move with
  | inQueue shuttingDown before after =>
      rw [if_pos rfl]
      exact ⟨Or.inl rfl, consistent⟩
  | onward follows =>
      have changes : some next ≠ some stage := by
        intro same
        obtain rfl := Option.some.inj same
        have closer :
            (⟨.destroying next, .idle⟩ :
                Place Func Arg Local).destroyRank config.numThreads <
              (⟨.destroying next, .idle⟩ :
                Place Func Arg Local).destroyRank config.numThreads :=
          follows.destroyRank_lt .idle .idle
        exact closer.false
      rw [if_neg changes]
      exact ⟨Or.inr follows, consistent.follows follows isStarted⟩

omit [DecidableEq Client] in
/-- While the destroyer stays where it is nothing happens to the resources. -/
theorem Lifetime.track_eq
    {stage : DestroyStage}
    (here : pool.pc .destroyer = .destroying stage)
    (there : later.pc .destroyer = .destroying stage) :
    Lifetime.track pool later resources = resources := by
  simp only [Lifetime.track, Lifetime.destroyStage_eq here,
    Lifetime.destroyStage_eq there, if_true]

/-- No other thread moves the destroyer. -/
theorem Step.destroyer_stays
    {thread : Thread config.numThreads Client}
    (step : Step behaviour pool thread later)
    (other : thread ≠ .destroyer)
    {stage : DestroyStage}
    (here : pool.pc .destroyer = .destroying stage) :
    later.pc .destroyer = .destroying stage := by
  have same := step.observe_other (destroying_stable stage) other.symm
  exact same.mpr here

/-- The resources of a pool in use are as its destroyer expects. -/
theorem Resources.Matches.next
    {stage : DestroyStage}
    (consistent : resources.Matches config.numThreads stage)
    (core : Core pool)
    (here : pool.pc .destroyer = .destroying stage)
    (next : Next behaviour pool later) :
    ∃ stage',
      later.pc .destroyer = .destroying stage' ∧
        (Lifetime.track pool later resources).Matches
          config.numThreads stage' := by
  have stays
      (there : later.pc .destroyer = .destroying stage) :
      ∃ stage',
        later.pc .destroyer = .destroying stage' ∧
          (Lifetime.track pool later resources).Matches
            config.numThreads stage' := by
    rw [Lifetime.track_eq here there]
    exact ⟨stage, there, consistent⟩
  cases next with
  | step thread allocated step =>
      by_cases destroyer : thread = .destroyer
      · subst destroyer
        obtain ⟨stage', there, _, matching⟩ :=
          consistent.track core here step (fun _ _ inRange => inRange)
        exact ⟨stage', there, matching⟩
      · exact stays (step.destroyer_stays destroyer here)
  | queueSpurious thread allocated wakes =>
      exact stays here
  | waitSpurious thread completed since caller allocated waits =>
      have same :=
        observe_waitSpurious (destroying_stable stage) waits .destroyer
      exact stays (same.mpr here)

end Pool

namespace Lifetime

variable
    {config : Config}
    {Client Func Arg Local : Type}
    [DecidableEq Client]
    {behaviour : TaskBehaviour Func Arg Local}
    {state later : Lifetime config Client Func Arg Local}

/-- The invariant holds when `thread_pool_create` is called. -/
theorem Sound.initial :
    Sound behaviour (.initial config Client Func Arg Local) where
  pool :=
    .start rfl
  accounts := by
    refine ⟨rfl, rfl, ?_, fun _ => rfl, rfl⟩
    intro resource
    simp [Resource.unwinding, Lifetime.initial, Resources.fresh]
  joined := by
    intro index joined
    exact WorkerStatus.noConfusion joined
  vacant :=
    fun _ => .initial

/-- A pool in use keeps the invariant. -/
theorem Sound.use
    (sound : Sound behaviour state)
    (here : state.stage = .returned true)
    {pool : State config Client Func Arg Local}
    (next : ThreadPool.Next behaviour state.pool pool) :
    Sound behaviour (state.step pool) := by
  have reached := sound.pool.step next
  have accounts := sound.accounts
  rw [here] at accounts
  obtain ⟨noFailure, stage, atStage, matching⟩ := accounts
  obtain ⟨stage', there, matching'⟩ :=
    matching.next (reachable_core sound.pool) atStage next
  refine ⟨reached, ?_, ?_, fun making => (making here).elim⟩
  · simp only [Lifetime.step, here]
    exact ⟨noFailure, stage', there, matching'⟩
  · intro index
    exact matching'.exited (reachable_core reached) there

omit [DecidableEq Client] in
/-- Of the pool only the destroyer matters to the resources. -/
theorem Accounts.congr
    {failed : Bool}
    {pool pool' : State config Client Func Arg Local}
    {resources : Resources config.numThreads}
    {stage : CreateStage}
    (accounts : Accounts failed pool resources stage)
    (same :
      ∀ stage,
        pool.pc .destroyer = .destroying stage →
        pool'.pc .destroyer = .destroying stage) :
    Accounts failed pool' resources stage := by
  cases stage with
  | acquiring resource =>
      obtain ⟨noFailure, start, acquired⟩ := accounts
      exact ⟨noFailure, same _ start, acquired⟩
  | spawning next =>
      obtain ⟨noFailure, bound, start, matching⟩ := accounts
      exact ⟨noFailure, bound, same _ start, matching⟩
  | stopping started =>
      obtain ⟨failure, bound, stage, here, stops, matching⟩ := accounts
      exact ⟨failure, bound, stage, same _ here, stops, matching⟩
  | unwinding rest =>
      exact accounts
  | returned success =>
      cases success with
      | false =>
          exact accounts
      | true =>
          obtain ⟨noFailure, stage, here, matching⟩ := accounts
          exact ⟨noFailure, stage, same _ here, matching⟩

omit [DecidableEq Client] in
/-- While a worker runs in a pool in the making nothing has been torn down. -/
theorem Accounts.stops_of_running
    {failed : Bool}
    {pool : State config Client Func Arg Local}
    {resources : Resources config.numThreads}
    {stage : CreateStage}
    (accounts : Accounts failed pool resources stage)
    (making : stage ≠ .returned true)
    {index : Fin config.numThreads}
    (running : resources.worker index = .running) :
    ∃ started stage,
      pool.pc .destroyer = .destroying stage ∧
        stage.Stops started ∧
        resources.Matches started stage := by
  cases stage with
  | acquiring resource =>
      obtain ⟨_, _, acquired⟩ := accounts
      rw [acquired.worker] at running
      exact WorkerStatus.noConfusion running
  | spawning next =>
      obtain ⟨_, _, start, matching⟩ := accounts
      exact ⟨next, .start, start, trivial, matching⟩
  | stopping started =>
      obtain ⟨_, _, stage, here, stops, matching⟩ := accounts
      exact ⟨started, stage, here, stops, matching⟩
  | unwinding rest =>
      exact (accounts.2.worker index running).elim
  | returned success =>
      cases success with
      | false =>
          exact (accounts.2.worker index running).elim
      | true =>
          exact (making rfl).elim

omit [DecidableEq Client] in
/-- A pool is not freed while it is stopped. -/
theorem not_freed_of_stops
    {pool : State config Client Func Arg Local}
    {started : Nat}
    {stage : DestroyStage}
    (here : pool.pc .destroyer = .destroying stage)
    (stops : stage.Stops started) :
    ¬ pool.Freed := by
  intro freed
  obtain rfl := Pc.destroying.inj (here.symm.trans freed)
  exact stops

/-- The steps of a started worker keep the invariant. -/
theorem Sound.worker
    (sound : Sound behaviour state)
    (making : state.stage ≠ .returned true)
    {index : Fin config.numThreads}
    (running : state.resources.worker index = .running)
    {pool : State config Client Func Arg Local}
    (step : Step behaviour state.pool (.worker index) pool) :
    Sound behaviour (state.step pool) := by
  have core := reachable_core sound.pool
  obtain ⟨started, stage, here, stops, _⟩ :=
    sound.accounts.stops_of_running making running
  have same :
      track state.pool pool state.resources = state.resources :=
    track_eq here (step.destroyer_stays nofun here)
  refine ⟨sound.pool.step
    (.step _ (not_freed_of_stops here stops) step), ?_, ?_, ?_⟩
  · simp only [Lifetime.step, same]
    exact sound.accounts.congr
      (fun _ here => step.destroyer_stays nofun here)
  · intro other joined
    simp only [Lifetime.step, same] at joined
    exact step.exited_stays (core.agrees _) (sound.joined other joined)
  · intro _
    exact (sound.vacant making).step core step nofun

/-- So does a spurious wake-up of a started worker. -/
theorem Sound.workerSpurious
    (sound : Sound behaviour state)
    (making : state.stage ≠ .returned true)
    {index : Fin config.numThreads}
    (running : state.resources.worker index = .running)
    {call : Scheduler.Pc Func (Job Arg)}
    (wakes :
      (state.pool.queue.pc (.worker index)).spurious = some call) :
    Sound behaviour {
      state with
        pool := {
          state.pool with
            queue := state.pool.queue.setPc (.worker index) call } } := by
  obtain ⟨started, stage, here, stops, _⟩ :=
    sound.accounts.stops_of_running making running
  exact {
    pool := sound.pool.step
      (.queueSpurious _ (not_freed_of_stops here stops) wakes)
    accounts := sound.accounts.congr (fun _ => id)
    joined := sound.joined
    vacant := fun _ => (sound.vacant making).spurious wakes }

omit [DecidableEq Client] in
/-- Stopping the workers goes no further than to join those that were started. -/
theorem stops_of_follows
    {numThreads started : Nat}
    {stage next : DestroyStage}
    (bound : started < numThreads)
    (stops : stage.Stops started)
    (goesOn : stage ≠ .joining started)
    (follows : stage.Follows numThreads next)
    (heeded : next ≠ .ignored) :
    next.Stops started := by
  cases follows with
  | begin =>
      trivial
  | ignored =>
      exact (heeded rfl).elim
  | shutDown =>
      exact Nat.zero_le started
  | join index inRange =>
      have different : index ≠ started := by
        rintro rfl
        exact goesOn rfl
      exact Nat.lt_of_le_of_ne stops different
  | terminate index all =>
      exact (all (stops.trans_lt bound)).elim
  | release stage next releases =>
      cases stage <;>
        simp [DestroyStage.Stops, DestroyStage.released] at stops releases
  | destroyQueue =>
      exact stops.elim

/-- The steps that stop the workers keep the invariant. -/
theorem Sound.stop
    (sound : Sound behaviour state)
    {started : Nat}
    (here : state.stage = .stopping started)
    (goesOn : destroyStage state.pool ≠ some (.joining started))
    {pool : State config Client Func Arg Local}
    (step : Step behaviour state.pool .destroyer pool) :
    Sound behaviour (state.step pool) := by
  have core := reachable_core sound.pool
  have accounts := sound.accounts
  rw [here] at accounts
  obtain ⟨failure, bound, stage, atStage, stops, matching⟩ := accounts
  rw [destroyStage_eq atStage] at goesOn
  have reached :=
    sound.pool.step
      (.step _ (not_freed_of_stops atStage stops) step)
  have notAll : stage ≠ .joining started := by
    rintro rfl
    exact goesOn rfl
  obtain ⟨next, there, move, matching'⟩ :=
    matching.track core atStage step (by
      rintro index rfl inRange
      exact Nat.lt_of_le_of_ne stops (by
        rintro rfl
        exact notAll rfl))
  have stops' : next.Stops started := by
    rcases move with rfl | follows
    · exact stops
    · refine stops_of_follows bound stops notAll follows ?_
      rintro rfl
      exact (reachable_core reached).phase _ there
  refine ⟨reached, ?_, ?_, ?_⟩
  · simp only [Lifetime.step, here]
    exact ⟨failure, bound, next, there, stops', matching'⟩
  · intro index
    exact matching'.exited (reachable_core reached) there
  · intro _
    exact (sound.vacant (by simp [here])).step core step nofun

/-- A step of the thread in `thread_pool_create` keeps the invariant. -/
theorem Sound.creator
    (sound : Sound behaviour state)
    (step : CreatorStep behaviour state later) :
    Sound behaviour later := by
  have accounts := sound.accounts
  cases step with
  | acquire resource here =>
      rw [here] at accounts
      obtain ⟨noFailure, start, acquired⟩ := accounts
      refine ⟨sound.pool, ?_, ?_, fun _ => sound.vacant (by simp [here])⟩
      · cases resource with
        | workersArray =>
            have all := acquired.acquire .workersArray (by decide)
            exact ⟨noFailure, Nat.zero_le _, start, all.spent⟩
        | _ =>
            exact ⟨noFailure, start, acquired.acquire _ (by decide)⟩
      · intro index joined
        simp [Resources.acquire, acquired.worker] at joined
  | acquireFails resource here =>
      rw [here] at accounts
      obtain ⟨noFailure, start, acquired⟩ := accounts
      refine ⟨sound.pool, ⟨rfl, acquired.left ?_⟩, sound.joined,
        fun _ => sound.vacant (by simp [here])⟩
      cases resource <;> decide
  | spawn next here inRange =>
      rw [here] at accounts
      obtain ⟨noFailure, bound, start, matching⟩ := accounts
      have started :
          (state.resources.start ⟨next, inRange⟩).Matches
            (next + 1) .start :=
        Resources.Spent.start matching inRange
      refine ⟨sound.pool, ⟨noFailure, inRange, start, started⟩, ?_,
        fun _ => sound.vacant (by simp [here])⟩
      intro index
      exact started.exited (reachable_core sound.pool) start
  | spawnFails next here inRange =>
      rw [here] at accounts
      obtain ⟨noFailure, bound, start, matching⟩ := accounts
      exact ⟨sound.pool, ⟨rfl, inRange, .start, start, trivial, matching⟩,
        sound.joined, fun _ => sound.vacant (by simp [here])⟩
  | spawned next here all =>
      rw [here] at accounts
      obtain ⟨noFailure, bound, start, matching⟩ := accounts
      obtain rfl : next = config.numThreads := by
        omega
      exact ⟨sound.pool, ⟨noFailure, .start, start, matching⟩,
        sound.joined, fun making => (making rfl).elim⟩
  | @stop started pool here goesOn step =>
      exact sound.stop here goesOn step
  | stopped started here allJoined =>
      rw [here] at accounts
      obtain ⟨failure, bound, stage, atStage, stops, matching⟩ := accounts
      rw [destroyStage_eq atStage] at allJoined
      obtain rfl := Option.some.inj allJoined
      exact ⟨sound.pool, ⟨failure, Resources.Spent.left matching⟩,
        sound.joined, fun _ => sound.vacant (by simp [here])⟩
  | release resource rest here =>
      rw [here] at accounts
      obtain ⟨failure, left⟩ := accounts
      exact ⟨sound.pool, ⟨failure, left.release⟩, sound.joined,
        fun _ => sound.vacant (by simp [here])⟩
  | unwound here =>
      rw [here] at accounts
      exact ⟨sound.pool, accounts, sound.joined,
        fun _ => sound.vacant (by simp [here])⟩

/-- Every state in the life of a pool satisfies the invariant. -/
theorem sound_of_reachable
    (reachable :
      (lifetime config Client behaviour).Reachable state) :
    Sound behaviour state := by
  refine reachable.invariant (Sound behaviour) ?_ ?_
  · rintro first rfl
    exact .initial
  · intro before after _ sound next
    cases next with
    | creator step =>
        exact sound.creator step
    | worker index making running step =>
        exact sound.worker making running step
    | workerSpurious index making running wakes =>
        exact sound.workerSpurious making running wakes
    | use here next =>
        exact sound.use here next

end Lifetime

end SThread.ThreadPool
