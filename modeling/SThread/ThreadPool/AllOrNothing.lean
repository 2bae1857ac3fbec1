import SThread.ThreadPool.CreateProgress

namespace SThread.ThreadPool

open SThread.Library
open SThread.Scheduler

/-!
# Creation is all or nothing

`thread_pool_create` returns a complete pool, or it returns nothing and leaves
nothing behind.  What is in use is not released, and a pool that was returned is
released as a whole.
-/

section

variable
    {config : Config}
    {Client Func Arg Local : Type}
    [DecidableEq Client]

/-- What holds at every moment in the life of a pool. -/
structure AllOrNothing
    (behaviour : TaskBehaviour Func Arg Local)
    (state : Lifetime config Client Func Arg Local) : Prop where
  proper :
    state.resources.misused = false
  failure :
    ∀ pool,
      state.stage = .returned pool →
      (pool = false ↔ state.failed = true)
  nothing :
    state.stage = .returned false →
    (∀ resource, state.resources.status resource ≠ .held) ∧
      ∀ index, state.resources.worker index ≠ .running
  supported :
    ∀ index,
      state.resources.worker index = .running →
      ∀ resource, state.resources.status resource = .held
  joined :
    ∀ index,
      state.resources.worker index = .joined →
      state.pool.pc (.worker index) = .exited
  everything :
    state.stage = .returned true →
    state.pool.pc .destroyer = .destroying .start →
    (∀ resource, state.resources.status resource = .held) ∧
      ∀ index, state.resources.worker index = .running
  destroyed :
    state.stage = .returned true →
    state.pool.Freed →
    (∀ resource, state.resources.status resource = .released) ∧
      ∀ index, state.resources.worker index = .joined
  destroys :
    state.stage = .returned true →
    (∀ index, state.pool.pc (.worker index) = .exited) →
    ∃ later,
      (lifetime config Client behaviour).Run state later ∧
        later.stage = .returned true ∧
        later.pool.Freed
  progress :
    ¬ state.Returned →
    ∃ mover later,
      Lifetime.Moves behaviour mover state later ∧
        later.measure behaviour < state.measure behaviour

end

section

variable
    {config : Config}
    {Client Func Arg Local : Type}

/-- While a worker runs nothing has been released. -/
theorem Resources.Matches.held_of_running
    {started numThreads : Nat}
    {stage : DestroyStage}
    {resources : Resources numThreads}
    (consistent : resources.Matches started stage)
    {index : Fin numThreads}
    (running : resources.worker index = .running)
    (resource : Resource) :
    resources.status resource = .held := by
  rw [consistent.worker] at running
  have notJoined : ¬ index.val < stage.joinedSoFar numThreads := by
    intro counted
    rw [if_pos counted] at running
    exact WorkerStatus.noConfusion running
  cases stage with
  | start
  | ignored
  | shuttingDown
  | joining next =>
      simp [consistent.status, DestroyStage.releasedSoFar]
  | _ =>
      exact (notJoined index.isLt).elim

/-- A pool nobody destroys yet has everything. -/
theorem Resources.Matches.complete
    {numThreads : Nat}
    {resources : Resources numThreads}
    (consistent : resources.Matches numThreads .start) :
    (∀ resource, resources.status resource = .held) ∧
      ∀ index, resources.worker index = .running := by
  constructor
  · intro resource
    simp [consistent.status, DestroyStage.releasedSoFar]
  · intro index
    simp [consistent.worker, DestroyStage.joinedSoFar]

/-- A destroyed pool has nothing. -/
theorem Resources.Matches.gone
    {numThreads : Nat}
    {resources : Resources numThreads}
    (consistent : resources.Matches numThreads .freed) :
    (∀ resource, resources.status resource = .released) ∧
      ∀ index, resources.worker index = .joined := by
  constructor
  · intro resource
    cases resource <;>
      simp [consistent.status, DestroyStage.releasedSoFar]
  · intro index
    simp [consistent.worker, DestroyStage.joinedSoFar]

namespace Lifetime

/-- Nothing is ever acquired, released, started or joined at the wrong time. -/
theorem Accounts.proper
    {failed : Bool}
    {pool : State config Client Func Arg Local}
    {resources : Resources config.numThreads}
    {stage : CreateStage}
    (accounts : Accounts failed pool resources stage) :
    resources.misused = false := by
  cases stage with
  | acquiring resource =>
      exact accounts.2.2.proper
  | spawning next =>
      exact accounts.2.2.2.proper
  | stopping started =>
      obtain ⟨_, _, _, _, _, matching⟩ := accounts
      exact matching.proper
  | unwinding rest =>
      exact accounts.2.proper
  | returned success =>
      cases success with
      | false =>
          exact accounts.2.proper
      | true =>
          obtain ⟨_, _, _, matching⟩ := accounts
          exact matching.proper

variable
    [DecidableEq Client]
    {behaviour : TaskBehaviour Func Arg Local}
    {state later : Lifetime config Client Func Arg Local}

/-- Once the workers have left their loops a destroy runs to its end. -/
theorem destroy_finishes
    (reachable :
      (lifetime config Client behaviour).Reachable state)
    (here : state.stage = .returned true)
    (exited :
      ∀ index, state.pool.pc (.worker index) = .exited) :
    ∃ later,
      (lifetime config Client behaviour).Run state later ∧
        later.stage = .returned true ∧
        later.pool.Freed := by
  induction closeness :
    (state.pool.place .destroyer).destroyRank config.numThreads
    using Nat.strong_induction_on generalizing state with
  | _ closeness inductionHypothesis =>
      have core := reachable_core (sound_of_reachable reachable).pool
      obtain ⟨stage, atStage⟩ := core.stage
      by_cases freed : stage = .freed
      · subst freed
        exact ⟨state, .refl, here, atStage⟩
      · have allocated : ¬ state.pool.Freed := by
          intro isFreed
          exact freed (Pc.destroying.inj (atStage.symm.trans isFreed))
        obtain ⟨pool, step⟩ :=
          core.destroyer_enabled behaviour atStage freed
            (fun next inRange _ => exited ⟨next, inRange⟩)
        have next : Next behaviour state (state.step pool) :=
          .use here (.step .destroyer allocated step)
        have closer := step.destroyRank_lt core
        rw [closeness] at closer
        obtain ⟨later, run, there, isFreed⟩ :=
          inductionHypothesis _ closer (reachable.step next) here
            (fun index =>
              step.exited_stays (core.agrees _) (exited index))
            rfl
        exact ⟨later, .head next run, there, isFreed⟩

/-- The invariant says what has to hold at every moment. -/
theorem Sound.allOrNothing
    (sound : Sound behaviour state)
    (reachable :
      (lifetime config Client behaviour).Reachable state) :
    AllOrNothing behaviour state where
  proper :=
    sound.accounts.proper
  failure := by
    intro pool here
    have accounts := sound.accounts
    rw [here] at accounts
    cases pool with
    | false =>
        simp [accounts.1]
    | true =>
        simp [accounts.1]
  nothing := by
    intro here
    have accounts := sound.accounts
    rw [here] at accounts
    refine ⟨?_, accounts.2.worker⟩
    intro resource held
    exact List.not_mem_nil ((accounts.2.status resource).mp held)
  supported := by
    intro index running resource
    have accounts := sound.accounts
    by_cases made : state.stage = .returned true
    · rw [made] at accounts
      obtain ⟨_, stage, _, matching⟩ := accounts
      exact matching.held_of_running running resource
    · obtain ⟨started, stage, _, _, matching⟩ :=
        accounts.stops_of_running made running
      exact matching.held_of_running running resource
  joined :=
    sound.joined
  everything := by
    intro here start
    have accounts := sound.accounts
    rw [here] at accounts
    obtain ⟨_, stage, atStage, matching⟩ := accounts
    obtain rfl := Pc.destroying.inj (atStage.symm.trans start)
    exact matching.complete
  destroyed := by
    intro here freed
    have accounts := sound.accounts
    rw [here] at accounts
    obtain ⟨_, stage, atStage, matching⟩ := accounts
    obtain rfl := Pc.destroying.inj (atStage.symm.trans freed)
    exact matching.gone
  destroys :=
    destroy_finishes reachable
  progress := by
    intro making
    obtain ⟨mover, helps⟩ := exists_helps making
    obtain ⟨next, move⟩ := sound.helps_enabled helps
    exact ⟨mover, next, move, sound.helps_measure_lt helps move⟩

end Lifetime

end

/--
Creation with any arguments is all or nothing whatever fails, and it returns in
every run that lets its own thread and the workers it has started go on.
-/
theorem create_allOrNothing
    (numCores numThreads queueCapacity : UInt64)
    (Client : Type)
    {Func Arg Local : Type}
    [DecidableEq Client]
    (behaviour : TaskBehaviour Func Arg Local) :
    (∀ state,
        (lifetime (createConfig numCores numThreads queueCapacity)
          Client behaviour).Reachable state →
        AllOrNothing behaviour state) ∧
      ∀ run :
          Nat →
          Lifetime (createConfig numCores numThreads queueCapacity)
            Client Func Arg Local,
        run 0 = .initial _ Client Func Arg Local →
        (∀ time,
          run (time + 1) = run time ∨
            Lifetime.Next behaviour (run time) (run (time + 1))) →
        WeaklyFair (Lifetime.Moves behaviour) run →
        ∃ time, (run time).Returned := by
  constructor
  · intro state reachable
    exact (Lifetime.sound_of_reachable reachable).allOrNothing reachable
  · exact Lifetime.eventually_returned

/-- The second worker cannot be started, and the first one is stopped and joined. -/
theorem create_allOrNothing_stopped :
    ∃ state : Lifetime (createConfig 1 2 1) Unit Nat Nat Unit,
      (lifetime (createConfig 1 2 1) Unit idleTasks).Reachable state ∧
        state.stage = .returned false ∧
        state.resources.worker ⟨0, by decide⟩ = .joined ∧
        AllOrNothing idleTasks state := by
  have start :
      (lifetime (createConfig 1 2 1) Unit idleTasks).Reachable _ :=
    .start rfl
  have memory := start.step (.creator (.acquire _ rfl))
  have queueLock := memory.step (.creator (.acquire _ rfl))
  have notEmpty := queueLock.step (.creator (.acquire _ rfl))
  have notFull := notEmpty.step (.creator (.acquire _ rfl))
  have waitLock := notFull.step (.creator (.acquire _ rfl))
  have waitCond := waitLock.step (.creator (.acquire _ rfl))
  have workers := waitCond.step (.creator (.acquire _ rfl))
  have started := workers.step (.creator (.spawn 0 rfl (by decide)))
  have failed := started.step
    (.creator (.spawnFails 1 rfl (by decide)))
  -- The worker is in its first call of `task_queue_pop` by now.
  have popping := failed.step
    (.worker ⟨0, by decide⟩ nofun rfl (.own (.worker .pop)))
  have begun := popping.step
    (.creator (.stop 1 rfl nofun (.own (.destroy (.begin rfl)))))
  have closed := begun.step
    (.creator (.stop 1 rfl nofun (.queue (.shutdown rfl))))
  have joining := closed.step
    (.creator (.stop 1 rfl nofun (.own (.destroy .shutDown))))
  have empty := joining.step
    (.worker ⟨0, by decide⟩ nofun rfl (.queue (.popEmpty .pop (.enter rfl))))
  have exited := empty.step
    (.worker ⟨0, by decide⟩ nofun rfl (.own (.worker .popFailed)))
  have joined := exited.step
    (.creator (.stop 1 rfl (by decide) (.join 0 rfl (by decide) rfl)))
  have stopped := joined.step (.creator (.stopped 1 rfl rfl))
  have noWorkers := stopped.step (.creator (.release _ _ rfl))
  have noWaitCond := noWorkers.step (.creator (.release _ _ rfl))
  have noWaitLock := noWaitCond.step (.creator (.release _ _ rfl))
  have noNotFull := noWaitLock.step (.creator (.release _ _ rfl))
  have noNotEmpty := noNotFull.step (.creator (.release _ _ rfl))
  have noQueueLock := noNotEmpty.step (.creator (.release _ _ rfl))
  have noMemory := noQueueLock.step (.creator (.release _ _ rfl))
  have unwound := noMemory.step (.creator (.unwound rfl))
  exact ⟨_, unwound, rfl, rfl,
    (create_allOrNothing 1 2 1 Unit idleTasks).1 _ unwound⟩

end SThread.ThreadPool
