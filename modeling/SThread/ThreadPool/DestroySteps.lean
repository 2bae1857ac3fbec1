import SThread.ThreadPool.CreateAccount
import SThread.ThreadPool.Shutdown

namespace SThread.ThreadPool

open SThread.Library
open SThread.Scheduler

/-!
# The steps of the destroyer

The destroyer goes from one stage to the next, or takes its one step in
`task_queue_shutdown`.  It gets closer to the end with every step, and only a
worker in its loop can keep it waiting.
-/

section Places

variable
    {Func Arg Local : Type}

/-- How far the destroyer is from the end of `thread_pool_destroy`. -/
def Place.destroyRank
    (numThreads : Nat)
    (place : Place Func Arg Local) : Nat :=
  match place.pc with
  | .destroying .start => numThreads + 9
  | .destroying .shuttingDown =>
      match place.call with
      | .shutdownDone => numThreads + 7
      | _ => numThreads + 8
  | .destroying (.joining next) => numThreads - next + 6
  | .destroying .freeingWorkers => 5
  | .destroying .destroyingCond => 4
  | .destroying .destroyingMutex => 3
  | .destroying .destroyingQueue => 2
  | .destroying .freeingPool => 1
  | _ => 0

/-- No wake-up brings the destroyer closer to its end. -/
theorem Place.destroyRank_stable
    {Func Arg Local : Type}
    (numThreads : Nat) :
    Place.Stable
      (fun place : Place Func Arg Local =>
        place.destroyRank numThreads) where
  notEmpty := by
    intro pc wake
    cases pc with
    | destroying stage =>
        cases stage <;> rfl
    | _ =>
        rfl
  notFull := by
    intro pc func arg node wake
    cases pc with
    | destroying stage =>
        cases stage <;> rfl
    | _ =>
        rfl
  waitCond := by
    intro call completed since caller wake
    rfl

/-- Every stage is further from the end than the stages that follow it. -/
theorem DestroyStage.Follows.destroyRank_lt
    {numThreads : Nat}
    {stage next : DestroyStage}
    (follows : stage.Follows numThreads next)
    (call call' : Scheduler.Pc Func (Job Arg)) :
    (⟨.destroying next, call'⟩ :
        Place Func Arg Local).destroyRank numThreads <
      (⟨.destroying stage, call⟩ :
        Place Func Arg Local).destroyRank numThreads := by
  cases follows with
  | begin
  | shutDown =>
      simp only [Place.destroyRank]
      split <;> omega
  | join next inRange =>
      simp only [Place.destroyRank]
      omega
  | release stage next releases =>
      cases stage <;>
        simp only [DestroyStage.released, Option.some.injEq,
          reduceCtorEq] at releases <;>
        subst releases <;>
        simp [Place.destroyRank]
  | ignored
  | terminate next all
  | destroyQueue =>
      simp [Place.destroyRank]

end Places

variable
    {config : Config}
    {Client Func Arg Local : Type}
    [DecidableEq Client]
    {behaviour : TaskBehaviour Func Arg Local}
    {state later : State config Client Func Arg Local}

/-- What a step of the destroyer does. -/
inductive DestroyMove
    (state later : State config Client Func Arg Local)
    (stage : DestroyStage) : DestroyStage → Prop where
  | inQueue
      (shuttingDown : stage = .shuttingDown)
      (before : state.queue.pc .destroyer = .shutdownEnter)
      (after : later.queue.pc .destroyer = .shutdownDone) :
      DestroyMove state later stage stage
  | onward
      {next : DestroyStage}
      (follows : stage.Follows config.numThreads next) :
      DestroyMove state later stage next

/-- The destroyer takes its step in `task_queue_shutdown` or changes its stage. -/
theorem Step.destroyMove
    (step : Step behaviour state .destroyer later)
    (core : Core state)
    {stage : DestroyStage}
    (here : state.pc .destroyer = .destroying stage) :
    ∃ next,
      later.pc .destroyer = .destroying next ∧
        DestroyMove state later stage next := by
  have agrees := core.agrees .destroyer
  cases step with
  | queue step =>
      obtain ⟨channel, nodes, refines⟩ := core.refines
      obtain ⟨_, _, _, _, effect⟩ := step.effect refines
      have inside := step.inside
      simp only [State.place, here] at agrees
      cases stage with
      | shuttingDown =>
          rcases agrees with entered | done
          · have entered : state.queue.pc .destroyer = .shutdownEnter :=
              entered
            rw [entered] at effect
            exact ⟨_, here, .inQueue rfl entered effect.inShutdown.1⟩
          · rw [show state.queue.pc .destroyer = .shutdownDone
              from done] at inside
            exact Bool.noConfusion inside.2
      | _ =>
          exact (inside.1 agrees).elim
  | @own shared place step =>
      have destroys := step.destroyStep (core.role .destroyer)
      generalize atPlace : state.place .destroyer = before at destroys
      have sameStage : before.pc = .destroying stage := by
        rw [← atPlace]
        exact here
      have moved :
          (state.put .destroyer shared place).pc .destroyer =
            place.pc := by
        simp [State.put]
      rw [moved]
      cases destroys with
      | begin running =>
          obtain rfl := Pc.destroying.inj sameStage
          exact ⟨_, rfl, .onward .begin⟩
      | ignored stopped =>
          obtain rfl := Pc.destroying.inj sameStage
          exact ⟨_, rfl, .onward .ignored⟩
      | shutDown =>
          obtain rfl := Pc.destroying.inj sameStage
          exact ⟨_, rfl, .onward .shutDown⟩
      | terminate call next allJoined =>
          obtain rfl := Pc.destroying.inj sameStage
          exact ⟨_, rfl, .onward (.terminate next allJoined)⟩
      | release call earlier next releases =>
          obtain rfl := Pc.destroying.inj sameStage
          exact ⟨_, rfl, .onward (.release _ _ releases)⟩
  | broadcast broadcasting =>
      rw [here] at broadcasting
      contradiction
  | join next joining inRange ended =>
      obtain rfl := Pc.destroying.inj (here.symm.trans joining)
      exact ⟨_, by simp, .onward (.join next inRange)⟩
  | destroyQueue heap destroying frees =>
      obtain rfl := Pc.destroying.inj (here.symm.trans destroying)
      exact ⟨_, by simp, .onward .destroyQueue⟩
  | destroyQueueFault destroying fails =>
      rw [(core.destroyQueue destroying).1] at fails
      contradiction

/-- Every step of the destroyer brings it closer to the end. -/
theorem Step.destroyRank_lt
    (step : Step behaviour state .destroyer later)
    (core : Core state) :
    (later.place .destroyer).destroyRank config.numThreads <
      (state.place .destroyer).destroyRank config.numThreads := by
  obtain ⟨stage, here⟩ := core.stage
  obtain ⟨next, there, move⟩ := step.destroyMove core here
  simp only [State.place, here, there]
  cases move with
  | inQueue shuttingDown before after =>
      subst shuttingDown
      simp [Place.destroyRank, before, after]
  | onward follows =>
      exact follows.destroyRank_lt _ _

/-- The destroyer goes on unless it has ended or waits for a worker. -/
theorem Core.destroyer_enabled
    (core : Core state)
    (behaviour : TaskBehaviour Func Arg Local)
    {stage : DestroyStage}
    (here : state.pc .destroyer = .destroying stage)
    (allocated : stage ≠ .freed)
    (joinable :
      ∀ next (inRange : next < config.numThreads),
        stage = .joining next →
        state.pc (.worker ⟨next, inRange⟩) = .exited) :
    ∃ next, Step behaviour state .destroyer next := by
  have agrees := core.agrees .destroyer
  have phase := core.phase stage here
  have place :
      state.place .destroyer =
        ⟨.destroying stage, state.queue.pc .destroyer⟩ := by
    rw [State.place, here]
  rw [place] at agrees
  cases stage with
  | start =>
      rw [show state.queue.pc .destroyer = .idle from agrees] at place
      exact Step.of_place place (.destroy (.begin phase))
  | ignored =>
      exact phase.elim
  | shuttingDown =>
      rcases agrees with entered | done
      · exact ⟨_, .queue (.shutdown entered)⟩
      · rw [show state.queue.pc .destroyer = .shutdownDone
          from done] at place
        exact Step.of_place place (.destroy .shutDown)
  | joining next =>
      by_cases inRange : next < config.numThreads
      · exact ⟨_, .join next here inRange (joinable next inRange rfl)⟩
      · exact Step.of_place place
          (.destroy (.terminate _ next inRange))
  | freeingWorkers
  | destroyingCond
  | destroyingMutex
  | freeingPool =>
      exact Step.of_place place (.destroy (.release _ _ _ rfl))
  | destroyingQueue =>
      exact ⟨_, .destroyQueue _ here (core.destroyQueue here).1⟩
  | freed =>
      exact (allocated rfl).elim

end SThread.ThreadPool
