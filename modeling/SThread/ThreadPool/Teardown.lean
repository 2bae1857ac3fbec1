import SThread.ThreadPool.DestroySteps

namespace SThread.ThreadPool

open SThread.Library
open SThread.Scheduler

/-!
# Tearing the pool down

`thread_pool_destroy` waits for the workers only.  A client that has entered
`thread_pool_submit` or `thread_pool_wait` before the pool stops running may
still be inside when the workers have been joined; nothing then keeps the
destroyer from destroying the lock, the condition variable and the queue and
from freeing the pool.  The pool is torn down safely when no client is inside
as the destroyer begins, and whenever one is, the pool can be freed around it.
-/

/-- The call of `task_queue_push` has still to lock, or has linked its node. -/
def usesQueue
    {Func Arg : Type} :
    Scheduler.Pc Func Arg → Bool
  | .pushFree _ => false
  | .pushDone ret => decide (ret = 0)
  | .rejected => false
  | _ => true

section Functions

variable
    {Func Arg Local : Type}

/-- The thread has still to access a lock, a condition or a field of the pool. -/
def Place.usesPool
    (place : Place Func Arg Local) : Bool :=
  match place.pc with
  | .idle => false
  | .exited => false
  | .destroying _ => false
  | .submitting .pushing _ .client => usesQueue place.call
  | .submitting (.done _) _ .client => false
  | .waiting .done _ .client => false
  | _ => true

/-- How many steps a thread in `thread_pool_wait` takes until it unlocks. -/
def Pc.untilUnlocked : Pc Func Arg Local → Nat
  | .waiting (.testing none none) _ _ => 4
  | .waiting (.testing none _) _ _ => 3
  | .waiting (.testing _ none) _ _ => 3
  | .waiting (.testing _ _) _ _ => 2
  | .waiting (.unlocking _ _) _ _ => 1
  | _ => 0

/-- No wake-up brings a client into a call or out of it. -/
theorem idle_stable :
    Place.Stable
      (fun place : Place Func Arg Local => place.pc = .idle) :=
  ⟨fun _ _ => rfl, fun _ _ _ _ _ => rfl, by simp⟩

/-- A client that holds `wait_lock` unlocks before it leaves its call. -/
theorem LocalStep.unlocks
    {Owner : Type}
    {behaviour : TaskBehaviour Func Arg Local}
    {thread : Owner}
    {numThreads : Nat}
    {shared shared' : Shared Owner Func Arg}
    {place place' : Place Func Arg Local}
    (step :
      LocalStep behaviour thread numThreads
        shared place shared' place')
    (client : place.pc.role = .client)
    (holds : place.pc.holdsWait = true) :
    place'.pc ≠ .idle ∧
      place'.pc.untilUnlocked < place.pc.untilUnlocked := by
  cases step with
  | worker step =>
      cases step <;> exact Role.noConfusion client
  | submit step =>
      cases step with
      | callNull call caller arg priority may
      | call call caller func arg priority may =>
          cases caller <;> exact Bool.noConfusion holds
      | _ =>
          exact Bool.noConfusion holds
  | wait step =>
      cases step with
      | call call caller may =>
          cases caller <;> exact Bool.noConfusion holds
      | loadCompleted call submitted since caller =>
          cases submitted <;> exact ⟨nofun, by simp [Pc.untilUnlocked]⟩
      | loadSubmitted call completed since caller =>
          cases completed <;> exact ⟨nofun, by simp [Pc.untilUnlocked]⟩
      | sleep call completed submitted since caller behind
      | pass call completed submitted since caller reached
      | unlock call completed submitted since caller =>
          exact ⟨nofun, by simp [Pc.untilUnlocked]⟩
      | _ =>
          exact Bool.noConfusion holds
  | destroy step =>
      cases step <;> exact Role.noConfusion client

end Functions

/-- The stages of `thread_pool_destroy` after the join loop. -/
def DestroyStage.AfterJoin : DestroyStage → Prop
  | .start => False
  | .ignored => False
  | .shuttingDown => False
  | .joining _ => False
  | _ => True

section

variable
    {config : Config}
    {Client Func Arg Local : Type}

/-- No thread has a step to take on the pool. -/
def State.Unused
    (state : State config Client Func Arg Local) : Prop :=
  ∀ thread, (state.place thread).usesPool = false

/-- No client is inside `thread_pool_submit` or `thread_pool_wait`. -/
def State.Alone
    (state : State config Client Func Arg Local) : Prop :=
  ∀ name, state.pc (.client name) = .idle

/--
While the pool is torn down, from the end of the join loop on, every call of a
client has returned, and no thread has a step to take on the pool.
-/
structure TornDown
    (state : State config Client Func Arg Local) : Prop where
  returned :
    ∀ stage : DestroyStage,
      state.pc .destroyer = .destroying stage →
      stage.AfterJoin →
      state.Alone
  unused :
    ∀ stage : DestroyStage,
      state.pc .destroyer = .destroying stage →
      stage.AfterJoin →
      state.Unused

/-- Calls of clients begin while the pool is running. -/
def EntersRunning
    (state later : State config Client Func Arg Local) : Prop :=
  ∀ name,
    state.pc (.client name) = .idle →
    later.pc (.client name) ≠ .idle →
    state.shared.poolState = .running

instance
    [Fintype Client]
    [DecidableEq Func]
    [DecidableEq Arg]
    [DecidableEq Local]
    (state later : State config Client Func Arg Local) :
    Decidable (EntersRunning state later) :=
  inferInstanceAs (Decidable (∀ _, _))

/-- The step in which `thread_pool_destroy` takes the pool out of `RUNNING`. -/
def Begins
    (state later : State config Client Func Arg Local) : Prop :=
  state.pc .destroyer = .destroying .start ∧
    later.pc .destroyer = .destroying .shuttingDown

/-- When the destroyer begins no client is inside a call. -/
def BeginsAlone
    (state later : State config Client Func Arg Local) : Prop :=
  Begins state later → state.Alone

variable
    [DecidableEq Client]
    {behaviour : TaskBehaviour Func Arg Local}
    {state middle later : State config Client Func Arg Local}
    {thread : Thread config.numThreads Client}

/-- Runs in which clients call a running pool only. -/
def contract
    (config : Config)
    (Client : Type)
    [DecidableEq Client]
    (behaviour : TaskBehaviour Func Arg Local) :
    System (State config Client Func Arg Local) :=
  (system config Client behaviour).restrict EntersRunning

/-- After the join loop the pool is terminated and the workers are gone. -/
theorem Core.afterJoin
    (core : Core state)
    {stage : DestroyStage}
    (here : state.pc .destroyer = .destroying stage)
    (after : stage.AfterJoin) :
    state.shared.poolState = .terminated ∧
      ∀ index, state.pc (.worker index) = .exited := by
  have phase := core.phase stage here
  cases stage with
  | start
  | ignored
  | shuttingDown
  | joining next =>
      exact after.elim
  | _ =>
      exact ⟨phase.1, phase.2.2⟩

/-- A pool that is left alone after the join loop is torn down. -/
theorem Core.tornDown
    (core : Core state)
    (alone :
      ∀ stage : DestroyStage,
        state.pc .destroyer = .destroying stage →
        stage.AfterJoin →
        state.Alone) :
    TornDown state where
  returned := alone
  unused := by
    intro stage here after thread
    cases thread with
    | worker index =>
        simp [State.place, (core.afterJoin here after).2 index,
          Place.usesPool]
    | client name =>
        simp [State.place, alone stage here after name, Place.usesPool]
    | destroyer =>
        simp [State.place, here, Place.usesPool]

/-- Only a running pool has a destroyer that has not begun. -/
theorem Core.begun
    (core : Core state)
    (begun : state.pc .destroyer ≠ .destroying .start) :
    state.shared.poolState ≠ .running := by
  obtain ⟨stage, here⟩ := core.stage
  have phase := core.phase stage here
  cases stage with
  | start =>
      exact (begun here).elim
  | ignored =>
      exact phase.elim
  | _ =>
      rw [phase.1]
      exact nofun

/-- The destroyer begins once and does not go back. -/
theorem Next.begins
    (next : Next behaviour state later)
    (core : Core state) :
    (later.pc .destroyer = .destroying .start ↔
        state.pc .destroyer = .destroying .start) ∨
      Begins state later ∧
        ∀ name, later.pc (.client name) = .idle ↔
          state.pc (.client name) = .idle := by
  cases next with
  | step thread allocated step =>
      by_cases actor : .destroyer = thread
      · subst actor
        obtain ⟨stage, here⟩ := core.stage
        obtain ⟨next, there, move⟩ := step.destroyMove core here
        rw [here, there]
        cases move with
        | inQueue shuttingDown before after =>
            exact Or.inl Iff.rfl
        | onward follows =>
            cases follows with
            | begin =>
                refine Or.inr ⟨⟨here, there⟩, ?_⟩
                intro name
                exact iff_of_eq (step.observe_other idle_stable (by rintro ⟨⟩))
            | ignored =>
                exact ((step.core core).phase _ there).elim
            | release before after releases =>
                refine Or.inl (iff_of_false ?_ ?_)
                · rintro ⟨⟩
                  cases stage <;> simp [DestroyStage.released] at releases
                · rintro ⟨⟩
                  simp [DestroyStage.released] at releases
            | _ =>
                simp
      · exact Or.inl (iff_of_eq
          (step.observe_other (destroying_stable .start) actor))
  | queueSpurious thread allocated wakes =>
      exact Or.inl Iff.rfl
  | waitSpurious thread completed since caller allocated asleep =>
      exact Or.inl (iff_of_eq
        (observe_waitSpurious (destroying_stable .start) asleep _))

/-- Once the destroyer has begun alone it stays alone. -/
theorem Next.alone
    (next : Next behaviour state later)
    (core : Core state)
    (enters : EntersRunning state later)
    (beginsAlone : BeginsAlone state later)
    (alone : state.pc .destroyer ≠ .destroying .start → state.Alone)
    (begun : later.pc .destroyer ≠ .destroying .start) :
    later.Alone := by
  rcases next.begins core with same | ⟨begins, clients⟩
  · have before := mt same.mpr begun
    intro name
    by_contra entered
    exact core.begun before (enters name (alone before name) entered)
  · intro name
    exact (clients name).mpr (beginsAlone begins name)

/-- A destroyer that has begun has begun. -/
theorem Next.stays_begun
    (next : Next behaviour state later)
    (core : Core state)
    (begun : state.pc .destroyer ≠ .destroying .start) :
    later.pc .destroyer ≠ .destroying .start := by
  rcases next.begins core with same | ⟨begins, _⟩
  · exact mt same.mp begun
  · exact (begun begins.1).elim

/-- The destroyer does not begin a second time. -/
theorem run_beginsAlone
    (reachable :
      (contract config Client behaviour).Reachable state)
    (begun : state.pc .destroyer ≠ .destroying .start)
    (run : (contract config Client behaviour).Run state later) :
    ((contract config Client behaviour).restrict
      BeginsAlone).Run state later := by
  have kept :
      later.pc .destroyer ≠ .destroying .start ∧
        ((contract config Client behaviour).restrict
          BeginsAlone).Run state later := by
    induction run with
    | refl =>
        exact ⟨begun, .refl⟩
    | tail before next inductionHypothesis =>
        obtain ⟨begun, sofar⟩ := inductionHypothesis
        have core := reachable_core (reachable.run before).of_restrict
        exact ⟨next.1.stays_begun core begun,
          sofar.tail ⟨next, fun begins => (begun begins.1).elim⟩⟩
  exact kept.2

/-- A destroyer that begins alone tears the pool down. -/
theorem tornDown_of_run
    (reachable :
      (contract config Client behaviour).Reachable state)
    (alone : state.pc .destroyer ≠ .destroying .start → state.Alone)
    (run :
      ((contract config Client behaviour).restrict
        BeginsAlone).Run state later) :
    TornDown later := by
  have kept :
      (contract config Client behaviour).Reachable later ∧
        (later.pc .destroyer ≠ .destroying .start → later.Alone) := by
    induction run with
    | refl =>
        exact ⟨reachable, alone⟩
    | tail before next inductionHypothesis =>
        obtain ⟨sofar, alone⟩ := inductionHypothesis
        exact ⟨sofar.step next.1,
          next.1.1.alone (reachable_core sofar.of_restrict)
            next.1.2 next.2 alone⟩
  refine (reachable_core kept.1.of_restrict).tornDown ?_
  intro stage here after
  apply kept.2
  rw [here]
  rintro ⟨⟩
  exact after

/-- A run of clients of a running pool in which no call of a client returns. -/
structure Detains
    (behaviour : TaskBehaviour Func Arg Local)
    (state later : State config Client Func Arg Local) : Prop where
  run : (contract config Client behaviour).Run state later
  inside :
    ∀ name,
      later.pc (.client name) = .idle →
      state.pc (.client name) = .idle

/-- Such runs can be put together. -/
theorem Detains.trans
    (before : Detains behaviour state middle)
    (after : Detains behaviour middle later) :
    Detains behaviour state later where
  run := before.run.trans after.run
  inside name idle := before.inside name (after.inside name idle)

/-- One step in which nobody starts a call or returns from one. -/
theorem Next.detains
    (next : Next behaviour state later)
    (same :
      ∀ name,
        later.pc (.client name) = .idle ↔
          state.pc (.client name) = .idle) :
    Detains behaviour state later where
  run :=
    .single ⟨next, fun name idle entered =>
      (entered ((same name).mpr idle)).elim⟩
  inside name := (same name).mp

/-- A step of a worker or of the destroyer. -/
theorem Step.detains
    (step : Step behaviour state thread later)
    (allocated : ¬ state.Freed)
    (notClient : ∀ name, .client name ≠ thread) :
    Detains behaviour state later :=
  (Next.step thread allocated step).detains
    (fun name => iff_of_eq (step.observe_other idle_stable (notClient name)))

/-- How many steps the holder of `wait_lock` takes until it unlocks. -/
def State.untilUnlocked
    (state : State config Client Func Arg Local) : Nat :=
  match state.shared.waitLock with
  | none => 0
  | some thread => (state.pc thread).untilUnlocked

/-- A client that holds `wait_lock` goes on to unlock it, and stays inside. -/
theorem Step.unlocks
    {name : Client}
    (step : Step behaviour state (.client name) later)
    (core : Core state)
    (locked : state.shared.waitLock = some (.client name))
    (holds : (state.pc (.client name)).holdsWait = true) :
    later.pc (.client name) ≠ .idle ∧
      later.untilUnlocked < state.untilUnlocked := by
  have role := core.role (.client name)
  have agrees := core.agrees (.client name)
  cases step with
  | queue step =>
      have inside := step.inside.1
      cases here : state.pc (.client name) with
      | waiting stage since caller =>
          simp only [State.place, here] at agrees
          exact (inside agrees).elim
      | _ =>
          rw [here] at holds role
          first
          | exact Bool.noConfusion holds
          | exact Role.noConfusion role
  | @own shared place step =>
      obtain ⟨stays, less⟩ := step.unlocks role holds
      refine ⟨by simpa [State.put] using stays, ?_⟩
      have before : state.untilUnlocked =
          (state.pc (.client name)).untilUnlocked := by
        rw [State.untilUnlocked, locked]
      rw [before]
      rcases step.waitLock with ⟨same, _⟩ | ⟨free, _⟩ | ⟨_, given, _⟩
      · simpa [State.untilUnlocked, State.put, State.place, same, locked]
          using less
      · rw [locked] at free
        contradiction
      · simpa [State.untilUnlocked, State.put, State.place, given] using
          Nat.zero_lt_of_lt less
  | broadcast here
  | join next here inRange ended
  | destroyQueue heap here frees =>
      rw [here] at role
      exact Role.noConfusion role
  | destroyQueueFault here fails =>
      rw [here] at role
      exact Role.noConfusion role

/-- How far the pool is from being freed when no client moves but to unlock. -/
noncomputable def State.untilFreed
    (behaviour : TaskBehaviour Func Arg Local)
    (state : State config Client Func Arg Local) :
    Nat ×ₗ
      (Nat ×ₗ (Fin config.numThreads → Nat ×ₗ Ordinal.{0} ×ₗ Nat)) ×ₗ
        Nat :=
  toLex ((state.place .destroyer).destroyRank config.numThreads,
    toLex (state.measure behaviour, state.untilUnlocked))

/-- Until the pool is freed it can get closer to that with all calls inside. -/
theorem exists_closer
    (terminates :
      ∀ func arg, behaviour.Terminates (behaviour.enter func arg))
    (reachable :
      (contract config Client behaviour).Reachable state)
    (allocated : ¬ state.Freed) :
    ∃ later,
      Detains behaviour state later ∧
        later.untilFreed behaviour < state.untilFreed behaviour := by
  have core := reachable_core reachable.of_restrict
  obtain ⟨stage, here⟩ := core.stage
  by_cases joinable :
      ∀ next (inRange : next < config.numThreads),
        stage = .joining next →
        state.pc (.worker ⟨next, inRange⟩) = .exited
  · obtain ⟨later, step⟩ :=
      core.destroyer_enabled behaviour here
        (by rintro rfl; exact allocated here) joinable
    exact ⟨later, step.detains allocated (by rintro _ ⟨⟩),
      Prod.Lex.toLex_lt_toLex.mpr (Or.inl (step.destroyRank_lt core))⟩
  · -- The destroyer waits for a worker, which may wait for `wait_lock`.
    push Not at joinable
    obtain ⟨next, inRange, rfl, inLoop⟩ := joinable
    have closed := (core.phase _ here).2.1
    have onCourse :=
      (onCourse_kept terminates).reachable reachable.of_restrict
    have locks := holdsWait_kept.reachable reachable.of_restrict
    have rank :
        ∀ {thread later},
          Step behaviour state thread later →
          .destroyer ≠ thread →
          (later.place .destroyer).destroyRank config.numThreads =
            (state.place .destroyer).destroyRank config.numThreads :=
      fun step =>
        step.observe_other (Place.destroyRank_stable config.numThreads)
    by_cases free :
        ∀ name, (state.pc (.client name)).holdsWait = false
    · obtain ⟨index, later, step⟩ :=
        core.some_worker_enabled closed onCourse locks free inLoop
      refine ⟨later, step.detains allocated (by rintro _ ⟨⟩), ?_⟩
      exact Prod.Lex.toLex_lt_toLex.mpr
        (Or.inr ⟨rank step (by rintro ⟨⟩),
          Prod.Lex.toLex_lt_toLex.mpr
            (Or.inl (step.measure_lt core closed (onCourse _)))⟩)
    · simp only [not_forall, Bool.not_eq_false] at free
      obtain ⟨name, holds⟩ := free
      obtain ⟨later, step⟩ := client_enabled (core.role _) holds
      have next : Next behaviour state later :=
        .step (.client name) allocated step
      obtain ⟨stays, less⟩ :=
        step.unlocks core ((locks _).mp holds) holds
      refine ⟨later, next.detains ?_, ?_⟩
      · intro other
        by_cases same : other = name
        · subst same
          refine iff_of_false stays ?_
          intro idle
          rw [idle] at holds
          exact Bool.noConfusion holds
        · exact iff_of_eq (step.observe_other idle_stable
            (fun equal => same (Thread.client.inj equal)))
      · exact Prod.Lex.toLex_lt_toLex.mpr
          (Or.inr ⟨rank step (by rintro ⟨⟩),
            Prod.Lex.toLex_lt_toLex'.mpr
              ⟨next.measure_le core closed onCourse, fun _ => less⟩⟩)

/-- The pool can always be freed with everybody who is inside still inside. -/
theorem exists_freed_around
    (terminates :
      ∀ func arg, behaviour.Terminates (behaviour.enter func arg))
    (reachable :
      (contract config Client behaviour).Reachable state) :
    ∃ last, Detains behaviour state last ∧ last.Freed :=
  exists_reaches Detains.trans (State.untilFreed behaviour)
    State.Freed ⟨.refl, fun _ => id⟩
    (fun _ led allocated =>
      exists_closer terminates (reachable.run led.run) allocated)

/--
In every run whose destroyer begins with no client inside a call the pool is
torn down safely; and when the tasks terminate, the step in which the destroyer
begins is followed by a safe tear-down in all its continuations if and only if
no client is inside a call at that step.
-/
theorem tornDown_iff_beginsAlone
    (config : Config)
    (Client : Type)
    [DecidableEq Client]
    (behaviour : TaskBehaviour Func Arg Local) :
    (∀ state : State config Client Func Arg Local,
        ((contract config Client behaviour).restrict
          BeginsAlone).Reachable state →
        TornDown state) ∧
      ((∀ func arg, behaviour.Terminates (behaviour.enter func arg)) →
        ∀ state later : State config Client Func Arg Local,
          (contract config Client behaviour).Reachable state →
          (contract config Client behaviour).next state later →
          Begins state later →
          ((∀ last,
              (contract config Client behaviour).Run later last →
              TornDown last) ↔
            state.Alone)) := by
  constructor
  · rintro state ⟨first, rfl, run⟩
    exact tornDown_of_run (.start rfl) (fun begun => (begun rfl).elim) run
  · intro terminates state later reachable next begins
    have reached := reachable.step next
    have begun : later.pc .destroyer ≠ .destroying .start := by
      rw [begins.2]
      rintro ⟨⟩
    have clients :
        ∀ name, later.pc (.client name) = .idle ↔
          state.pc (.client name) = .idle := by
      rcases next.1.begins (reachable_core reachable.of_restrict) with
        same | ⟨_, clients⟩
      · exact (begun (same.mpr begins.1)).elim
      · exact clients
    constructor
    · intro tornDown name
      obtain ⟨last, detains, freed⟩ :=
        exists_freed_around terminates reached
      refine (clients name).mp (detains.inside name ?_)
      exact (tornDown last detains.run).returned .freed freed trivial name
    · intro alone last run
      exact tornDown_of_run reached
        (fun _ name => (clients name).mpr (alone name))
        (run_beginsAlone reached begun run)

end

/-- A pool that is destroyed once its client has submitted a task. -/
theorem tornDown_iff_beginsAlone_submitted :
    ∃ before begun last : State smallConfig Unit Nat Nat Unit,
      (contract smallConfig Unit idleTasks).Reachable before ∧
        before.shared.history.acknowledged = [0] ∧
        before.queue.queue.count = 1 ∧
        Begins before begun ∧
        ((contract smallConfig Unit idleTasks).restrict
          BeginsAlone).Reachable last ∧
        (contract smallConfig Unit idleTasks).Run begun last ∧
        last.Freed ∧
        TornDown last ∧
        ((∀ later,
            (contract smallConfig Unit idleTasks).Run begun later →
            TornDown later) ↔
          before.Alone) := by
  have start :
      ((contract smallConfig Unit idleTasks).restrict
        BeginsAlone).Reachable _ :=
    .start rfl
  have called := start.step
    ⟨⟨.step (.client ()) (by decide)
      (.own (.submit (.call _ .client 7 8 .normal trivial))),
      by decide⟩, nofun⟩
  have checked := called.step
    ⟨⟨.step (.client ()) (by decide)
      (.own (.submit (.checkPassed _ .client rfl))),
      by decide⟩, nofun⟩
  have allocated := checked.step
    ⟨⟨.step (.client ()) (by decide)
      (.queue (.alloc 7 ⟨0, 8⟩ .normal 0 0 rfl rfl)),
      by decide⟩, nofun⟩
  have linked := allocated.step
    ⟨⟨.step (.client ()) (by decide)
      (.queue (.pushLinked 7 ⟨0, 8⟩ 0 _ _ ∅ (.enter rfl)
        ⟨by simp, by decide⟩)),
      by decide⟩, nofun⟩
  have counted := linked.step
    ⟨⟨.step (.client ()) (by decide)
      (.own (.submit (.counted _ .client))),
      by decide⟩, nofun⟩
  have acknowledged := counted.step
    ⟨⟨.step (.client ()) (by decide)
      (.own (.submit (.acknowledged _ _ .client))),
      by decide⟩, nofun⟩
  have begun := acknowledged.step
    ⟨⟨.step .destroyer (by decide) (.own (.destroy (.begin rfl))),
      by decide⟩, fun _ _ => rfl⟩
  obtain ⟨last, detains, freed⟩ :=
    exists_freed_around idleTasks_terminates begun.of_restrict
  have reachable := begun.run
    (run_beginsAlone begun.of_restrict (by rintro ⟨⟩) detains.run)
  refine ⟨_, _, last, acknowledged.of_restrict, rfl, rfl, ?_,
    reachable, detains.run, freed,
    (tornDown_iff_beginsAlone smallConfig Unit idleTasks).1 _ reachable,
    (tornDown_iff_beginsAlone smallConfig Unit idleTasks).2
      idleTasks_terminates _ _ acknowledged.of_restrict ?_ ?_⟩
  · exact ⟨rfl, rfl⟩
  · exact ⟨.step .destroyer (by decide) (.own (.destroy (.begin rfl))),
      by decide⟩
  · exact ⟨rfl, rfl⟩

/--
A pool that is freed while a client is still in `task_queue_push`: the client
has passed the test of the state and not yet allocated its node.
-/
theorem exists_not_tornDown :
    ∃ state : State smallConfig Unit Nat Nat Unit,
      (contract smallConfig Unit idleTasks).Reachable state ∧
        state.Freed ∧
        (state.place (.client ())).usesPool = true ∧
        ¬ TornDown state := by
  have start : (contract smallConfig Unit idleTasks).Reachable _ :=
    .start rfl
  have called := start.step
    ⟨.step (.client ()) (by decide)
      (.own (.submit (.call _ .client 7 8 .normal trivial))),
      by decide⟩
  have checked := called.step
    ⟨.step (.client ()) (by decide)
      (.own (.submit (.checkPassed _ .client rfl))),
      by decide⟩
  -- The destroyer shuts the pool down and the worker leaves its loop.
  have begun := checked.step
    ⟨.step .destroyer (by decide) (.own (.destroy (.begin rfl))),
      by decide⟩
  have closed := begun.step
    ⟨.step .destroyer (by decide) (.queue (.shutdown rfl)), by decide⟩
  have joining := closed.step
    ⟨.step .destroyer (by decide) (.own (.destroy .shutDown)),
      by decide⟩
  have popping := joining.step
    ⟨.step (.worker 0) (by decide) (.own (.worker .pop)), by decide⟩
  have empty := popping.step
    ⟨.step (.worker 0) (by decide)
      (.queue (.popEmpty .pop (.enter rfl))),
      by decide⟩
  have exited := empty.step
    ⟨.step (.worker 0) (by decide) (.own (.worker .popFailed)),
      by decide⟩
  have joined := exited.step
    ⟨.step .destroyer (by decide) (.join 0 rfl (by decide) rfl),
      by decide⟩
  -- Nothing holds the destroyer up any more.
  have terminated := joined.step
    ⟨.step .destroyer (by decide)
      (.own (.destroy (.terminate _ 1 (by decide)))),
      by decide⟩
  have freedWorkers := terminated.step
    ⟨.step .destroyer (by decide)
      (.own (.destroy (.release _ .freeingWorkers _ rfl))),
      by decide⟩
  have destroyedCond := freedWorkers.step
    ⟨.step .destroyer (by decide)
      (.own (.destroy (.release _ .destroyingCond _ rfl))),
      by decide⟩
  have destroyedMutex := destroyedCond.step
    ⟨.step .destroyer (by decide)
      (.own (.destroy (.release _ .destroyingMutex _ rfl))),
      by decide⟩
  have destroyedQueue := destroyedMutex.step
    ⟨.step .destroyer (by decide) (.destroyQueue _ rfl rfl), by decide⟩
  have freed := destroyedQueue.step
    ⟨.step .destroyer (by decide)
      (.own (.destroy (.release _ .freeingPool _ rfl))),
      by decide⟩
  refine ⟨_, freed, rfl, rfl, ?_⟩
  intro tornDown
  have unused := tornDown.unused .freed rfl trivial (.client ())
  exact Bool.noConfusion unused

end SThread.ThreadPool
