import Mathlib.Data.Fintype.Order
import SThread.ThreadPool.CallsReturn

namespace SThread.ThreadPool

open SThread.Library
open SThread.Scheduler

/-!
# No accepted task starves

Clients may go on submitting and waiting for ever.  As long as the scheduler lets
everybody go on who can do so again and again, every task that has been linked
is finished in the end: the queue is in the order of the submissions, so only
finitely many tasks come before it, and while there is one the workers cannot
all be asleep.

The one thing that may hold a worker up is `wait_lock`, and whoever holds it
gives it back.
-/

/-- How many steps a thread takes before it gives `wait_lock` back. -/
def Pc.critical
    {Func Arg Local : Type} :
    Pc Func Arg Local → Nat
  | .broadcasting => 1
  | .waiting (.testing completed submitted) _ _ =>
      1 + completed.isNone.toNat + submitted.isNone.toNat
  | _ => 0

/-- No wake-up is a step towards that. -/
theorem Pc.critical_stable
    {Func Arg Local : Type} :
    Place.Stable
      (fun place : Place Func Arg Local => place.pc.critical) :=
  ⟨fun _ _ => rfl, fun _ _ _ _ _ => rfl, fun _ _ _ _ _ => rfl⟩

namespace LocalStep

variable
    {Owner Func Arg Local : Type}
    {behaviour : TaskBehaviour Func Arg Local}
    {thread : Owner}
    {numThreads : Nat}
    {shared shared' : Shared Owner Func Arg}
    {place place' : Place Func Arg Local}

/-- One step does not pass `wait_lock` on. -/
theorem waitLock_cases
    (step :
      LocalStep behaviour thread numThreads
        shared place shared' place') :
    shared'.waitLock = shared.waitLock ∨
      shared.waitLock = none ∨
      shared'.waitLock = none := by
  cases step with
  | worker step =>
      cases step with
      | lock call free =>
          exact Or.inr (Or.inl free)
      | unlock call =>
          exact Or.inr (Or.inr rfl)
      | _ =>
          exact Or.inl rfl
  | submit step =>
      cases step <;> exact Or.inl rfl
  | wait step =>
      cases step with
      | lock call since caller free
      | wake call completed wake since caller awake free =>
          exact Or.inr (Or.inl free)
      | sleep call completed submitted since caller behind
      | unlock call completed submitted since caller =>
          exact Or.inr (Or.inr rfl)
      | _ =>
          exact Or.inl rfl
  | destroy step =>
      cases step <;> exact Or.inl rfl

/-- Whoever holds it gets closer to giving it back. -/
theorem critical_lt
    (step :
      LocalStep behaviour thread numThreads
        shared place shared' place')
    (holds : place.pc.holdsWait = true)
    (keeps : shared'.waitLock ≠ none) :
    place'.pc.critical < place.pc.critical := by
  cases step with
  | worker step =>
      cases step with
      | unlock call =>
          exact (keeps rfl).elim
      | _ =>
          exact Bool.noConfusion holds
  | submit step =>
      cases step with
      | callNull call caller arg priority may
      | call call caller func arg priority may =>
          cases caller <;> exact Bool.noConfusion holds
      | _ =>
          exact Bool.noConfusion holds
  | wait step =>
      cases step with
      | call call caller may =>
          cases caller <;> exact Bool.noConfusion holds
      | sleep call completed submitted since caller behind
      | unlock call completed submitted since caller =>
          exact (keeps rfl).elim
      | loadCompleted call submitted since caller
      | loadSubmitted call completed since caller
      | pass call completed submitted since caller reached =>
          simp [Pc.critical]
      | _ =>
          exact Bool.noConfusion holds
  | destroy step =>
      cases step <;> exact Bool.noConfusion holds

end LocalStep

/-- The task that a thread has removed and not finished. -/
def Place.unfinished
    {Func Arg Local : Type}
    (place : Place Func Arg Local) : Multiset Nat :=
  place.uncalled.map taskId + place.executing

/-- It is still the same after a wake-up. -/
theorem Place.unfinished_stable
    {Func Arg Local : Type} :
    Place.Stable
      (fun place : Place Func Arg Local => place.unfinished) where
  notEmpty := by
    intro pc wake
    cases pc <;> rfl
  notFull := by
    intro pc func arg node wake
    cases pc <;> rfl
  waitCond := by
    intro call completed since caller wake
    rfl

section

variable
    {config : Config}
    {Client Func Arg Local : Type}
    [DecidableEq Client]
    {behaviour : TaskBehaviour Func Arg Local}
    {state later : State config Client Func Arg Local}
    {thread : Thread config.numThreads Client}

/-- Nobody takes `wait_lock` in the step in which it is given back. -/
theorem Next.waitLock_cases
    (next : Next behaviour state later) :
    later.shared.waitLock = state.shared.waitLock ∨
      state.shared.waitLock = none ∨
      later.shared.waitLock = none := by
  cases next with
  | step thread allocated step =>
      cases step with
      | own step =>
          exact step.waitLock_cases
      | _ =>
          exact Or.inl rfl
  | queueSpurious thread allocated wakes
  | waitSpurious thread completed since caller allocated here =>
      exact Or.inl rfl

/-- Every step of its holder is a step towards giving it back. -/
theorem Step.critical_lt
    (step : Step behaviour state thread later)
    (core : Core state)
    (holds : (state.pc thread).holdsWait = true)
    (keeps : later.shared.waitLock ≠ none) :
    (later.place thread).pc.critical <
      (state.place thread).pc.critical := by
  cases step with
  | queue step =>
      have agrees := core.agrees thread
      exfalso
      cases here : state.pc thread with
      | broadcasting
      | unlocking
      | waiting stage since caller =>
          simp only [State.place, here, Place.Agrees] at agrees
          exact step.inside.1 agrees
      | _ =>
          rw [here] at holds
          exact Bool.noConfusion holds
  | own step =>
      simpa [State.place, State.put] using step.critical_lt holds keeps
  | broadcast here =>
      simp [State.place, broadcast_actor, here, Pc.critical]
  | join next here inRange ended
  | destroyQueue heap here frees
  | destroyQueueFault here fails =>
      rw [here] at holds
      exact Bool.noConfusion holds

/-- What has been linked and removed stays so. -/
theorem Step.grows
    (step : Step behaviour state thread later)
    (core : Core state) :
    state.queue.linked <+: later.queue.linked ∧
      state.queue.removed <+: later.queue.removed := by
  cases step with
  | queue step =>
      obtain ⟨channel, nodes, refines⟩ := core.refines
      obtain ⟨linked, removed, linkedIs, removedIs, _⟩ :=
        step.effect refines
      exact ⟨⟨linked, linkedIs.symm⟩, ⟨removed, removedIs.symm⟩⟩
  | _ =>
      exact ⟨List.prefix_refl _, List.prefix_refl _⟩

/-- In every run. -/
theorem run_grows
    (reachable :
      (system config Client behaviour).Reachable state)
    (run : (system config Client behaviour).Run state later) :
    state.queue.linked <+: later.queue.linked ∧
      state.queue.removed <+: later.queue.removed := by
  induction run with
  | refl =>
      exact ⟨List.prefix_refl _, List.prefix_refl _⟩
  | @tail middle last before next inductionHypothesis =>
      obtain ⟨linked, removed⟩ := inductionHypothesis
      cases next with
      | step thread allocated step =>
          have grown := step.grows (reachable_core (reachable.run before))
          exact ⟨linked.trans grown.1, removed.trans grown.2⟩
      | queueSpurious thread allocated wakes
      | waitSpurious thread completed since caller allocated here =>
          exact ⟨linked, removed⟩

/-- A task that a thread has removed stays with it until it is finished. -/
theorem Step.unfinished
    (step : Step behaviour state thread later)
    (core : Core state)
    {id : Nat}
    (carries : id ∈ (state.place thread).unfinished) :
    id ∈ later.shared.history.finished ∨
      id ∈ (later.place thread).unfinished := by
  have calls :=
    congrArg (fun tasks => (tasks.map taskId).count id)
      (callingAccount_sound.matches_step step core)
  have executes :=
    congrArg (Multiset.count id)
      (executingAccount_sound.matches_step step core)
  have more :
      ((state.queue.removed.map taskId).count id) ≤
        (later.queue.removed.map taskId).count id :=
    ((step.grows core).2.sublist.map taskId).count_le id
  simp only [callingAccount, executingAccount, State.record,
    Shared.record, taskIds, Multiset.map_add, Multiset.count_add,
    Multiset.map_coe, Multiset.coe_count] at calls executes
  have carried := Multiset.count_pos.mpr carries
  rw [Place.unfinished, Multiset.count_add] at carried
  by_contra neither
  rw [not_or] at neither
  have unfinished := List.count_eq_zero.mpr neither.1
  have gone := Multiset.count_eq_zero.mpr neither.2
  rw [Place.unfinished, Multiset.count_add] at gone
  omega

/-- A worker with a task, or before a queue from which nobody removes, gets closer. -/
theorem Step.closer
    {index : Fin config.numThreads}
    (step : Step behaviour state (.worker index) later)
    (core : Core state)
    (asClient : (state.pc (.worker index)).SubmitsAsClient)
    (onCourse : (state.pc (.worker index)).OnCourse behaviour) :
    (later.place (.worker index)).rank behaviour <
        (state.place (.worker index)).rank behaviour ∨
      (state.place (.worker index)).unfinished = 0 ∧
        (state.queue.queue.count = 0 ∨
          state.queue.removed.length < later.queue.removed.length) := by
  have role := core.role (.worker index)
  cases step with
  | @queue queue step =>
      obtain ⟨channel, nodes, refines⟩ := core.refines
      obtain ⟨linked, removed, linkedIs, removedIs, effect⟩ :=
        step.effect refines
      obtain ⟨popping, inside⟩ := core.worker_popping step asClient
      have nothing :
          (state.queue.pc (.worker index)).held = [] →
            (state.place (.worker index)).unfinished = 0 := by
        intro held
        simp [Place.unfinished, State.place, popping, Place.uncalled,
          Place.executing, held]
      rcases Place.pop_rank behaviour inside step.awake effect with
        ⟨held, some⟩ | closer | ⟨⟨held, empty⟩, _⟩
      · refine Or.inr ⟨nothing held, Or.inr ?_⟩
        have positive := List.length_pos_iff.mpr some
        simp only [removedIs, List.length_append]
        omega
      · exact Or.inl (by simpa only [State.place, popping] using closer)
      · exact Or.inr ⟨nothing held, Or.inl empty⟩
  | own step =>
      refine Or.inl ?_
      simpa [State.place, State.put] using step.rank_lt role onCourse
  | broadcast here =>
      refine Or.inl (Place.rank_lt_of_phase behaviour ?_)
      simp [State.place, broadcast_actor, here, Place.phase]
  | join next here inRange ended
  | destroyQueue heap here frees
  | destroyQueueFault here fails =>
      rw [here] at role
      exact Role.noConfusion role

/-- A worker with a task is awake, in its loop, and can go on but for `wait_lock`. -/
theorem Core.unfinished_enabled
    (core : Core state)
    {index : Fin config.numThreads}
    (asClient : (state.pc (.worker index)).SubmitsAsClient)
    (onCourse : (state.pc (.worker index)).OnCourse behaviour)
    (unlocked : state.shared.waitLock = none)
    {id : Nat}
    (carries : id ∈ (state.place (.worker index)).unfinished) :
    ∃ later, Step behaviour state (.worker index) later := by
  have role := core.role (.worker index)
  have agrees := core.agrees (.worker index)
  refine core.worker_enabled ⟨?_, ?_⟩ onCourse ?_ (fun _ => unlocked)
  · rw [Bool.eq_false_iff]
    intro asleep
    have call := Scheduler.Pc.asleepNotEmpty_iff.mp asleep
    simp [Place.unfinished, State.place, core.popping_of_asleep call,
      call, Place.uncalled, Place.executing, Scheduler.Pc.held]
      at carries
  · rw [Bool.eq_false_iff]
    intro asleep
    obtain ⟨func, arg, node, call⟩ :=
      Scheduler.Pc.asleepNotFull_iff.mp asleep
    obtain ⟨submission, caller, here⟩ := core.submitting_of_pushWait call
    rw [here] at asClient role
    obtain rfl := asClient
    exact Role.noConfusion role
  · intro exited
    simp [Place.unfinished, State.place, exited, Place.uncalled,
      Place.executing] at carries

/-- Only workers have tasks. -/
theorem Core.worker_of_unfinished
    (core : Core state)
    {id : Nat}
    (carries : id ∈ (state.place thread).unfinished) :
    ∃ index, thread = .worker index := by
  have role := core.role thread
  have isWorker : (state.pc thread).role = .worker := by
    cases here : state.pc thread with
    | submitting stage submission caller
    | waiting stage since caller =>
        cases caller with
        | client =>
            simp [Place.unfinished, State.place, here, Place.uncalled,
              Place.executing, Caller.ids] at carries
        | task item place =>
            rfl
    | idle
    | destroying stage =>
        simp [Place.unfinished, State.place, here, Place.uncalled,
          Place.executing] at carries
    | _ =>
        rfl
  rw [isWorker] at role
  cases thread with
  | worker index =>
      exact ⟨index, rfl⟩
  | client name
  | destroyer =>
      exact Role.noConfusion role

/-- A task that has been removed is finished, or a worker has it. -/
theorem reachable_held
    [Fintype Client]
    (reachable :
      (system config Client behaviour).Reachable state)
    {task : Func × Job Arg}
    (removed : task ∈ state.queue.removed) :
    taskId task ∈ state.shared.history.finished ∨
      ∃ index, taskId task ∈ (state.place (.worker index)).unfinished := by
  have core := reachable_core reachable
  have calls := callingAccount_sound.balanced reachable
  have executes := executingAccount_sound.balanced reachable
  simp only [callingAccount, executingAccount, State.record,
    Shared.record] at calls executes
  have held :
      ∀ thread,
        taskId task ∈ (state.place thread).unfinished →
        ∃ index,
          taskId task ∈ (state.place (.worker index)).unfinished := by
    intro thread carries
    obtain ⟨index, rfl⟩ := core.worker_of_unfinished carries
    exact ⟨index, carries⟩
  have known : task ∈ (↑state.queue.removed : Multiset _) := removed
  rw [calls, Multiset.mem_add] at known
  rcases known with called | uncalled
  · have known :
        taskId task ∈ taskIds state.shared.history.called :=
      Multiset.mem_map_of_mem taskId called
    rw [executes, Multiset.mem_add] at known
    refine known.imp id ?_
    intro executing
    obtain ⟨thread, _, executing⟩ := Multiset.mem_sum.mp executing
    exact held thread (Multiset.mem_add.mpr (Or.inr executing))
  · obtain ⟨thread, _, uncalled⟩ := Multiset.mem_sum.mp uncalled
    refine Or.inr (held thread (Multiset.mem_add.mpr (Or.inl ?_)))
    exact Multiset.mem_map_of_mem taskId uncalled

/-- A thread inside a call or in its loop goes on; the destroyer may take its time. -/
def Moves
    (behaviour : TaskBehaviour Func Arg Local)
    (thread : Thread config.numThreads Client)
    (state later : State config Client Func Arg Local) : Prop :=
  thread ≠ .destroyer ∧
    ¬ state.Freed ∧
    state.pc thread ≠ .idle ∧
    Step behaviour state thread later

/-- A run in which everybody goes on who can do so again and again. -/
structure FairRun
    (behaviour : TaskBehaviour Func Arg Local)
    (run : Nat → State config Client Func Arg Local) : Prop where
  first :
    (system config Client behaviour).Reachable (run 0)
  steps :
    ∀ time,
      Next behaviour (run time) (run (time + 1)) ∨
        run (time + 1) = run time
  fair :
    StronglyFair (Moves behaviour) run

namespace FairRun

variable
    {run : Nat → State config Client Func Arg Local}

/-- All its states are reachable. -/
theorem reachable
    (fairRun : FairRun behaviour run)
    (time : Nat) :
    (system config Client behaviour).Reachable (run time) := by
  induction time with
  | zero =>
      exact fairRun.first
  | succ time inductionHypothesis =>
      rcases fairRun.steps time with next | same
      · exact inductionHypothesis.step next
      · rw [same]
        exact inductionHypothesis

/-- What a move of a thread and a wake-up keep is kept in it. -/
theorem kept
    (fairRun : FairRun behaviour run)
    {Value : Type*}
    {observe : Place Func Arg Local → Value}
    (stable : Place.Stable observe)
    (thread : Thread config.numThreads Client)
    (time : Nat) :
    observe ((run (time + 1)).place thread) =
        observe ((run time).place thread) ∨
      ¬ (run time).Freed ∧
        Step behaviour (run time) thread (run (time + 1)) := by
  rcases fairRun.steps time with next | same
  · generalize run (time + 1) = later at next
    cases next with
    | step actor allocated step =>
        by_cases itself : thread = actor
        · subst itself
          exact Or.inr ⟨allocated, step⟩
        · exact Or.inl (step.observe_other stable itself)
    | queueSpurious actor allocated wakes =>
        exact Or.inl (observe_queueSpurious stable wakes thread)
    | waitSpurious actor completed since caller allocated here =>
        exact Or.inl (observe_waitSpurious stable here thread)
  · exact Or.inl (by rw [same])

/-- Between two times it is a finite run. -/
theorem run_until
    (fairRun : FairRun behaviour run)
    {time late : Nat}
    (after : time ≤ late) :
    (system config Client behaviour).Run (run time) (run late) := by
  induction late, after using Nat.le_induction with
  | base =>
      exact .refl
  | succ late after inductionHypothesis =>
      rcases fairRun.steps late with next | same
      · exact inductionHypothesis.tail next
      · rw [same]
        exact inductionHypothesis

/-- What has been linked and removed stays so in it. -/
theorem grows
    (fairRun : FairRun behaviour run)
    {time late : Nat}
    (after : time ≤ late) :
    (run time).queue.linked <+: (run late).queue.linked ∧
      (run time).queue.removed <+: (run late).queue.removed :=
  run_grows (fairRun.reachable time) (fairRun.run_until after)

/-- Again and again nobody holds `wait_lock`. -/
theorem released
    (fairRun : FairRun behaviour run)
    (terminates :
      ∀ func arg, behaviour.Terminates (behaviour.enter func arg))
    (alive : ∀ time, ¬ (run time).Freed)
    (time : Nat) :
    ∃ late, time ≤ late ∧ (run late).shared.waitLock = none := by
  by_contra never
  have locked :
      ∀ late, time ≤ late → (run late).shared.waitLock ≠ none :=
    fun late after free => never ⟨late, after, free⟩
  obtain ⟨holder, first⟩ :=
    Option.ne_none_iff_exists'.mp (locked time (le_refl _))
  have stays :
      ∀ late,
        time ≤ late → (run late).shared.waitLock = some holder := by
    intro late after
    induction late, after using Nat.le_induction with
    | base =>
        exact first
    | succ late after inductionHypothesis =>
        rcases fairRun.steps late with next | same
        · rcases next.waitLock_cases with kept | free | free
          · rw [kept]
            exact inductionHypothesis
          · exact (locked late after free).elim
          · exact (locked _ (Nat.le_succ_of_le after) free).elim
        · rw [same]
          exact inductionHypothesis
  have holds :
      ∀ late,
        time ≤ late → ((run late).pc holder).holdsWait = true := by
    intro late after
    exact (holdsWait_kept.reachable (fairRun.reachable late) holder).mpr
      (stays late after)
  have decreases :
      ∀ late,
        time ≤ late →
        Step behaviour (run late) holder (run (late + 1)) →
        ((run (late + 1)).place holder).pc.critical <
          ((run late).place holder).pc.critical := by
    intro late after step
    exact step.critical_lt (reachable_core (fairRun.reachable late))
      (holds late after) (locked _ (Nat.le_succ_of_le after))
  obtain ⟨settled, stuck⟩ :=
    fairRun.fair.stuck holder
      (fun state => (state.place holder).pc.critical) time
      (fun late after => by
        rcases fairRun.kept Pc.critical_stable holder late with
          same | ⟨_, step⟩
        · exact same.le
        · exact (decreases late after step).le)
      (fun late after move => decreases late after move.2.2.2)
  have after : time ≤ max time settled := le_max_left _ _
  have core := reachable_core (fairRun.reachable (max time settled))
  obtain ⟨notDestroyer, busy⟩ := core.holder_busy (holds _ after)
  obtain ⟨later, step⟩ :=
    core.holder_enabled
      ((onCourse_kept terminates).reachable (fairRun.reachable _) holder)
      (holds _ after)
  exact stuck _ (le_max_right _ _) later
    ⟨notDestroyer, alive _, busy, step⟩

/-- A worker that always gets closer is stuck in the end. -/
theorem worker_stuck
    (fairRun : FairRun behaviour run)
    (alive : ∀ time, ¬ (run time).Freed)
    (index : Fin config.numThreads)
    (since : Nat)
    (closer :
      ∀ time,
        since ≤ time →
        Step behaviour (run time) (.worker index) (run (time + 1)) →
        ((run (time + 1)).place (.worker index)).rank behaviour <
          ((run time).place (.worker index)).rank behaviour) :
    ∃ settled,
      ∀ time,
        settled ≤ time →
        ∀ later, ¬ Step behaviour (run time) (.worker index) later := by
  obtain ⟨settled, stuck⟩ :=
    fairRun.fair.stuck (.worker index)
      (fun state => (state.place (.worker index)).rank behaviour) since
      (fun time late => by
        rcases fairRun.kept (Place.rank_stable behaviour)
            (.worker index) time with same | ⟨_, step⟩
        · exact same.le
        · exact (closer time late step).le)
      (fun time late move => closer time late move.2.2.2)
  refine ⟨settled, fun time late later step => ?_⟩
  refine stuck time late later ⟨by rintro ⟨⟩, alive _, ?_, step⟩
  intro idle
  have role :=
    (reachable_core (fairRun.reachable time)).role (.worker index)
  rw [idle] at role
  exact Role.noConfusion role

/-- A worker finishes the task that it has. -/
theorem finishes
    (fairRun : FairRun behaviour run)
    (terminates :
      ∀ func arg, behaviour.Terminates (behaviour.enter func arg))
    (submitsNothing : behaviour.SubmitsNothing)
    (alive : ∀ time, ¬ (run time).Freed)
    {time : Nat}
    {index : Fin config.numThreads}
    {id : Nat}
    (carries : id ∈ ((run time).place (.worker index)).unfinished) :
    ∃ late, time ≤ late ∧ id ∈ (run late).shared.history.finished := by
  by_contra never
  have stays :
      ∀ late,
        time ≤ late →
        id ∈ ((run late).place (.worker index)).unfinished := by
    intro late after
    induction late, after using Nat.le_induction with
    | base =>
        exact carries
    | succ late after inductionHypothesis =>
        rcases fairRun.kept Place.unfinished_stable
            (.worker index) late with same | ⟨_, step⟩
        · rw [same]
          exact inductionHypothesis
        · refine (step.unfinished (reachable_core (fairRun.reachable late))
            inductionHypothesis).resolve_left ?_
          intro finished
          exact never ⟨_, Nat.le_succ_of_le after, finished⟩
  have asClient :=
    fun late =>
      (submitsAsClient_kept submitsNothing).reachable
        (fairRun.reachable late) (.worker index)
  have onCourse :=
    fun late =>
      (onCourse_kept terminates).reachable
        (fairRun.reachable late) (.worker index)
  obtain ⟨settled, stuck⟩ :=
    fairRun.worker_stuck alive index time (fun late after step => by
      refine (step.closer (reachable_core (fairRun.reachable late))
        (asClient late) (onCourse late)).resolve_right ?_
      rintro ⟨nothing, _⟩
      have here := stays late after
      rw [nothing] at here
      exact Multiset.notMem_zero _ here)
  obtain ⟨late, after, unlocked⟩ :=
    fairRun.released terminates alive (max time settled)
  have core := reachable_core (fairRun.reachable late)
  obtain ⟨later, step⟩ :=
    core.unfinished_enabled (asClient late) (onCourse late) unlocked
      (stays late (le_of_max_le_left after))
  exact stuck late (le_of_max_le_right after) later step

/-- While there is a task in the queue another one is removed some time. -/
theorem removes
    [Fintype Client]
    (fairRun : FairRun behaviour run)
    (terminates :
      ∀ func arg, behaviour.Terminates (behaviour.enter func arg))
    (submitsNothing : behaviour.SubmitsNothing)
    (alive : ∀ time, ¬ (run time).Freed)
    {time : Nat}
    (waiting :
      (run time).queue.removed.length < (run time).queue.linked.length) :
    ∃ late,
      time ≤ late ∧
        (run time).queue.removed.length <
          (run late).queue.removed.length := by
  by_contra never
  have available :
      ∀ late,
        time ≤ late →
        (run late).queue.removed.length =
            (run time).queue.removed.length ∧
          (run late).queue.queue.count ≠ 0 := by
    intro late after
    obtain ⟨linked, removed⟩ := fairRun.grows after
    have notMore :
        ¬ (run time).queue.removed.length <
          (run late).queue.removed.length :=
      fun more => never ⟨late, after, more⟩
    have lengths :=
      (reachable_core (fairRun.reachable late)).length_linked
    have moreLinked := linked.length_le
    have moreRemoved := removed.length_le
    omega
  have asClient :=
    fun late =>
      (submitsAsClient_kept submitsNothing).reachable
        (fairRun.reachable late)
  have onCourse :=
    fun late =>
      (onCourse_kept terminates).reachable (fairRun.reachable late)
  have stuck :
      ∀ index : Fin config.numThreads,
        ∃ settled,
          ∀ late,
            settled ≤ late →
            ∀ later,
              ¬ Step behaviour (run late) (.worker index) later := by
    intro index
    refine fairRun.worker_stuck alive index time ?_
    intro late after step
    refine (step.closer (reachable_core (fairRun.reachable late))
      (asClient late _) (onCourse late _)).resolve_right ?_
    rintro ⟨_, empty | more⟩
    · exact (available late after).2 empty
    · have now := (available late after).1
      have next := (available (late + 1) (Nat.le_succ_of_le after)).1
      omega
  choose settled stuck using stuck
  obtain ⟨bound, bounds⟩ := Finite.exists_le settled
  obtain ⟨late, after, unlocked⟩ :=
    fairRun.released terminates alive (max time bound)
  have core := reachable_core (fairRun.reachable late)
  have nonempty := (available late (le_of_max_le_left after)).2
  have unable :
      ∀ index later,
        ¬ Step behaviour (run late) (.worker index) later :=
    fun index =>
      stuck index late ((bounds index).trans (le_of_max_le_right after))
  cases closed : (run late).queue.queue.shutdown with
  | false =>
      refine nonempty (core.empty_of_asleep ?_)
      intro index
      exact core.worker_asleep closed unlocked (asClient late _)
        (onCourse late _) (unable index)
  | true =>
      have inLoop : (run late).pc (.worker 0) ≠ .exited :=
        fun exited => nonempty (core.drained 0 exited).2
      obtain ⟨later, step⟩ :=
        core.worker_enabled (core.awake closed _) (onCourse late _)
          inLoop (fun _ => unlocked)
      exact unable 0 later step

/-- So as many tasks are removed some time as have been linked. -/
theorem reaches
    [Fintype Client]
    (fairRun : FairRun behaviour run)
    (terminates :
      ∀ func arg, behaviour.Terminates (behaviour.enter func arg))
    (submitsNothing : behaviour.SubmitsNothing)
    (alive : ∀ time, ¬ (run time).Freed)
    {time count : Nat}
    (linked : count ≤ (run time).queue.linked.length) :
    ∃ late,
      time ≤ late ∧ count ≤ (run late).queue.removed.length := by
  induction count with
  | zero =>
      exact ⟨time, le_refl _, Nat.zero_le _⟩
  | succ count inductionHypothesis =>
      obtain ⟨middle, sofar, reached⟩ :=
        inductionHypothesis (Nat.le_of_succ_le linked)
      by_cases already : count < (run middle).queue.removed.length
      · exact ⟨middle, sofar, already⟩
      · have longer := (fairRun.grows sofar).1.length_le
        obtain ⟨late, after, more⟩ :=
          fairRun.removes terminates submitsNothing alive
            (show (run middle).queue.removed.length <
                (run middle).queue.linked.length by omega)
        exact ⟨late, sofar.trans after, by omega⟩

/-- Once the pool has been freed nothing happens any more. -/
theorem freed_stays
    (fairRun : FairRun behaviour run)
    {time late : Nat}
    (freed : (run time).Freed)
    (after : time ≤ late) :
    run late = run time := by
  induction late, after using Nat.le_induction with
  | base =>
      rfl
  | succ late after inductionHypothesis =>
      rcases fairRun.steps late with next | same
      · have allocated : ¬ (run late).Freed := by
          generalize run (late + 1) = later at next
          cases next with
          | step actor allocated step =>
              exact allocated
          | queueSpurious actor allocated wakes
          | waitSpurious actor completed since caller allocated here =>
              exact allocated
        rw [inductionHypothesis] at allocated
        exact (allocated freed).elim
      · rw [same, inductionHypothesis]

end FairRun

/-- A freed pool has finished every task that was linked. -/
theorem reachable_finished_of_freed
    [Fintype Client]
    (reachable :
      (system config Client behaviour).Reachable state)
    (freed : state.Freed)
    {task : Func × Job Arg}
    (linked : task ∈ state.queue.linked) :
    taskId task ∈ state.shared.history.finished := by
  have core := reachable_core reachable
  have exited := (core.phase _ freed).2.2
  have empty := (core.drained_of_exited exited).2
  rw [← core.removed_of_empty empty] at linked
  refine (reachable_held reachable linked).resolve_right ?_
  rintro ⟨index, carries⟩
  simp [Place.unfinished, State.place, exited index, Place.uncalled,
    Place.executing] at carries

/-- In a fair run every task that has been linked is finished some time. -/
theorem FairRun.serves
    [Fintype Client]
    {run : Nat → State config Client Func Arg Local}
    (fairRun : FairRun behaviour run)
    (terminates :
      ∀ func arg, behaviour.Terminates (behaviour.enter func arg))
    (submitsNothing : behaviour.SubmitsNothing)
    {time : Nat}
    {task : Func × Job Arg}
    (linked : task ∈ (run time).queue.linked) :
    ∃ late,
      time ≤ late ∧ taskId task ∈ (run late).shared.history.finished := by
  by_cases alive : ∀ time, ¬ (run time).Freed
  · obtain ⟨place, inside, here⟩ := List.getElem_of_mem linked
    obtain ⟨late, after, reached⟩ :=
      fairRun.reaches terminates submitsNothing alive
        (Nat.succ_le_of_lt inside)
    have first :=
      (reachable_core (fairRun.reachable late)).removed_first
    have removed : task ∈ (run late).queue.removed := by
      have same := (fairRun.grows after).1.getElem inside
      rw [here, ← first.getElem reached] at same
      rw [same]
      exact List.getElem_mem reached
    rcases reachable_held (fairRun.reachable late) removed with
      finished | ⟨index, carries⟩
    · exact ⟨late, after, finished⟩
    · obtain ⟨last, since, finished⟩ :=
        fairRun.finishes terminates submitsNothing alive carries
      exact ⟨last, after.trans since, finished⟩
  · rw [not_forall] at alive
    obtain ⟨freeing, freed⟩ := alive
    rw [not_not] at freed
    have later : run (max freeing time) = run freeing :=
      fairRun.freed_stays freed (le_max_left _ _)
    refine ⟨max freeing time, le_max_right _ _, ?_⟩
    refine reachable_finished_of_freed (fairRun.reachable _) ?_
      ((fairRun.grows (le_max_right _ _)).1.subset linked)
    rw [later]
    exact freed

/-- What has been finished has been called. -/
theorem reachable_finished_called
    [Fintype Client]
    (reachable :
      (system config Client behaviour).Reachable state)
    {id : Nat}
    (finished : id ∈ state.shared.history.finished) :
    ∃ task ∈ state.shared.history.called, taskId task = id := by
  have executes := executingAccount_sound.balanced reachable
  simp only [executingAccount, State.record, Shared.record] at executes
  have member : id ∈ taskIds state.shared.history.called := by
    rw [executes]
    exact Multiset.mem_add.mpr (Or.inl finished)
  rw [taskIds, Multiset.mem_coe] at member
  obtain ⟨task, called, same⟩ := List.mem_map.mp member
  exact ⟨task, called, same⟩

/-- Every submission that has returned 0 has linked its task. -/
theorem reachable_acknowledged_linked
    [Fintype Client]
    (reachable :
      (system config Client behaviour).Reachable state)
    {id : Nat}
    (acknowledged : id ∈ state.shared.history.acknowledged) :
    ∃ task ∈ state.queue.linked, taskId task = id := by
  have counts := countingAccount_sound.balanced reachable
  have acknowledges := acknowledgingAccount_sound.balanced reachable
  simp only [countingAccount, acknowledgingAccount, State.record,
    Shared.record] at counts acknowledges
  have member : id ∈ taskIds state.queue.linked := by
    rw [counts, acknowledges]
    exact Multiset.mem_add.mpr
      (Or.inl (Multiset.mem_add.mpr (Or.inl acknowledged)))
  rw [taskIds, Multiset.mem_coe] at member
  obtain ⟨task, linked, same⟩ := List.mem_map.mp member
  exact ⟨task, linked, same⟩

/--
No task overtakes another one: once a task has been called, every task is
removed that was linked before its submission began, and so every task whose
submission had returned 0 by then.  Priorities do not matter.
-/
theorem overtakes_nothing
    [Fintype Client]
    (reachable :
      (system config Client behaviour).Reachable state)
    (run : (system config Client behaviour).Run state later)
    {task : Func × Job Arg}
    (called : task ∈ later.shared.history.called)
    (began : state.shared.history.submissions.length ≤ taskId task) :
    state.queue.linked <+: later.queue.removed ∧
      ∀ id ∈ state.shared.history.acknowledged,
        id ∈ taskIds later.queue.removed := by
  have laterReachable := reachable.run run
  have removed : task ∈ later.queue.removed :=
    Multiset.mem_of_le (reachable_called_le_removed laterReachable) called
  have first : state.queue.linked <+: later.queue.removed := by
    refine (List.prefix_or_prefix_of_prefix (run_grows reachable run).1
      (reachable_core laterReachable).removed_first).resolve_right ?_
    intro fewer
    have submitted :=
      reachable_linked_submitted reachable task (fewer.subset removed)
    have early := (List.getElem?_eq_some_iff.mp submitted).1
    omega
  refine ⟨first, ?_⟩
  intro id acknowledged
  obtain ⟨earlier, linked, rfl⟩ :=
    reachable_acknowledged_linked reachable acknowledged
  exact List.mem_map_of_mem (first.subset linked)

/-- Every reachable state is the beginning of a fair run. -/
theorem exists_fairRun
    [Finite Client]
    (terminates :
      ∀ func arg, behaviour.Terminates (behaviour.enter func arg))
    (submitsNothing : behaviour.SubmitsNothing)
    (reachable :
      (system config Client behaviour).Reachable state) :
    ∃ run, run 0 = state ∧ FairRun behaviour run := by
  have ends :
      ∃ last,
        (system config Client behaviour).Run state last ∧
          ∀ thread later, ¬ Moves behaviour thread last later := by
    induction left : state.unrest behaviour
      using WellFoundedLT.induction generalizing state with
    | ind unrest inductionHypothesis =>
        by_cases stuck :
            ∀ thread later, ¬ Moves behaviour thread state later
        · exact ⟨state, .refl, stuck⟩
        · simp only [not_forall, not_not] at stuck
          obtain ⟨thread, later, _, allocated, busy, step⟩ := stuck
          have next : Next behaviour state later :=
            .step thread allocated step
          have less :=
            step.unrest_lt (reachable_core reachable)
              ((submitsAsClient_kept submitsNothing).reachable
                reachable thread)
              ((onCourse_kept terminates).reachable reachable thread)
              busy
          obtain ⟨last, run, atLast⟩ :=
            inductionHypothesis _ (left ▸ less) (reachable.step next) rfl
          exact ⟨last, .head next run, atLast⟩
  obtain ⟨last, finite, stuck⟩ := ends
  obtain ⟨run, starts, steps, fair⟩ := finite.fairly stuck
  exact ⟨run, starts, starts ▸ reachable, steps, fair⟩

/--
No task starves: however much the clients go on submitting and waiting, in a
fair run every task is finished some time once it has been linked, and so every
task whose submission has returned 0.
-/
theorem fairRun_starvesNobody
    [Fintype Client]
    (terminates :
      ∀ func arg, behaviour.Terminates (behaviour.enter func arg))
    (submitsNothing : behaviour.SubmitsNothing)
    {run : Nat → State config Client Func Arg Local}
    (fairRun : FairRun behaviour run)
    (time : Nat) :
    (∀ task ∈ (run time).queue.linked,
        ∃ late,
          time ≤ late ∧
            taskId task ∈ (run late).shared.history.finished) ∧
      ∀ id ∈ (run time).shared.history.acknowledged,
        ∃ late,
          time ≤ late ∧ id ∈ (run late).shared.history.finished := by
  constructor
  · intro task linked
    exact fairRun.serves terminates submitsNothing linked
  · intro id acknowledged
    obtain ⟨task, linked, rfl⟩ :=
      reachable_acknowledged_linked (fairRun.reachable time) acknowledged
    exact fairRun.serves terminates submitsNothing linked

end

/-- A fair run that begins right after a submission has returned 0. -/
theorem fairRun_starvesNobody_one :
    ∃ run : Nat → State smallConfig Unit Nat Nat Unit,
      FairRun idleTasks run ∧
        (run 0).shared.history.acknowledged = [0] ∧
        (run 0).shared.history.finished = [] ∧
        ∃ late, 0 ∈ (run late).shared.history.finished := by
  have start : (system smallConfig Unit idleTasks).Reachable _ :=
    .start rfl
  have called := start.step
    (.step (.client ()) (by decide)
      (.own (.submit (.call _ .client 7 8 .normal trivial))))
  have checked := called.step
    (.step (.client ()) (by decide)
      (.own (.submit (.checkPassed _ .client rfl))))
  have allocated := checked.step
    (.step (.client ()) (by decide)
      (.queue (.alloc 7 ⟨0, 8⟩ .normal 0 0 rfl rfl)))
  have linked := allocated.step
    (.step (.client ()) (by decide)
      (.queue (.pushLinked 7 ⟨0, 8⟩ 0 _ _ ∅ (.enter rfl)
        ⟨by simp, by decide⟩)))
  have counted := linked.step
    (.step (.client ()) (by decide)
      (.own (.submit (.counted _ .client))))
  have submitted := counted.step
    (.step (.client ()) (by decide)
      (.own (.submit (.acknowledged _ _ .client))))
  obtain ⟨run, first, fairRun⟩ :=
    exists_fairRun idleTasks_terminates idleTasks_submitsNothing
      submitted
  have acknowledged : (run 0).shared.history.acknowledged = [0] := by
    rw [first]
    rfl
  obtain ⟨late, _, finished⟩ :=
    (fairRun_starvesNobody idleTasks_terminates idleTasks_submitsNothing
      fairRun 0).2 0
        (by rw [acknowledged]; exact List.mem_singleton_self 0)
  exact ⟨run, fairRun, acknowledged, by rw [first]; rfl, late, finished⟩

/-- An urgent task is called, and the one before it has been removed by then. -/
theorem overtakes_nothing_urgent :
    ∃ (state later : State pairConfig Unit Nat Nat Unit)
        (task : Nat × Job Nat),
      (system pairConfig Unit idleTasks).Reachable state ∧
        state.shared.history.acknowledged = [0] ∧
        (system pairConfig Unit idleTasks).Run state later ∧
        task ∈ later.shared.history.called ∧
        taskId task = 1 ∧
        0 ∈ taskIds later.queue.removed := by
  have start : (system pairConfig Unit idleTasks).Reachable _ :=
    .start rfl
  have called := start.step
    (.step (.client ()) (by decide)
      (.own (.submit (.call _ .client 7 8 .low trivial))))
  have checked := called.step
    (.step (.client ()) (by decide)
      (.own (.submit (.checkPassed _ .client rfl))))
  have allocated := checked.step
    (.step (.client ()) (by decide)
      (.queue (.alloc 7 ⟨0, 8⟩ .low 0 0 rfl rfl)))
  have linked := allocated.step
    (.step (.client ()) (by decide)
      (.queue (.pushLinked 7 ⟨0, 8⟩ 0 _ _ ∅ (.enter rfl)
        ⟨by simp, by decide⟩)))
  have counted := linked.step
    (.step (.client ()) (by decide)
      (.own (.submit (.counted _ .client))))
  have first := counted.step
    (.step (.client ()) (by decide)
      (.own (.submit (.acknowledged _ _ .client))))
  have run : (system pairConfig Unit idleTasks).Run _ _ := first.stay
  have calledAgain := run.tail
    (.step (.client ()) (by decide)
      (.own (.submit (.call _ .client 7 9 .critical trivial))))
  have checkedAgain := calledAgain.tail
    (.step (.client ()) (by decide)
      (.own (.submit (.checkPassed _ .client rfl))))
  have allocatedAgain := checkedAgain.tail
    (.step (.client ()) (by decide)
      (.queue (.alloc 7 ⟨1, 9⟩ .critical 1 0 rfl rfl)))
  have second := allocatedAgain.tail
    (.step (.client ()) (by decide)
      (.queue (.pushLinked 7 ⟨1, 9⟩ 1 _ _ ∅ (.enter rfl)
        ⟨by simp, by decide⟩)))
  obtain ⟨run, begins, fairRun⟩ :=
    exists_fairRun idleTasks_terminates idleTasks_submitsNothing
      (first.run second)
  obtain ⟨late, after, finished⟩ :=
    fairRun.serves idleTasks_terminates idleTasks_submitsNothing
      (show (7, ⟨1, 9⟩) ∈ (run 0).queue.linked by rw [begins]; decide)
  obtain ⟨task, isCalled, same⟩ :=
    reachable_finished_called (fairRun.reachable late) finished
  have between := fairRun.run_until after
  rw [begins] at between
  exact ⟨_, _, task, first, rfl, second.trans between, isCalled, same,
    (overtakes_nothing first (second.trans between) isCalled
      (by rw [same]; decide)).2 0 (by decide)⟩

end SThread.ThreadPool
