import SThread.ThreadPool.DestroySteps
import SThread.ThreadPool.Quiescence
import SThread.ThreadPool.Shutdown

namespace SThread.ThreadPool

open SThread.Library
open SThread.Scheduler

/-!
# Work runs out

As long as nobody begins a new call and nobody wakes up spuriously the pool
takes only finitely many steps, whatever the scheduler does, provided that its
tasks terminate and submit nothing.  Every step brings the destroyer closer to
the end, or links or refuses a submission, or removes a task, or brings a worker
closer to its next removal, or puts a woken worker back to sleep, or brings a
client closer to its return; and it leaves alone what comes before in this list.
-/

/-- Whether a thread is awake where workers wait for a task. -/
def Place.awakeRank
    {Func Arg Local : Type}
    (place : Place Func Arg Local) : Nat :=
  (!place.call.asleepNotEmpty).toNat

/-- What is left of the call a client is in. -/
def Place.callRank
    {Func Arg Local : Type}
    (place : Place Func Arg Local) : Nat :=
  match place.pc with
  | .submitting .checking _ _ => 9
  | .submitting .pushing _ _ =>
      match place.call with
      | .pushStart _ _ _ => 8
      | .pushEnter _ _ _ => 7
      | .pushWait _ _ _ .asleep => 5
      | .pushWait _ _ _ _ => 6
      | .pushFree _ => 4
      | _ => 3
  | .submitting (.done _) _ _ => 2
  | .waiting .locking _ _ => 8
  | .waiting (.testing completed submitted) _ _ =>
      5 + completed.isNone.toNat + submitted.isNone.toNat
  | .waiting (.sleeping _ .asleep) _ _ => 4
  | .waiting (.sleeping _ _) _ _ => 8
  | .waiting (.unlocking _ _) _ _ => 3
  | .waiting .done _ _ => 2
  | .idle => 0
  | _ => 1

namespace LocalStep

variable
    {Owner Func Arg Local : Type}
    {behaviour : TaskBehaviour Func Arg Local}
    {thread : Owner}
    {numThreads : Nat}
    {shared shared' : Shared Owner Func Arg}
    {place place' : Place Func Arg Local}

/--
Every step of a client inside a call and outside the queue brings it closer to
its return, and decides nothing anew.
-/
theorem callRank_lt
    (step :
      LocalStep behaviour thread numThreads
        shared place shared' place')
    (client : place.pc.role = .client)
    (busy : place.pc ≠ .idle) :
    place'.callRank < place.callRank ∧
      place'.undecided.card ≤ place.undecided.card := by
  cases step with
  | worker step =>
      cases step <;> exact Role.noConfusion client
  | submit step =>
      cases step with
      | callNull call caller arg priority may
      | call call caller func arg priority may =>
          cases caller with
          | client =>
              exact (busy rfl).elim
          | task item there =>
              exact Role.noConfusion client
      | failed call submission caller ret failed
      | acknowledged call submission caller =>
          cases caller with
          | client =>
              exact ⟨Nat.zero_lt_two, Nat.zero_le _⟩
          | task item there =>
              exact Role.noConfusion client
      | _ =>
          simp [Place.callRank, Place.undecided, Request.start,
            Scheduler.Pc.pushed]
  | wait step =>
      cases step with
      | call call caller may =>
          cases caller with
          | client =>
              exact (busy rfl).elim
          | task item there =>
              exact Role.noConfusion client
      | ret call since caller =>
          cases caller with
          | client =>
              exact ⟨Nat.zero_lt_two, Nat.zero_le _⟩
          | task item there =>
              exact Role.noConfusion client
      | wake call completed wake since caller awake free =>
          cases wake with
          | asleep =>
              exact (awake rfl).elim
          | _ =>
              simp [Place.callRank, Place.undecided]
      | _ =>
          simp [Place.callRank, Place.undecided]
  | destroy step =>
      cases step <;> exact Role.noConfusion client

end LocalStep

namespace Place

variable
    {Func Arg Local : Type}

/-- A worker in the queue removes a task, gets closer or falls asleep again. -/
theorem pop_rank
    (behaviour : TaskBehaviour Func Arg Local)
    {queue : TaskQueue}
    {index : Nat}
    {call call' : Scheduler.Pc Func (Job Arg)}
    {linked removed : List (Func × Job Arg)}
    (inside : call.inPop = true)
    (awake : Scheduler.Awake call)
    (effect : Effect queue index call call' linked removed) :
    call.held = [] ∧ removed ≠ [] ∨
      (Place.mk .popping call').rank behaviour <
        (Place.mk .popping call).rank behaviour ∨
      (call.held = [] ∧ queue.count = 0) ∧
        (Place.mk .popping call').rank behaviour =
          (Place.mk .popping call).rank behaviour ∧
        removed = [] ∧
        call.asleepNotEmpty = false ∧
        call'.asleepNotEmpty = true := by
  cases effect with
  | popEmpty before kind pops empty isClosed =>
      refine Or.inr (Or.inl (Place.rank_lt_of_phase behaviour ?_))
      cases call <;>
        simp [Scheduler.Pc.popKind] at pops <;>
        simp [Place.phase]
  | popSleeps before pops empty opened =>
      cases call with
      | popEnter kind =>
          exact Or.inr (Or.inl (Place.rank_lt_of_phase behaviour (by
            simp [Place.phase])))
      | popWait wake =>
          exact Or.inr
            (Or.inr ⟨⟨rfl, empty⟩, rfl, rfl, awake.1, rfl⟩)
      | _ =>
          simp [Scheduler.Pc.popKind] at pops
  | popUnlinked before kind node func arg pops nonempty =>
      exact Or.inl
        ⟨Scheduler.Pc.held_of_popKind pops, List.cons_ne_nil _ _⟩
  | popTaken kind node removal =>
      exact Or.inr (Or.inl (Place.rank_lt_of_phase behaviour (by
        simp [Place.phase])))
  | alloc func arg priority node
  | allocFailed func arg priority
  | pushFreed node
  | shutdown =>
      exact Bool.noConfusion inside
  | pushRefused before func arg node pushes isClosed
  | pushSleeps before func arg node pushes opened bounded
  | pushLinked before func arg pushes opened =>
      rw [Scheduler.Pc.pushTask_of_inPop inside] at pushes
      contradiction

/-- A client in the queue links its task or gets closer to its return. -/
theorem push_rank
    {queue : TaskQueue}
    {index : Nat}
    {submission : Submission Func Arg}
    (caller : Caller Func Arg Local)
    {call call' : Scheduler.Pc Func (Job Arg)}
    {linked removed : List (Func × Job Arg)}
    (inside : call.InPush submission.task)
    (unfinished : call.returned = false)
    (awake : Scheduler.Awake call)
    (effect : Effect queue index call call' linked removed) :
    let place := Place.mk (.submitting .pushing submission caller) call
    let place' := Place.mk (.submitting .pushing submission caller) call'
    place'.undecided.card < place.undecided.card ∨
      place'.undecided.card = place.undecided.card ∧
        linked = [] ∧
        removed = [] ∧
        place'.callRank < place.callRank := by
  have undecided :
      (Place.mk (.submitting .pushing submission caller)
        call).undecided.card = 1 := by
    simp [Place.undecided, Scheduler.Pc.pushed_of_inside unfinished]
  cases effect with
  | alloc func arg priority node
  | allocFailed func arg priority
  | pushFreed node =>
      exact Or.inr ⟨rfl, rfl, rfl, by simp [Place.callRank]⟩
  | pushRefused before func arg node pushes isClosed =>
      refine Or.inr ⟨undecided.symm ▸ rfl, rfl, rfl, ?_⟩
      cases call with
      | pushWait func' arg' node' wake =>
          cases wake <;> simp [Place.callRank]
      | _ =>
          simp [Scheduler.Pc.pushTask] at pushes <;>
          simp [Place.callRank]
  | pushSleeps before func arg node pushes opened bounded =>
      refine Or.inr ⟨undecided.symm ▸ rfl, rfl, rfl, ?_⟩
      cases call with
      | pushWait func' arg' node' wake =>
          cases wake with
          | asleep =>
              exact Bool.noConfusion awake.2
          | _ =>
              simp [Place.callRank]
      | _ =>
          simp [Scheduler.Pc.pushTask] at pushes <;>
          simp [Place.callRank]
  | pushLinked before func arg pushes opened =>
      exact Or.inl (undecided.symm ▸ Nat.zero_lt_one)
  | popTaken kind node removal
  | shutdown =>
      exact inside.elim
  | popEmpty before kind pops empty isClosed
  | popSleeps before pops empty opened
  | popUnlinked before kind node func arg pops nonempty =>
      rw [Scheduler.Pc.popKind_of_inPush inside] at pops
      contradiction

end Place

section

variable
    {config : Config}
    {Client Func Arg Local : Type}
    [DecidableEq Client]
    {behaviour : TaskBehaviour Func Arg Local}
    {state later : State config Client Func Arg Local}
    {thread : Thread config.numThreads Client}

/-- What is left to do in a pool to which nothing new is handed. -/
noncomputable def State.unrest
    (behaviour : TaskBehaviour Func Arg Local)
    (state : State config Client Func Arg Local) :
    Nat ×ₗ (Client → Nat) ×ₗ
      (Nat ×ₗ (Fin config.numThreads → Nat ×ₗ Ordinal.{0} ×ₗ Nat)) ×ₗ
        (Fin config.numThreads → Nat) ×ₗ (Client → Nat) :=
  toLex ((state.place .destroyer).destroyRank config.numThreads,
    toLex (fun name => (state.place (.client name)).undecided.card,
      toLex (state.measure behaviour,
        toLex (fun index => (state.place (.worker index)).awakeRank,
          fun name => (state.place (.client name)).callRank))))

/-- A step of another thread leaves the destroyer where it is. -/
theorem Step.destroyRank_other
    (step : Step behaviour state thread later)
    (notActor : thread ≠ .destroyer) :
    (later.place .destroyer).destroyRank config.numThreads =
      (state.place .destroyer).destroyRank config.numThreads :=
  step.observe_other (Place.destroyRank_stable _) notActor.symm

/-- And it decides nothing about the submissions of the others. -/
theorem Step.undecided_other
    (step : Step behaviour state thread later)
    {other : Thread config.numThreads Client}
    (notActor : other ≠ thread) :
    (later.place other).undecided.card =
      (state.place other).undecided.card := by
  have sound : (submissionAccount Func Arg Local).Sound behaviour :=
    submissionAccount_sound
  exact congrArg Multiset.card (step.observe_other sound.stable notActor)

/-- In the queue a worker or a client that links and removes nothing wakes nobody. -/
theorem Core.place_other
    {queue : Scheduler.State (Thread config.numThreads Client) Func (Job Arg)}
    (core : Core state)
    (step : Scheduler.Step state.queue thread queue)
    (notDestroyer : thread ≠ .destroyer)
    (linked : queue.linked = state.queue.linked)
    (removed : queue.removed = state.queue.removed)
    {other : Thread config.numThreads Client}
    (notActor : other ≠ thread) :
    State.place { state with queue := queue } other =
      state.place other := by
  have agrees := core.agrees thread
  have opened : state.queue.pc thread ≠ .shutdownEnter := by
    intro shutting
    cases here : state.pc thread with
    | destroying stage =>
        exact notDestroyer (core.destroyer_of here)
    | submitting stage submission caller =>
        cases stage <;>
          simp [Place.Agrees, State.place, here, shutting,
            Scheduler.Pc.InPush] at agrees
    | _ =>
        simp [Place.Agrees, State.place, here, shutting,
          Scheduler.Pc.inPop] at agrees
  rw [State.place, State.place,
    step.call_other opened linked removed notActor]

/-- A worker that submits nothing is in the queue to remove a task. -/
theorem Core.worker_popping
    {queue : Scheduler.State (Thread config.numThreads Client) Func (Job Arg)}
    (core : Core state)
    {index : Fin config.numThreads}
    (step : Scheduler.Step state.queue (.worker index) queue)
    (asClient : (state.pc (.worker index)).SubmitsAsClient) :
    state.pc (.worker index) = .popping ∧
      (state.queue.pc (.worker index)).inPop = true := by
  have agrees := core.agrees (.worker index)
  have role := core.role (.worker index)
  cases here : state.pc (.worker index) with
  | popping =>
      refine ⟨rfl, ?_⟩
      simpa [State.place, here, Place.Agrees] using agrees
  | submitting stage submission caller =>
      rw [here] at asClient role
      obtain rfl := asClient
      exact Role.noConfusion role
  | destroying stage =>
      rw [here] at role
      exact Role.noConfusion role
  | _ =>
      simp only [State.place, here, Place.Agrees] at agrees
      exact (step.inside.1 agrees).elim

/-- What a worker has left of the loop, and whether it sleeps, goes down. -/
theorem Step.working_lt
    {index : Fin config.numThreads}
    (step : Step behaviour state (.worker index) later)
    (core : Core state)
    (asClient : (state.pc (.worker index)).SubmitsAsClient)
    (onCourse : (state.pc (.worker index)).OnCourse behaviour) :
    later.measure behaviour < state.measure behaviour ∨
      later.measure behaviour ≤ state.measure behaviour ∧
        (fun other => (later.place (.worker other)).awakeRank) <
          fun other => (state.place (.worker other)).awakeRank := by
  have role := core.role (.worker index)
  have others :
      ∀ other, other ≠ index →
        (later.place (.worker other)).rank behaviour =
          (state.place (.worker other)).rank behaviour := by
    intro other different
    exact step.observe_other (Place.rank_stable behaviour)
      (fun same => different (Thread.worker.inj same))
  have lengths := core.length_linked
  have lengthsLater := (step.core core).length_linked
  cases step with
  | @queue queue step =>
      obtain ⟨channel, nodes, refines⟩ := core.refines
      obtain ⟨linked, removed, linkedIs, removedIs, effect⟩ :=
        step.effect refines
      obtain ⟨popping, inside⟩ := core.worker_popping step asClient
      obtain ⟨_, rfl⟩ := effect.inPop inside
      have shortened :
          queue.queue.count + removed.length =
            state.queue.queue.count := by
        simp only [linkedIs, removedIs, List.length_append,
          List.length_nil] at lengthsLater
        omega
      rcases Place.pop_rank behaviour inside step.awake effect with
        ⟨_, some⟩ | closer | ⟨_, same, rfl, awake, asleep⟩
      · have positive := List.length_pos_iff.mpr some
        exact Or.inl (Library.measure_lt index others
          (Or.inl (by simp only; omega)))
      · refine Or.inl (Library.measure_lt index others ?_)
        rcases (Nat.le.intro shortened).lt_or_eq with less | equal
        · exact Or.inl less
        · exact Or.inr ⟨equal, by
            simpa only [State.place, popping] using closer⟩
      · refine Or.inr ⟨measure_mono ?_ (Nat.le.intro shortened), ?_⟩
        · intro other
          by_cases actor : other = index
          · subst actor
            simpa only [State.place, popping] using same
          · exact others other actor
        · refine ranks_lt index ?_ ?_
          · intro other different
            rw [core.place_other step (by rintro ⟨⟩)
              (by rw [linkedIs, List.append_nil])
              (by rw [removedIs, List.append_nil])
              (fun same => different (Thread.worker.inj same))]
          · simp [Place.awakeRank, State.place, awake, asleep]
  | own step =>
      refine Or.inl (Library.measure_lt index others (Or.inr ⟨rfl, ?_⟩))
      simpa [State.place, State.put] using step.rank_lt role onCourse
  | broadcast here =>
      refine Or.inl (Library.measure_lt index others (Or.inr ⟨rfl, ?_⟩))
      refine Place.rank_lt_of_phase behaviour ?_
      simp [State.place, broadcast_actor, here, Place.phase]
  | join next here inRange ended
  | destroyQueue heap here frees
  | destroyQueueFault here fails =>
      rw [here] at role
      exact Role.noConfusion role

/--
A client inside a call links or refuses its submission, or gets closer to its
return and leaves everybody else alone.
-/
theorem Step.calling
    {name : Client}
    (step : Step behaviour state (.client name) later)
    (core : Core state)
    (busy : state.pc (.client name) ≠ .idle) :
    (later.place (.client name)).undecided.card <
        (state.place (.client name)).undecided.card ∨
      (later.place (.client name)).undecided.card ≤
          (state.place (.client name)).undecided.card ∧
        later.queue.queue.count ≤ state.queue.queue.count ∧
        (∀ other, other ≠ .client name →
          later.place other = state.place other) ∧
        (later.place (.client name)).callRank <
          (state.place (.client name)).callRank := by
  have role := core.role (.client name)
  have lengths := core.length_linked
  have lengthsLater := (step.core core).length_linked
  cases step with
  | @queue queue step =>
      obtain ⟨channel, nodes, refines⟩ := core.refines
      obtain ⟨linked, removed, linkedIs, removedIs, effect⟩ :=
        step.effect refines
      have agrees := core.agrees (.client name)
      obtain ⟨submission, caller, pushing⟩ :
          ∃ submission caller,
            state.pc (.client name) =
              .submitting .pushing submission caller := by
        cases here : state.pc (.client name) with
        | submitting stage submission caller =>
            cases stage with
            | pushing =>
                exact ⟨submission, caller, rfl⟩
            | _ =>
                simp only [State.place, here, Place.Agrees] at agrees
                exact (step.inside.1 agrees).elim
        | popping
        | destroying stage =>
            rw [here] at role
            exact Role.noConfusion role
        | _ =>
            simp only [State.place, here, Place.Agrees] at agrees
            exact (step.inside.1 agrees).elim
      simp only [State.place, pushing] at agrees ⊢
      rcases Place.push_rank caller agrees
          step.inside.2 step.awake effect with
        decides | ⟨same, rfl, rfl, closer⟩
      · exact Or.inl decides
      · rw [List.append_nil] at linkedIs removedIs
        refine Or.inr ⟨same.le, ?_, ?_, closer⟩
        · simp only [linkedIs, removedIs] at lengthsLater
          omega
        · intro other isOther
          exact core.place_other step (by rintro ⟨⟩)
            linkedIs removedIs isOther
  | own step =>
      obtain ⟨closer, decides⟩ := step.callRank_lt role busy
      refine Or.inr ⟨?_, Nat.le_refl _, ?_, ?_⟩
      · simpa [State.place, State.put] using decides
      · intro other isOther
        simp [State.place, State.put, Function.update_of_ne isOther]
      · simpa [State.place, State.put] using closer
  | broadcast here
  | join next here inRange ended
  | destroyQueue heap here frees
  | destroyQueueFault here fails =>
      rw [here] at role
      exact Role.noConfusion role

/-- Every step but a new call of an idle client leaves less to do. -/
theorem Step.unrest_lt
    (step : Step behaviour state thread later)
    (core : Core state)
    (asClient : (state.pc thread).SubmitsAsClient)
    (onCourse : (state.pc thread).OnCourse behaviour)
    (busy : state.pc thread ≠ .idle) :
    later.unrest behaviour < state.unrest behaviour := by
  cases thread with
  | destroyer =>
      exact lex_lt_of_lt (step.destroyRank_lt core)
  | worker index =>
      refine lex_lt_of_le (step.destroyRank_other (by rintro ⟨⟩)).le
        (lex_lt_of_le ?_ ?_)
      · intro name
        exact (step.undecided_other (by rintro ⟨⟩)).le
      · rcases step.working_lt core asClient onCourse with
          closer | ⟨kept, sleeps⟩
        · exact lex_lt_of_lt closer
        · exact lex_lt_of_le kept (lex_lt_of_lt sleeps)
  | client name =>
      have others :
          ∀ other, other ≠ name →
            (later.place (.client other)).undecided.card =
              (state.place (.client other)).undecided.card :=
        fun other different =>
          step.undecided_other
            (fun same => different (Thread.client.inj same))
      refine lex_lt_of_le (step.destroyRank_other (by rintro ⟨⟩)).le ?_
      rcases step.calling core busy with
        decides | ⟨kept, count, alone, closer⟩
      · exact lex_lt_of_lt (ranks_lt name others decides)
      · refine lex_lt_of_le (ranks_le name others kept)
          (lex_lt_of_le (measure_mono ?_ count) (lex_lt_of_le ?_ ?_))
        · intro index
          rw [alone (.worker index) (by rintro ⟨⟩)]
        · intro index
          exact (congrArg Place.awakeRank
            (alone (.worker index) (by rintro ⟨⟩))).le
        · refine ranks_lt name ?_ closer
          intro other different
          rw [alone (.client other)
            (fun same => different (Thread.client.inj same))]

/-- A step that is neither the beginning of a call nor a spurious wake-up. -/
def Proceeds
    (behaviour : TaskBehaviour Func Arg Local)
    (state later : State config Client Func Arg Local) : Prop :=
  ∃ thread,
    state.pc thread ≠ .idle ∧ Step behaviour state thread later

omit [DecidableEq Client] in
/-- No task submits anything. -/
theorem submitsAsClient_kept
    (submitsNothing : behaviour.SubmitsNothing) :
    ThreadInvariant behaviour
      (fun (_ : Thread config.numThreads Client)
          (_ : Shared (Thread config.numThreads Client) Func Arg)
          (pc : Pc Func Arg Local) =>
        pc.SubmitsAsClient) where
  other := by
    intro thread other shared place shared' place' pc _ _ _ holds
    exact holds
  wake := by
    intro thread shared completed since caller wake holds
    exact holds
  broadcast := by
    intros
    trivial
  destroying := by
    intros
    trivial
  start := by
    intro thread
    cases thread <;> trivial
  own := by
    intro thread shared place shared' place' step before
    exact step.submitsAsClient submitsNothing before

/--
However long a run has been, it still has a call to begin or a thread to wake up
spuriously, unless it ends.
-/
theorem reachable_disturbed
    [Finite Client]
    (terminates :
      ∀ func arg, behaviour.Terminates (behaviour.enter func arg))
    (submitsNothing : behaviour.SubmitsNothing)
    {run : Nat → State config Client Func Arg Local}
    (reachable :
      (system config Client behaviour).Reachable (run 0))
    (steps : ∀ time, Next behaviour (run time) (run (time + 1)))
    (settled : Nat) :
    ∃ time,
      settled ≤ time ∧
        ¬ Proceeds behaviour (run time) (run (time + 1)) := by
  by_contra never
  have proceeds :
      ∀ time, settled ≤ time →
        Proceeds behaviour (run time) (run (time + 1)) := by
    intro time late
    by_contra disturbed
    exact never ⟨time, late, disturbed⟩
  have during :
      ∀ time, (system config Client behaviour).Reachable (run time) := by
    intro time
    induction time with
    | zero =>
        exact reachable
    | succ time inductionHypothesis =>
        exact inductionHypothesis.step (steps time)
  have decreases :
      ∀ time,
        (run (settled + (time + 1))).unrest behaviour <
          (run (settled + time)).unrest behaviour := by
    intro time
    obtain ⟨thread, busy, step⟩ :=
      proceeds (settled + time) (Nat.le_add_right _ _)
    exact step.unrest_lt (reachable_core (during _))
      ((submitsAsClient_kept submitsNothing).reachable (during _) thread)
      ((onCourse_kept terminates).reachable (during _) thread)
      busy
  exact not_strictAnti_of_wellFoundedLT
    (fun time => (run (settled + time)).unrest behaviour)
    (strictAnti_nat_of_succ_lt decreases)

end

end SThread.ThreadPool
