import Mathlib.Algebra.BigOperators.Ring.Finset
import SThread.Examples.BoundedBufferOrder
import SThread.Sync.HandOffDelivery

namespace SThread.Examples.BoundedBuffer

open SThread.Library
open SThread.Sync
open SThread.Sync.HandOff (Party credit fits)

/-!
# When the tasks end

Where no thread can act, every thread has done its rounds or sleeps in its wait.
No wake-up is lost, so nobody sleeps beside a token, and the tokens tell that one
side of the buffer is through and the other one waits for more than comes.  So
the tasks end exactly when what is produced fits what is consumed.
-/

section

variable
    {Thread : Type}
    [DecidableEq Thread]
    {program : Program Thread}
    {state later : State Thread}
    {thread : Thread}

/-- Nothing but a spurious wake-up can happen any more. -/
def State.Stuck
    (program : Program Thread)
    (state : State Thread) : Prop :=
  ∀ later, ¬ Act program state later

omit [DecidableEq Thread] in
/-- A thread has done all its rounds. -/
def State.Done
    (program : Program Thread)
    (state : State Thread)
    (thread : Thread) : Prop :=
  state.place thread = .loop ∧
    state.rounds thread = program.items thread

/-- Whoever holds the mutex can go on. -/
theorem act_of_inside
    (program : Program Thread)
    (inside : (state.place thread).inside = true) :
    ∃ later, Act program state later := by
  cases here : state.place thread with
  | access =>
      cases role : program.role thread with
      | producer =>
          exact ⟨_, .store thread role here⟩
      | consumer =>
          exact ⟨_, .load thread role here⟩
  | bumping =>
      cases role : program.role thread with
      | producer =>
          exact ⟨_, .push thread role here⟩
      | consumer =>
          exact ⟨_, .advance thread role here⟩
  | unlocking =>
      exact ⟨_, .unlock thread here⟩
  | _ =>
      rw [here] at inside
      contradiction

/-- So can a thread that is awake in its wait. -/
theorem act_of_testing
    (program : Program Thread)
    (testing : ((state.own program thread).pc thread).atWaitTest = true) :
    ∃ later, Act program state later := by
  cases found : semWaitTest (state.own program thread).sem with
  | none =>
      refine ⟨_, .inside (program.role thread) thread _
        (.waitSleeps testing found) ?_⟩
      simp [Sync.State.setPc]
  | some sem =>
      refine ⟨_, .returns (program.role thread) thread _
        (.waitTakes sem testing found) ?_⟩
      simp [Sync.State.ret]

/-- And a thread that posts. -/
theorem Control.act_of_posting
    (control : Control program state.sems state.place)
    (here : state.place thread = .posting) :
    ∃ later, Act program state later := by
  have fit := control.placed (program.role thread).other thread
  rw [decide_other, here] at fit
  have entered : (state.other program thread).pc thread = .postEnter := by
    cases pc : (state.sems (program.role thread).other).pc thread with
    | postEnter =>
        exact pc
    | _ =>
        rw [pc] at fit
        contradiction
  obtain ⟨targets, signals⟩ :=
    semCond.exists_signals
      (Function.update (state.other program thread).pc thread .idle)
  exact ⟨_, .returns (program.role thread).other thread _
    (.post targets entered signals) (notify_self signals)⟩

/-- Where nobody can act a thread is through or sleeps. -/
theorem Control.halted
    (control : Control program state.sems state.place)
    (locked : Locked state.place state.lock)
    (limited : state.Limited program)
    (stuck : state.Stuck program)
    (thread : Thread) :
    state.Done program thread ∨
      state.place thread = .waiting ∧
        (state.own program thread).pc thread = .waiting .asleep := by
  have unable : ¬ ∃ later, Act program state later := by
    rintro ⟨later, act⟩
    exact stuck later act
  cases here : state.place thread with
  | loop =>
      refine Or.inl ⟨here, ?_⟩
      refine ((limited thread).1.lt_or_eq).resolve_left ?_
      intro more
      exact unable ⟨_, .callWait thread _ here more
        (HandOff.start_wait (control.initialized _))⟩
  | waiting =>
      refine Or.inr ⟨rfl, ?_⟩
      have fit := control.placed (program.role thread) thread
      rw [decide_eq_true rfl, here] at fit
      cases pc : (state.own program thread).pc thread with
      | waiting wake =>
          cases wake with
          | asleep =>
              rfl
          | _ =>
              exact (unable
                (act_of_testing program (by rw [pc]; rfl))).elim
      | waitEnter =>
          exact (unable (act_of_testing program (by rw [pc]; rfl))).elim
      | _ =>
          rw [State.own] at pc
          rw [pc] at fit
          contradiction
  | locking =>
      cases lock : state.lock with
      | none =>
          exact (unable ⟨_, .lock thread here lock⟩).elim
      | some holder =>
          have inside := (locked holder).mpr lock
          exact (unable (act_of_inside program inside)).elim
  | access
  | bumping
  | unlocking =>
      have inside : (state.place thread).inside = true := by
        rw [here]
        rfl
      exact (unable (act_of_inside program inside)).elim
  | post =>
      exact (unable ⟨_, .callPost thread _ here
        (HandOff.start_post (control.initialized _))⟩).elim
  | posting =>
      exact (unable (control.act_of_posting here)).elim
  | adding =>
      exact (unable ⟨_, .add thread here⟩).elim

end

section Counting

variable
    {Thread : Type}
    [DecidableEq Thread]
    [Fintype Thread]
    {program : Program Thread}
    {state later : State Thread}
    {owner : Party}

/-- The sleepers of both semaphores are covered. -/
def State.Covered (state : State Thread) : Prop :=
  ∀ owner,
    semCond.Covered (state.counter owner) (state.sems owner).pc

omit [DecidableEq Thread] in
/-- Moves away from the semaphores leave them alone. -/
theorem State.Covered.congr
    (covered : state.Covered)
    (same : later.sems = state.sems) :
    later.Covered := by
  intro owner
  unfold State.counter
  rw [same]
  exact covered owner

omit [DecidableEq Thread] in
/-- A step inside one of the semaphores covers it again. -/
theorem State.Covered.setSem
    (covered : state.Covered)
    {sem : Sync.State Thread}
    (again : semCond.Covered sem.sem.count.toNat sem.pc) :
    (state.setSem owner sem).Covered := by
  intro some
  by_cases same : some = owner
  · subst same
    simpa [State.counter, State.setSem] using again
  · have kept := covered some
    simpa [State.counter, State.setSem, Function.update_of_ne same]
      using kept

/-- A thread that was not notified moves in one of the semaphores. -/
theorem State.Covered.setPc
    (covered : state.Covered)
    {thread : Thread}
    {pc : Pc}
    (awake : semCond.asleep pc = false)
    (unnotified :
      semCond.notified ((state.sems owner).pc thread) = false) :
    (state.setSem owner ((state.sems owner).setPc thread pc)).Covered :=
  covered.setSem
    ((covered owner).update_unnotified thread awake unnotified)

omit [Fintype Thread] in
/-- A thread that goes on behind its call leaves the semaphores alone. -/
theorem State.goOn_sems
    (program : Program Thread)
    (state : State Thread)
    (thread : Thread) :
    (state.goOn program thread).sems = state.sems := by
  unfold State.goOn
  split <;> rfl

/-- Every act keeps the sleepers covered. -/
theorem State.Covered.act
    (covered : state.Covered)
    (control : Control program state.sems state.place)
    (act : Act program state later) :
    later.Covered := by
  cases act with
  | callWait thread pc here more starts =>
      have idle : (state.sems (program.role thread)).pc thread = .idle :=
        control.idle _ (by rw [decide_eq_true rfl, here]; rfl)
      exact covered.setPc (Request.start_awake starts)
        (by rw [idle]; rfl)
  | callPost thread pc here starts =>
      have idle :
          (state.sems (program.role thread).other).pc thread = .idle :=
        control.idle _ (by rw [decide_other, here]; rfl)
      exact covered.setPc (Request.start_awake starts)
        (by rw [idle]; rfl)
  | inside owner thread sem step stays =>
      exact covered.setSem (step.covers (covered owner))
  | returns owner thread sem step leaves =>
      exact (covered.setSem (step.covers (covered owner))).congr
        (State.goOn_sems program _ thread)
  | postRefused thread here refused =>
      exact covered.congr (State.goOn_sems program _ thread)
  | waitRefused thread here more refused
  | lock thread here free
  | store thread producer here
  | push thread producer here
  | load thread consumer here
  | advance thread consumer here
  | unlock thread here
  | add thread here =>
      exact covered.congr rfl

/-- No wake-up is lost in either semaphore. -/
theorem reachable_covered
    (reachable : (system program).Reachable state) :
    state.Covered := by
  refine reachable.invariant State.Covered ?_ ?_
  · rintro first rfl owner
    exact .of_awake _ (fun _ => rfl)
  · intro before after reached covered next
    cases next with
    | act act =>
        exact covered.act (reachable_control reached) act
    | spurious owner thread here =>
        exact covered.setPc rfl (by rw [here]; rfl)

/-- The rounds of all threads of a role. -/
def State.done
    (program : Program Thread)
    (state : State Thread)
    (role : Party) : Nat :=
  ∑ thread,
    if program.role thread = role then state.rounds thread else 0

/-- The items that the threads of a role handle. -/
def Program.total
    (program : Program Thread)
    (role : Party) : Nat :=
  ∑ thread,
    if program.role thread = role then program.items thread else 0

omit [DecidableEq Thread] in
/-- While a thread is in its loop fewer rounds are done than there are items. -/
theorem State.Limited.done_lt
    (limited : state.Limited program)
    {thread : Thread}
    (inRound : state.place thread ≠ .loop) :
    state.done program (program.role thread) <
      program.total (program.role thread) := by
  refine Finset.sum_lt_sum ?_ ⟨thread, Finset.mem_univ _, ?_⟩
  · intro other _
    split
    · exact (limited other).1
    · exact le_rfl
  · rw [if_pos rfl, if_pos rfl]
    exact (limited thread).2 inRound

omit [DecidableEq Thread] in
/-- When the threads of a role are through all items are handled. -/
theorem done_eq
    (role : Party)
    (through :
      ∀ thread, program.role thread = role → state.Done program thread) :
    state.done program role = program.total role := by
  refine Finset.sum_congr rfl ?_
  intro thread _
  split
  · exact (through thread (by assumption)).2
  · rfl

omit [DecidableEq Thread] in
/-- Between two rounds, or before the token, a thread has put back what it took. -/
theorem Tokens.halted
    (tokens : Tokens program state)
    (halted :
      ∀ thread,
        state.place thread = .loop ∨ state.place thread = .waiting)
    (owner : Party) :
    state.counter owner + state.done program owner =
      (credit program.slots owner).toNat +
        state.done program owner.other := by
  have taken : state.taken program owner = state.done program owner := by
    refine Finset.sum_congr rfl ?_
    intro thread _
    rcases halted thread with here | here <;>
      simp [Progress.takes, State.progress, here, Place.taken]
  have posted :
      state.posted program owner = state.done program owner.other := by
    refine Finset.sum_congr rfl ?_
    intro thread _
    rcases halted thread with here | here <;>
      simp [Progress.posts, State.progress, here, Place.posted]
  rw [← taken, ← posted]
  exact tokens owner

/-- A reachable state in which no thread can act. -/
structure Halted
    (program : Program Thread)
    (state : State Thread) : Prop where
  kept : Kept program state
  limited : state.Limited program
  covered : state.Covered
  control : Control program state.sems state.place
  through :
    ∀ thread,
      state.Done program thread ∨
        state.place thread = .waiting ∧
          (state.own program thread).pc thread = .waiting .asleep

/-- It is halted in every reachable state. -/
theorem reachable_halted
    (reachable : (system program).Reachable state)
    (stuck : state.Stuck program) :
    Halted program state := by
  have kept := reachable_kept reachable
  have limited := reachable_limited reachable
  have control := reachable_control reachable
  exact ⟨kept, limited, reachable_covered reachable, control,
    control.halted kept.locked limited stuck⟩

namespace Halted

variable
    {thread : Thread}

/-- Nobody has been notified. -/
theorem not_notified
    (halted : Halted program state)
    (owner : Party)
    (thread : Thread) :
    semCond.notified ((state.sems owner).pc thread) = false := by
  have fit := halted.control.placed owner thread
  cases pc : (state.sems owner).pc thread with
  | waiting wake =>
      rw [pc] at fit
      obtain ⟨isOwn, called⟩ := HandOff.fits_waiting fit
      obtain rfl := of_decide_eq_true isOwn
      rcases halted.through thread with ⟨here, _⟩ | ⟨_, asleep⟩
      · rw [Place.called_waiting called] at here
        contradiction
      · rw [State.own, pc] at asleep
        rw [asleep]
        rfl
  | _ =>
      rfl

/-- So a semaphore on which somebody sleeps has no token. -/
theorem counter_eq_zero
    (halted : Halted program state)
    (asleep : (state.own program thread).pc thread = .waiting .asleep) :
    state.counter (program.role thread) = 0 := by
  have covered := halted.covered (program.role thread)
  have someone :
      0 < population semCond.asleep
        (state.sems (program.role thread)).pc := by
    refine population_pos.mpr ⟨thread, ?_⟩
    rw [State.own] at asleep
    rw [asleep]
    rfl
  have enough := covered someone
  rwa [population_eq_zero.mpr (halted.not_notified _),
    Nat.le_zero] at enough

/-- The tokens that have been taken and not put back. -/
theorem balance
    (halted : Halted program state)
    (owner : Party) :
    state.counter owner + state.done program owner =
      (credit program.slots owner).toNat +
        state.done program owner.other := by
  refine halted.kept.tokens.halted ?_ owner
  intro thread
  rcases halted.through thread with ⟨here, _⟩ | ⟨here, _⟩
  · exact Or.inl here
  · exact Or.inr here

/-- Where one side sleeps the other one is through, and comes short of it. -/
theorem short_of_asleep
    (halted : Halted program state)
    (here : state.place thread = .waiting)
    (asleep : (state.own program thread).pc thread = .waiting .asleep) :
    (credit program.slots (program.role thread)).toNat +
        program.total (program.role thread).other <
      program.total (program.role thread) := by
  have empty := halted.counter_eq_zero asleep
  have mine := halted.balance (program.role thread)
  have theirs := halted.balance (program.role thread).other
  have credits :
      (credit program.slots (program.role thread)).toNat +
          (credit program.slots (program.role thread).other).toNat =
        program.slots.toNat := by
    cases program.role thread <;> simp [credit, Party.other]
  have some := program.slots_pos
  have less :
      state.done program (program.role thread) <
        program.total (program.role thread) :=
    halted.limited.done_lt (by rw [here]; decide)
  rw [HandOff.Party.other_other] at theirs
  have through :
      state.done program (program.role thread).other =
        program.total (program.role thread).other := by
    refine done_eq _ ?_
    intro other role
    refine (halted.through other).resolve_right ?_
    rintro ⟨_, sleeps⟩
    have none := halted.counter_eq_zero sleeps
    rw [role] at none
    omega
  omega

/-- All threads are through exactly when either side has enough. -/
theorem done_iff
    (halted : Halted program state) :
    (∀ thread, state.Done program thread) ↔
      ∀ role,
        program.total role ≤
          (credit program.slots role).toNat +
            program.total role.other := by
  constructor
  · intro finished role
    have balance := halted.balance role
    have mine := done_eq role (fun thread _ => finished thread)
    have theirs := done_eq role.other (fun thread _ => finished thread)
    omega
  · intro enough thread
    refine (halted.through thread).resolve_right ?_
    rintro ⟨here, asleep⟩
    have short := halted.short_of_asleep here asleep
    have sufficient := enough (program.role thread)
    omega

end Halted

/-- What the threads have accessed adds up to everything. -/
theorem sum_valuesOf
    (accesses : List (Thread × Nat)) :
    ∑ thread, (valuesOf thread accesses).sum =
      (accesses.map Prod.snd).sum := by
  induction accesses using List.reverseRecOn with
  | nil =>
      simp [valuesOf]
  | append_singleton accesses access inductionHypothesis =>
      obtain ⟨actor, value⟩ := access
      have last :
          ∑ thread, (if actor = thread then [value] else []).sum =
            value := by
        rw [Finset.sum_eq_single actor]
        · simp
        · intro thread _ different
          simp [different.symm]
        · simp
      simp only [valuesOf_snoc, List.sum_append, Finset.sum_add_distrib,
        inductionHypothesis, last, List.map_append, List.map_singleton,
        List.sum_singleton]

omit [DecidableEq Thread] in
/-- Threads that are through have accessed the buffer once for each item. -/
theorem accesses_eq
    (finished : ∀ thread, state.Done program thread)
    (role : Party) :
    state.accesses program role = program.total role := by
  refine Finset.sum_congr rfl ?_
  intro thread _
  obtain ⟨here, rounds⟩ := finished thread
  simp [Progress.accesses, State.progress, here, rounds, Place.accessed]

/-- What all consumers have added up. -/
def State.sums
    (program : Program Thread)
    (state : State Thread) : Int :=
  ∑ thread,
    if program.role thread = .consumer then
      (state.sum thread).value
    else
      0

/-- The sum of all items. -/
def Program.sum (program : Program Thread) : Nat :=
  ∑ thread,
    if program.role thread = .producer then
      program.items thread * (program.items thread + 1) / 2
    else
      0

/-- A consumer that is through has added up what it has read, if all of it fits. -/
theorem Kept.sum_is
    (kept : Kept program state)
    (finished : ∀ thread, state.Done program thread)
    (fits :
      IntType.int.Represents (state.consumed.map Prod.snd).sum)
    (thread : Thread)
    (consumer : program.role thread = .consumer) :
    (state.sum thread).Is (valuesOf thread state.consumed).sum := by
  have account := kept.accounted thread
  simp only [Accounted, consumer] at account
  have part :
      (valuesOf thread state.consumed).sum ≤
        (state.consumed.map Prod.snd).sum := by
    rw [← sum_valuesOf]
    exact Finset.single_le_sum
      (f := fun thread => (valuesOf thread state.consumed).sum)
      (fun _ _ => Nat.zero_le _) (Finset.mem_univ thread)
  have exactly := CInt.total_is (fits.of_le part)
  rw [← account.2.1] at exactly
  simpa [State.added, (finished thread).1, Place.accessed] using exactly

/-- Then all of them have added up what was consumed. -/
theorem Kept.sums_eq
    (kept : Kept program state)
    (finished : ∀ thread, state.Done program thread)
    (fits :
      IntType.int.Represents (state.consumed.map Prod.snd).sum) :
    state.sums program = (state.consumed.map Prod.snd).sum := by
  rw [← sum_valuesOf, Nat.cast_sum]
  refine Finset.sum_congr rfl ?_
  intro thread _
  cases role : program.role thread with
  | producer =>
      have account := kept.accounted thread
      simp only [Accounted, role] at account
      simp [account.2]
  | consumer =>
      rw [if_pos rfl, (kept.sum_is finished fits thread role).value]

/-- Producers that are through have produced all their items. -/
theorem Kept.sum_eq
    (kept : Kept program state)
    (finished : ∀ thread, state.Done program thread) :
    program.sum = (state.produced.map Prod.snd).sum := by
  rw [← sum_valuesOf]
  refine Finset.sum_congr rfl ?_
  intro thread _
  obtain ⟨here, rounds⟩ := finished thread
  have account := kept.accounted thread
  cases role : program.role thread with
  | producer =>
      simp only [Accounted, role, here, rounds, Place.accessed,
        Bool.toNat_false, Nat.add_zero] at account
      rw [account.1, HandOff.sum_range', if_pos rfl]
  | consumer =>
      simp only [Accounted, role] at account
      simp [account.2.2]

/-- With as many items on both sides everything has gone through the buffer. -/
theorem Kept.all_consumed
    (kept : Kept program state)
    (finished : ∀ thread, state.Done program thread)
    (matching : program.total .producer = program.total .consumer) :
    state.consumed.map Prod.snd = state.produced.map Prod.snd := by
  obtain ⟨queue, _, values⟩ := kept.flow.queue
  have ahead := kept.flow.length values
  rw [accesses_eq finished, accesses_eq finished] at ahead
  have nothing : queue = [] := List.eq_nil_of_length_eq_zero (by omega)
  rw [values, nothing, List.append_nil]

/-- How the runs of the tasks end. -/
structure Completes
    (program : Program Thread)
    (state : State Thread) : Prop where
  runsOut :
    ∀ run : Nat → State Thread,
      run 0 = state →
      (∀ time, Next program (run time) (run (time + 1))) →
      ∀ settled,
        ∃ time,
          settled ≤ time ∧
            ¬ Act program (run time) (run (time + 1))
  ends :
    state.Stuck program →
    ((∀ thread, state.Done program thread) ↔
      program.total .consumer ≤ program.total .producer ∧
        program.total .producer ≤
          program.total .consumer + program.slots.toNat)
  adds :
    (∀ thread, state.Done program thread) →
    program.total .producer = program.total .consumer →
    state.consumed.map Prod.snd = state.produced.map Prod.snd ∧
      (IntType.int.Represents program.sum →
        (∀ thread,
          program.role thread = .consumer →
          (state.sum thread).Is
            (valuesOf thread state.consumed).sum) ∧
          state.sums program = program.sum)

/--
The tasks do not loop, and where they stop all of them are through exactly when
the producers produce what the consumers consume, or more by as much as the
buffer holds.  If it is as much, the consumers have read all items, and added
them up if their sum fits into an `int`.
-/
theorem reachable_completes
    (reachable : (system program).Reachable state) :
    Completes program state where
  runsOut := by
    intro run first steps
    exact reachable_spurious reachable first steps
  ends := by
    intro stuck
    rw [(reachable_halted reachable stuck).done_iff]
    constructor
    · intro enough
      have producers := enough .producer
      have consumers := enough .consumer
      simp only [credit, Party.other, UInt32.toNat_zero]
        at producers consumers
      omega
    · rintro ⟨fed, drained⟩ role
      cases role <;>
        simp only [credit, Party.other, UInt32.toNat_zero] <;>
        omega
  adds := by
    intro finished matching
    have kept := reachable_kept reachable
    have everything := kept.all_consumed finished matching
    refine ⟨everything, ?_⟩
    intro fits
    rw [kept.sum_eq finished, ← everything] at fits ⊢
    exact ⟨kept.sum_is finished fits, kept.sums_eq finished fits⟩

end Counting

/-- The example comes to its end, with the sum that it expects. -/
theorem reachable_completes_example :
    ∃ state,
      (system exampleSemaphore).Reachable state ∧
        (∀ thread, state.Done exampleSemaphore thread) ∧
        state.consumed.map Prod.snd = state.produced.map Prod.snd ∧
        state.sums exampleSemaphore = 210 ∧
        Completes exampleSemaphore state := by
  obtain ⟨state, reachable, after⟩ :=
    exampleSemaphore_afterRounds (Nat.le_refl 20)
  have done : ∀ thread, state.Done exampleSemaphore thread := by
    intro thread
    exact ⟨by rw [after.place], by rw [after.rounds]; rfl⟩
  have completes := reachable_completes reachable
  obtain ⟨everything, sums⟩ := completes.adds done rfl
  exact ⟨state, reachable, done, everything,
    (sums (by decide)).2, completes⟩

end SThread.Examples.BoundedBuffer
